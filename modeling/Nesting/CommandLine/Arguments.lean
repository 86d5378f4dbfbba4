/-! # Command line arguments

Arguments are read against the `CommandForm` of their command, which lists its options.  A value
stands behind its option as the next argument, which then must not look like an option, or is
attached to it; a double dash ends the options.  An option given twice is an error, as is
anything that the form does not list. -/

namespace Nesting.CommandLine

structure ValueOption where
  long : String
  short : Option Char := none

/-- What a command takes. -/
structure CommandForm where
  values : List ValueOption
  flags : List String
  takesSource : Bool

structure Arguments where
  values : List (String × String) := []
  flags : List String := []
  source : Option String := none

namespace Arguments

def value? (a : Arguments) (long : String) : Option String := a.values.lookup long

def hasFlag (a : Arguments) (long : String) : Bool := a.flags.contains long

def addValue? (a : Arguments) (long value : String) : Option Arguments :=
  if (a.value? long).isSome then none else some { a with values := (long, value) :: a.values }

def addFlag? (a : Arguments) (long : String) : Option Arguments :=
  if a.hasFlag long then none else some { a with flags := long :: a.flags }

def addSource? (a : Arguments) (form : CommandForm) (source : String) : Option Arguments :=
  if form.takesSource && a.source.isNone then some { a with source := some source } else none

end Arguments

/-- An argument that cannot be the value of the option before it. -/
def looksLikeOption (arg : String) : Bool := arg.toList.head? == some '-' && arg ≠ "-"

/-- The name of a long option and the value attached to it. -/
def splitLong (cs : List Char) : String × Option String :=
  let name := String.ofList (cs.takeWhile (· ≠ '='))
  match cs.dropWhile (· ≠ '=') with
  | [] => (name, none)
  | _ :: value => (name, some (String.ofList value))

def attachedToShort : List Char → Option String
  | [] => none
  | '=' :: cs => some (String.ofList cs)
  | cs => some (String.ofList cs)

/-- Which option an argument is, and the value attached to it. -/
inductive ArgumentKind
  | endOfOptions
  | valueOption (long : String) (attached : Option String)
  | flag (long : String)
  | source
  | unknown

def classify (form : CommandForm) (arg : String) : ArgumentKind :=
  match arg.toList with
  | ['-', '-'] => .endOfOptions
  | '-' :: '-' :: cs =>
    let (name, attached) := splitLong cs
    if form.values.any (·.long == name) then .valueOption name attached
    else if form.flags.contains name && attached.isNone then .flag name
    else .unknown
  | '-' :: c :: cs =>
    match form.values.find? (·.short == some c) with
    | some o => .valueOption o.long (attachedToShort cs)
    | none => .unknown
  | _ => .source

/-- Reads arguments; nothing comes of those that do not fit the form. -/
def read (form : CommandForm) (onlySources : Bool) (a : Arguments) :
    List String → Option Arguments
  | [] => some a
  | arg :: rest =>
    if onlySources then do read form true (← a.addSource? form arg) rest
    else
      match classify form arg with
      | .endOfOptions => read form true a rest
      | .flag long => do read form false (← a.addFlag? long) rest
      | .source => do read form false (← a.addSource? form arg) rest
      | .valueOption long (some value) => do read form false (← a.addValue? long value) rest
      | .valueOption long none =>
        match rest with
        | value :: rest =>
          if looksLikeOption value then none
          else do read form false (← a.addValue? long value) rest
        | [] => none
      | .unknown => none

end Nesting.CommandLine
