import Nesting.CommandLine.Arguments
import Nesting.Language.Suggestion
import Nesting.Tree.Dump
import Nesting.Tree.Json

/-! # The command line

Four commands: `tokens` and `tree` show the tokens and the tree of a source, `rules` shows the
rule table of a language, and `langs` lists the built-in languages.  `Invocation.ofArguments?`
reads the arguments and `Invocation.run` gives what is printed and the exit code; what it needs
of the outside world is the text of files (`Files`). -/

namespace Nesting.CommandLine

/-! ### Files -/

inductive ReadError
  | notFound
  | isDirectory
  | notDirectory
  | notText
  | other (message : String)
  deriving DecidableEq, Repr

def ReadError.message : ReadError → String
  | notFound => "No such file or directory (os error 2)"
  | isDirectory => "Is a directory (os error 21)"
  | notDirectory => "Not a directory (os error 20)"
  | notText => "stream did not contain valid UTF-8"
  | other message => message

/-- The text that bytes encode. -/
def decodeText (bytes : ByteArray) : Except ReadError String :=
  match String.fromUTF8? bytes with
  | some s => .ok s
  | none => .error .notText

/-- What can be read. -/
structure Files where
  /-- The text of the file at a path. -/
  file : String → Except ReadError String
  /-- The text of the standard input. -/
  standardInput : Except ReadError String

/-! ### Invocations -/

/-- Where a source comes from and what language it is in. -/
structure Input where
  path : Option String
  text : Option String
  language : Option String
  languageFile : Option String
  deriving Repr

/-- How tokens and trees are shown. -/
structure View where
  json : Bool
  spans : Bool
  color : Bool
  deriving Repr

/-- A command with its arguments. -/
inductive Invocation
  | tokens (input : Input) (view : View)
  | tree (input : Input) (view : View)
  | rules (input : Input) (color : Bool)
  | langs (json : Bool)
  deriving Repr

def languageOptions : List ValueOption :=
  [{ long := "lang", short := some 'l' }, { long := "lang-file" }]

def colorOption : ValueOption := { long := "color" }

/-- What `tokens` and `tree` take. -/
def sourceForm : CommandForm :=
  { values := { long := "source", short := some 's' } :: languageOptions ++ [colorOption]
    flags := ["json", "spans"]
    takesSource := true }

def rulesForm : CommandForm :=
  { values := languageOptions ++ [colorOption], flags := [], takesSource := false }

def langsForm : CommandForm := { values := [], flags := ["json"], takesSource := false }

/-- The choice of colours.  The output is never taken for a terminal. -/
def color? (a : Arguments) : Option Bool :=
  match a.value? colorOption.long with
  | none => some false
  | some "auto" => some false
  | some "never" => some false
  | some "always" => some true
  | some _ => none

/-- Paths must not be empty. -/
def isPath (path : Option String) : Bool := path != some ""

/-- The input of a command.  A source has one origin, and a language one description. -/
def input? (a : Arguments) : Option Input :=
  let input : Input :=
    { path := a.source, text := a.value? "source", language := a.value? "lang",
      languageFile := a.value? "lang-file" }
  if input.path.isSome && input.text.isSome then none
  else if input.language.isSome && input.languageFile.isSome then none
  else if isPath input.path && isPath input.languageFile then some input
  else none

def view? (a : Arguments) : Option View := do
  return { json := a.hasFlag "json", spans := a.hasFlag "spans", color := ← color? a }

def Invocation.ofArguments? : List String → Option Invocation
  | "tokens" :: args => do
    let a ← read sourceForm false {} args
    return .tokens (← input? a) (← view? a)
  | "tree" :: args => do
    let a ← read sourceForm false {} args
    return .tree (← input? a) (← view? a)
  | "rules" :: args => do
    let a ← read rulesForm false {} args
    return .rules (← input? a) (← color? a)
  | "langs" :: args => do
    let a ← read langsForm false {} args
    return .langs (a.hasFlag "json")
  | _ => none

/-! ### Results -/

/-- What a run prints, and its exit code. -/
structure Outcome where
  code : Nat
  out : String
  err : String
  deriving DecidableEq, Repr

def Outcome.success (out : String) : Outcome := { code := 0, out, err := "" }

def Outcome.failure (message : String) : Outcome :=
  { code := 1, out := "", err := "error: " ++ message ++ "\n" }

def Outcome.usage : Outcome := { code := 2, out := "", err := "" }

/-! ### Sources -/

def cannotRead (path : String) (e : ReadError) : String :=
  "cannot read `" ++ path ++ "`: " ++ e.message

/-- The source of a command: its text, a file, or the standard input for a single dash. -/
def loadSource (files : Files) (input : Input) : Except String String :=
  match input.text, input.path with
  | some text, _ => .ok text
  | none, some "-" =>
    files.standardInput.mapError fun e => "failed to read stdin: " ++ e.message
  | none, some path => (files.file path).mapError (cannotRead path)
  | none, none => .error "source required (positional or --source)"

/-! ### Languages -/

/-- The last part of a path that is not empty. -/
def fileName (path : String) : List Char :=
  let trimmed := path.toList.reverse.dropWhile (· = '/')
  (trimmed.takeWhile (· ≠ '/')).reverse

/-- The extension of a path: what follows the last point of the file name, unless that point is
its first character. -/
def extension? (path : String) : Option String :=
  let name := fileName path
  let ending := (name.reverse.takeWhile (· ≠ '.')).reverse
  let stem := name.take (name.length - ending.length - 1)
  if name = ['.', '.'] || stem.isEmpty || ending.length = name.length then none
  else some (String.ofList ending)

/-- The file name of a path without its extension. -/
def stem (path : String) : String :=
  let name := fileName path
  match extension? path with
  | some ending => String.ofList (name.take (name.length - ending.length - 1))
  | none => String.ofList name

def loadMessage : LoadError → String
  | .json e => "invalid language description: " ++ e.message
  | .grammar e => e.message

def compileEntry (e : LanguageEntry) : Except String Language :=
  e.compile.mapError (·.message)

/-- The language of a command: its description, its name, or that of the source's extension. -/
def resolveLanguage (files : Files) (input : Input) : Except String Language :=
  match input.languageFile, input.language with
  | some path, _ => do
    let text ← (files.file path).mapError (cannotRead path)
    (Language.ofJson (stem path) text).mapError loadMessage
  | none, some name =>
    match LanguageEntry.ofName? name with
    | some e => compileEntry e
    | none => .error ("unknown language: '" ++ name ++ "'")
  | none, none =>
    match (input.path.filter (· ≠ "-")).bind extension? with
    | some ending =>
      match LanguageEntry.ofExtension? ending with
      | some e => compileEntry e
      | none =>
        .error ("cannot infer language from extension '." ++ ending ++ "', use -l/--lang")
    | none => .error "-l/--lang or --lang-file is required (cannot infer from input)"

def noLanguage (input : Input) (message : String) : Outcome :=
  let suggestion := match input.language.bind LanguageEntry.suggest? with
    | some name => "\nDid you mean '" ++ name ++ "'?\n"
    | none => ""
  { code := 1
    out := ""
    err := "error: " ++ message ++ "\n" ++ suggestion ++
      "\nRun 'grasp langs' for the full list.\n" }

/-! ### Commands -/

def View.style (v : View) : DumpStyle := { spans := v.spans, palette := .ofBool v.color }

def renderTokens (l : Language) (source : String) (v : View) : String :=
  let tokens := l.tokenize source
  if v.json then (Json.list (tokens.map (·.toJson))).pretty ++ "\n" else v.style.dumpTokens tokens

def renderTree (l : Language) (source : String) (v : View) : Except BuildError String := do
  let node := (← l.parse source).toNode
  return if v.json then node.toJson.pretty ++ "\n" else v.style.dump node

def describeEntry (e : LanguageEntry) : String :=
  let aliases := e.aliases.drop 1
  let names := if aliases.isEmpty then "" else " (" ++ ", ".intercalate aliases ++ ")"
  let extensions :=
    if e.extensions.isEmpty then ""
    else " [" ++ ", ".intercalate (e.extensions.map ("." ++ ·)) ++ "]"
  "  " ++ e.name ++ names ++ extensions ++ "\n"

def renderLanguages (entries : List LanguageEntry) : String :=
  "Supported languages (" ++ toString entries.length ++ "):\n" ++
    String.join (entries.map describeEntry)

def languagesToJson (entries : List LanguageEntry) : Json :=
  .list <| entries.map fun e =>
    .record [("name", .string e.name), ("aliases", .strings e.aliases),
      ("extensions", .strings e.extensions)]

/-- Runs a command on its source and its language; the source is loaded first. -/
def withSource (files : Files) (input : Input) (command : Language → String → Outcome) :
    Outcome :=
  match loadSource files input with
  | .error message => .failure message
  | .ok source =>
    match resolveLanguage files input with
    | .error message => noLanguage input message
    | .ok l => command l source

def Invocation.run (files : Files) : Invocation → Outcome
  | tokens input view => withSource files input fun l source => .success (renderTokens l source view)
  | tree input view =>
    withSource files input fun l source =>
      match renderTree l source view with
      | .ok out => .success out
      | .error e => .failure e.message
  | rules input color =>
    match resolveLanguage files input with
    | .error message => noLanguage input message
    | .ok l => .success (l.rules.render (.ofBool color))
  | langs json =>
    if json then .success ((languagesToJson LanguageEntry.all).pretty ++ "\n")
    else .success (renderLanguages LanguageEntry.all)

def run (files : Files) (args : List String) : Outcome :=
  match Invocation.ofArguments? args with
  | none => .usage
  | some invocation => invocation.run files

def Invocation.input? : Invocation → Option Input
  | tokens input _ => some input
  | tree input _ => some input
  | rules input _ => some input
  | langs _ => none

/-- The files that a run may read, and whether it may read the standard input. -/
def needs (args : List String) : List String × Bool :=
  match (Invocation.ofArguments? args).bind (·.input?) with
  | some input =>
    ((input.path.filter (· ≠ "-")).toList ++ input.languageFile.toList, input.path = some "-")
  | none => ([], false)

end Nesting.CommandLine
