import Nesting.Regex.Fault
import Nesting.Regex.Size
import Nesting.Text.Properties

/-! # Reading regular expressions

`Regex.parse` reads the usual notation: literals and escapes, character properties, character
classes with nesting and set operations, groups, flags, repetition, choice and conditions.  It
fails for a text that is not an expression; repetition of nothing, unknown escapes, back references
and look-around are such texts.  It also fails for expressions that nest too deep (`nestingLimit`)
or are too large (`Regex.sizeLimit`), and for a property whose name is not known, or has no table
(see `CharProperty`).

Flags act from where they stand to the end of their group, through all its branches. -/

namespace Nesting.Regex

/-! ### Flags -/

/-- What the flags in force say. -/
structure Flags where
  ignoreCase : Bool := false
  /-- The line conditions hold at every line, not only at the ends of the text. -/
  multiLine : Bool := false
  /-- A dot is any character, line feeds included. -/
  dotAll : Bool := false
  /-- Repetition is lazy, and a question mark makes it greedy. -/
  swapGreed : Bool := false
  /-- Carriage returns end lines too. -/
  anyLineEnding : Bool := false
  /-- Blanks and comments between the parts of an expression are passed over. -/
  verbose : Bool := false
  /-- Digits, spaces, word characters and case are those of all scripts. -/
  unicode : Bool := true

/-- Sets the flag of a letter. -/
def Flags.set? (f : Flags) (letter : Char) (on : Bool) : Option Flags :=
  match letter with
  | 'i' => some { f with ignoreCase := on }
  | 'm' => some { f with multiLine := on }
  | 's' => some { f with dotAll := on }
  | 'U' => some { f with swapGreed := on }
  | 'R' => some { f with anyLineEnding := on }
  | 'x' => some { f with verbose := on }
  | 'u' => some { f with unicode := on }
  | _ => none

namespace Parser

/-! ### The reader -/

/-- The text that is left, and the groups that have been opened. -/
structure Input where
  rest : List Char
  /-- The number of groups. -/
  groups : Nat := 0
  /-- The names of groups. -/
  names : List (List Char) := []

/-- A reader of a part of an expression. -/
abbrev Reader := StateT Input Option

def rest : Reader (List Char) := do return (← get).rest

def goTo (cs : List Char) : Reader Unit := modify fun s => { s with rest := cs }

def dropBlanks : List Char → List Char
  | [] => []
  | c :: cs =>
    if c = '#' then inComment cs else if CharClass.isSpace c then dropBlanks cs else c :: cs
where
  /-- Passes over the rest of a comment, then goes on. -/
  inComment : List Char → List Char
    | [] => []
    | c :: cs => if c = '\n' then dropBlanks cs else inComment cs

/-- Passes over blanks if the flags allow them. -/
def skipBlanks (f : Flags) : Reader Unit := do
  if f.verbose then goTo (dropBlanks (← rest))

def take : Reader Char := do
  match ← rest with
  | [] => failure
  | c :: cs => goTo cs; return c

/-- The next character, which is consumed, and blanks after it if the flags allow them. -/
def takeThenSkip (f : Flags) : Reader Char := do
  let c ← take
  skipBlanks f
  return c

def takeIf (c : Char) : Reader Bool := do
  match ← rest with
  | d :: cs => if c = d then goTo cs; return true else return false
  | [] => return false

/-- Consumes a character that must be the next one. -/
def expect (c : Char) : Reader Unit := do
  unless ← takeIf c do failure

/-! ### Numbers -/

def countLimit : Nat := 4294967295

/-- Decimal digits, as many as there are up to a number. -/
def digits (f : Flags) : Nat → Reader (List Char)
  | 0 => return []
  | n + 1 => do
    if (← rest).head?.any Char.isDigit then return (← takeThenSkip f) :: (← digits f n)
    else return []

/-- A repetition count, with blanks around it. -/
def count (f : Flags) : Reader Nat := do
  goTo ((← rest).dropWhile CharClass.isSpace)
  let ds ← digits f (← rest).length
  goTo ((← rest).dropWhile CharClass.isSpace)
  if ds.isEmpty then failure
  let n := ds.foldl (fun n c => 10 * n + (c.toNat - '0'.toNat)) 0
  if n > countLimit then failure
  return n

def hexDigit? (c : Char) : Option Nat :=
  if c.isDigit then some (c.toNat - '0'.toNat)
  else if 'a' ≤ c && c ≤ 'f' then some (c.toNat - 'a'.toNat + 10)
  else if 'A' ≤ c && c ≤ 'F' then some (c.toNat - 'A'.toNat + 10)
  else none

def hexChar? (digits : List Char) : Option Char := do
  if digits.isEmpty then none
  let n ← digits.foldlM (fun n c => (hexDigit? c).map (16 * n + ·)) 0
  if n.isValidChar then some (Char.ofNat n) else none

def isAscii (c : Char) : Bool := c.toNat < 128

def takeMany (f : Flags) : Nat → Reader (List Char)
  | 0 => return []
  | n + 1 => return (← takeThenSkip f) :: (← takeMany f n)

/-- The characters before the next closing brace, which is consumed too. -/
def takeToBrace (f : Flags) : Nat → Reader (List Char)
  | 0 => failure
  | n + 1 => do
    let c ← takeThenSkip f
    if c = '\x7d' then return [] else return c :: (← takeToBrace f n)

/-- A code point in braces, or in a fixed number of digits; two digits stand for a byte where the
flags leave out other scripts. -/
def hexEscape (f : Flags) (width : Nat) : Reader Char := do
  skipBlanks f
  if ← takeIf '\x7b' then
    skipBlanks f
    hexChar? (← takeToBrace f ((← rest).length + 1))
  else
    let c ← hexChar? (← takeMany f width)
    if width = 2 && !f.unicode && !isAscii c then failure
    return c

/-! ### Escapes -/

/-- What an escape stands for. -/
inductive Escape
  | literal (c : Char)
  | set (s : CharSet)
  | anchor (a : Anchor)

def digitSet (f : Flags) : CharSet := if f.unicode then .digit else .range '0' '9'

def spaceSet (f : Flags) : CharSet :=
  if f.unicode then .space else .union (.range '\t' '\r') (.single ' ')

/-- Letters, digits and the underscore of the first alphabet. -/
def asciiWord : CharSet :=
  .unions [.range '0' '9', .range 'A' 'Z', .single '_', .range 'a' 'z']

def wordSet (f : Flags) : CharSet := if f.unicode then .word else asciiWord

/-- The complement of a set, which the flags may forbid. -/
def complement (f : Flags) (s : CharSet) : Reader CharSet :=
  if f.unicode then return .compl s else failure

/-- The set without regard to case, if the flags say so. -/
def fold (f : Flags) (s : CharSet) : CharSet :=
  if !f.ignoreCase then s
  else if f.unicode then .anyCase s
  else .inter (.anyCase s) (.range '\x00' '\x7f')

/-- The text of a property: one character, or all up to a closing brace. -/
def propertyText (f : Flags) : Reader (List Char) := do
  skipBlanks f
  if ← takeIf '\x7b' then
    skipBlanks f
    takeToBrace f ((← rest).length + 1)
  else
    let c ← take
    if c = '\\' then failure
    return [c]

/-- The parts of a text before and after the first place where another one stands. -/
def splitAt? (sign : List Char) : List Char → Option (List Char × List Char)
  | [] => none
  | c :: cs =>
    if sign <+: c :: cs then some ([], (c :: cs).drop sign.length)
    else (splitAt? sign cs).map fun (before, after) => (c :: before, after)

/-- The set that the text of a property stands for: a name, or a name and a value with a sign
between them.  All three signs mean the same. -/
def propertySet? (text : List Char) : Option CharSet :=
  match ["!=", ":", "="].findSome? fun sign => splitAt? sign.toList text with
  | some (name, value) => CharProperty.valued? name value
  | none => CharProperty.named? text

/-- The characters that have a property, or those that have not.  The flags may forbid it. -/
def property (f : Flags) (negated : Bool) : Reader CharSet := do
  let text ← propertyText f
  unless f.unicode do failure
  let s ← propertySet? text
  return if negated then (fold f s).compl else fold f s

/-- The name in braces after a word edge selects a special condition.  Braces that hold no name
are a repetition count. -/
def wordEdge (f : Flags) : Reader Anchor := do
  let letters := wordSet f
  let isNameChar (c : Char) : Bool := c.isAlpha || c = '-'
  match ← rest with
  | '\x7b' :: cs =>
    let cs := if f.verbose then dropBlanks cs else cs
    match cs with
    | [] => failure
    | c :: _ =>
      if !isNameChar c then return .wordEdge letters
      goTo (cs.dropWhile isNameChar)
      expect '\x7d'
      match String.ofList (cs.takeWhile isNameChar) with
      | "start" => return .wordStart letters
      | "end" => return .wordEnd letters
      | "start-half" => return .notAfterWord letters
      | "end-half" => return .notBeforeWord letters
      | _ => failure
  | _ => return .wordEdge letters

/-- What follows a backslash. -/
def escape (f : Flags) : Reader Escape := do
  let c ← take
  match c with
  | 'd' => return .set (digitSet f)
  | 's' => return .set (spaceSet f)
  | 'w' => return .set (wordSet f)
  | 'D' => return .set (← complement f (digitSet f))
  | 'S' => return .set (← complement f (spaceSet f))
  | 'W' => return .set (← complement f (wordSet f))
  | 'p' => return .set (← property f false)
  | 'P' => return .set (← property f true)
  | 'x' => return .literal (← hexEscape f 2)
  | 'u' => return .literal (← hexEscape f 4)
  | 'U' => return .literal (← hexEscape f 8)
  | 'a' => return .literal '\x07'
  | 'f' => return .literal '\x0c'
  | 't' => return .literal '\t'
  | 'n' => return .literal '\n'
  | 'r' => return .literal '\r'
  | 'v' => return .literal '\x0b'
  | 'A' => return .anchor .textStart
  | 'z' => return .anchor .textEnd
  | 'b' => return .anchor (← wordEdge f)
  | 'B' => return .anchor (.notWordEdge (wordSet f))
  | '<' => return .anchor (.wordStart (wordSet f))
  | '>' => return .anchor (.wordEnd (wordSet f))
  | _ => if isAscii c && !c.isAlphanum then return .literal c else failure

/-! ### Nesting -/

/-- How deep the parts of an expression may nest. -/
def nestingLimit : Nat := 250

/-- A part of an expression, and how deep it nests. -/
structure Nested (α : Type) where
  value : α
  depth : Nat := 0

/-- How deep several parts nest; two or more of them are a level of their own. -/
def jointDepth {α : Type} : List (Nested α) → Nat
  | [] => 0
  | [x] => x.depth
  | xs => (xs.map Nested.depth).foldl max 0 + 1

/-! ### Character classes -/

def namedSet? : String → Option CharSet
  | "alnum" => some (.unions [.range '0' '9', .range 'A' 'Z', .range 'a' 'z'])
  | "alpha" => some (.unions [.range 'A' 'Z', .range 'a' 'z'])
  | "ascii" => some (.range '\x00' '\x7f')
  | "blank" => some (.unions [.single '\t', .single ' '])
  | "cntrl" => some (.unions [.range '\x00' '\x1f', .single '\x7f'])
  | "digit" => some (.range '0' '9')
  | "graph" => some (.range '!' '~')
  | "lower" => some (.range 'a' 'z')
  | "print" => some (.range ' ' '~')
  | "punct" =>
    some (.unions [.range '!' '/', .range ':' '@', .range '[' '\x60', .range '\x7b' '~'])
  | "space" => some (.unions [.range '\t' '\r', .single ' '])
  | "upper" => some (.range 'A' 'Z')
  | "word" => some asciiWord
  | "xdigit" => some (.unions [.range '0' '9', .range 'A' 'F', .range 'a' 'f'])
  | _ => none

/-- A named class between colons, after the opening bracket; nothing is consumed otherwise. -/
def namedClass (f : Flags) : Reader (Option CharSet) := do
  match ← rest with
  | ':' :: cs =>
    let (negated, cs) := match cs with
      | '^' :: cs => (true, cs)
      | cs => (false, cs)
    match cs.dropWhile (· ≠ ':') with
    | ':' :: ']' :: tail =>
      match namedSet? (String.ofList (cs.takeWhile (· ≠ ':'))) with
      | none => return none
      | some s =>
        goTo tail
        if negated then return some (← complement f (fold f s)) else return some s
    | _ => return none
  | _ => return none

/-- One end of a range, or a set that stands for itself. -/
def classItem (f : Flags) : Reader (Sum Char CharSet) := do
  let c ← take
  let e ← if c = '\\' then escape f else pure (.literal c)
  match e with
  | .literal d => if f.unicode || isAscii d then return .inl d else failure
  | .set s => return .inr s
  | .anchor _ => failure

/-- A single character, a range, or a set that stands for itself. -/
def classRange (f : Flags) : Reader CharSet := do
  let first ← classItem f
  let alone : CharSet := match first with
    | .inl c => .single c
    | .inr s => s
  skipBlanks f
  match ← rest with
  | '-' :: cs =>
    let next := if f.verbose then dropBlanks cs else cs
    match next with
    | ']' :: _ => return alone
    | '-' :: _ => return alone
    | _ =>
      goTo next
      match first, ← classItem f with
      | .inl low, .inl high => if low ≤ high then return .range low high else failure
      | _, _ => failure
  | [] => failure
  | _ => return alone

inductive SetOp
  | inter
  | diff
  | symmDiff

def SetOp.apply : SetOp → CharSet → CharSet → CharSet
  | inter, a, b => .inter a b
  | diff, a, b => .diff a b
  | symmDiff, a, b => .symmDiff a b

/-- A set operation that waits for its right side. -/
abbrev Waiting := Option (Nested CharSet × SetOp)

/-- The set of the items read so far, behind the operation that waits for it. -/
def classSoFar (f : Flags) (waiting : Waiting) (items : List (Nested CharSet)) : Nested CharSet :=
  let s := fold f (.unions (items.reverse.map Nested.value))
  let depth := jointDepth items
  match waiting with
  | none => { value := s, depth }
  | some (left, op) => { value := op.apply left.value s, depth := max left.depth depth + 1 }

/-- The beginning of a class: whether it is negated, and the dashes and the closing bracket that
stand for themselves because they come first. -/
def classOpening (f : Flags) : Reader (Bool × List (Nested CharSet)) := do
  skipBlanks f
  let negated ← takeIf '^'
  skipBlanks f
  let cs ← rest
  let dashes := cs.takeWhile (· = '-')
  goTo (cs.dropWhile (· = '-'))
  skipBlanks f
  let items : List (Nested CharSet) := dashes.map fun c => { value := .single c }
  if items.isEmpty then
    if ← takeIf ']' then return (negated, [{ value := .single ']' }])
  return (negated, items)

/-- The rest of a class, after its beginning.  Every round consumes a character, so the length of
the text bounds the fuel. -/
def classBody (f : Flags) :
    Nat → Bool → Waiting → List (Nested CharSet) → Reader (Nested CharSet)
  | 0, _, _, _ => failure
  | fuel + 1, negated, waiting, items => do
    skipBlanks f
    match ← rest with
    | [] => failure
    | '[' :: cs =>
      goTo cs
      match ← namedClass f with
      | some s => classBody f fuel negated waiting ({ value := s } :: items)
      | none =>
        let (innerNegated, innerItems) ← classOpening f
        let s ← classBody f fuel innerNegated none innerItems
        classBody f fuel negated waiting (s :: items)
    | ']' :: cs =>
      goTo cs
      let s := classSoFar f waiting items
      let value ← if negated then complement f s.value else pure s.value
      return { value, depth := s.depth + 1 }
    | '&' :: '&' :: cs =>
      goTo cs
      classBody f fuel negated (some (classSoFar f waiting items, .inter)) []
    | '-' :: '-' :: cs =>
      goTo cs
      classBody f fuel negated (some (classSoFar f waiting items, .diff)) []
    | '~' :: '~' :: cs =>
      goTo cs
      classBody f fuel negated (some (classSoFar f waiting items, .symmDiff)) []
    | _ =>
      let s ← classRange f
      classBody f fuel negated waiting ({ value := s } :: items)

/-! ### Groups -/

/-- What the text after an opening parenthesis says. -/
inductive Opening
  /-- A group, read under the given flags, and its number if it has one. -/
  | group (number : Option Nat) (f : Flags)
  /-- Flags for the rest of the group that holds them. -/
  | directive (f : Flags)

/-- A list of flags up to a colon or a closing parenthesis: the flags in force after it, the
character that ends it, and whether it is empty. -/
def flagList (f : Flags) (negated dangling : Bool) (seen : List Char) :
    List Char → Reader (Flags × Char × Bool)
  | [] => failure
  | c :: cs =>
    if c = ':' || c = ')' then
      if dangling then failure
      else do goTo cs; return (f, c, seen.isEmpty && !negated)
    else if c = '-' then
      if negated then failure else flagList f true true seen cs
    else if seen.contains c then failure
    else
      match f.set? c (!negated) with
      | none => failure
      | some f => flagList f negated false (c :: seen) cs

def isNameChar (first : Bool) (c : Char) : Bool :=
  c = '_' || CharClass.isLetter c ||
    (!first && (c = '.' || c = '[' || c = ']' || CharClass.isLetterOrNumber c))

/-- The name of a group, which no earlier group may have. -/
def groupName : Reader Unit := do
  let cs ← rest
  let name := cs.takeWhile (· ≠ '>')
  goTo (cs.dropWhile (· ≠ '>'))
  expect '>'
  let s ← get
  match name with
  | [] => failure
  | c :: more =>
    if !isNameChar true c || !more.all (isNameChar false) || s.names.contains name then failure
    set { s with names := name :: s.names }

def groupNumber : Reader Nat := do
  let s ← get
  set { s with groups := s.groups + 1 }
  return s.groups + 1

/-- What follows an opening parenthesis. -/
def opening (f : Flags) : Reader Opening := do
  skipBlanks f
  match ← rest with
  | '?' :: 'P' :: '<' :: cs => goTo cs; groupName; return .group (← groupNumber) f
  | '?' :: '<' :: cs => goTo cs; groupName; return .group (← groupNumber) f
  | '?' :: cs =>
    let (g, last, isEmpty) ← flagList f false false [] cs
    if last = ':' then return .group none g
    else if isEmpty then failure
    else return .directive g
  | _ => return .group (← groupNumber) f

/-! ### Repetition -/

/-- A part of a sequence.  Flags are a part that cannot be repeated. -/
inductive Part
  | regex (r : Regex)
  | flags

def Part.regex? : Part → Option Regex
  | regex r => some r
  | flags => none

/-- The expression of the parts of a sequence, the latest first. -/
def sequence (parts : List (Nested Part)) : Nested Regex :=
  { value := .seqs (parts.reverse.filterMap (·.value.regex?)), depth := jointDepth parts }

/-- The expression of the branches of a choice, the latest first. -/
def choiceOf (branches : List (Nested Regex)) : Nested Regex :=
  { value := .choice (branches.reverse.map Nested.value), depth := jointDepth branches }

/-- Repeats the latest part.  A question mark after the count swaps greedy and lazy. -/
def repeatLast (f : Flags) (parts : List (Nested Part)) (least : Nat) (most : Option Nat) :
    Reader (List (Nested Part)) := do
  let swapped ← takeIf '?'
  match parts with
  | { value := .regex r, depth } :: parts =>
    let r := r.times least most (swapped == f.swapGreed)
    return { value := .regex r, depth := depth + 1 } :: parts
  | _ => failure

/-- A repetition count in braces, after the opening one. -/
def bounds (f : Flags) : Reader (Nat × Option Nat) := do
  skipBlanks f
  let least ← count f
  if ← takeIf ',' then
    skipBlanks f
    match ← rest with
    | '\x7d' :: cs => goTo cs; return (least, none)
    | _ =>
      let most ← count f
      expect '\x7d'
      if most < least then failure
      return (least, some most)
  else
    expect '\x7d'
    return (least, some least)

/-! ### Expressions -/

def literal (f : Flags) (c : Char) : Regex :=
  if f.unicode || isAscii c then .ofSet (fold f (.single c)) else .text [c]

/-- Any character, or any but those that end a line. -/
def dot (f : Flags) : Reader Regex := do
  if !f.unicode then failure
  if f.dotAll then return .one .any
  if f.anyLineEnding then return .one (.compl (.union (.single '\n') (.single '\r')))
  return .one (.compl (.single '\n'))

def caret (f : Flags) : Anchor :=
  if f.multiLine then if f.anyLineEnding then .lineStartAnyEnding else .lineStart
  else .textStart

def dollar (f : Flags) : Anchor :=
  if f.multiLine then if f.anyLineEnding then .lineEndAnyEnding else .lineEnd else .textEnd

/-- The inside of a group, up to its closing parenthesis or the end of the text; `branches` and
`parts` are what has been read of it, the latest first.  Every round consumes a character, so the
length of the text bounds the fuel. -/
def body :
    Nat → Flags → List (Nested Regex) → List (Nested Part) → Reader (Nested Regex)
  | 0, _, _, _ => failure
  | fuel + 1, f, branches, parts => do
    let add (r : Regex) (depth : Nat) : List (Nested Part) := { value := .regex r, depth } :: parts
    skipBlanks f
    match ← rest with
    | [] => return choiceOf (sequence parts :: branches)
    | ')' :: _ => return choiceOf (sequence parts :: branches)
    | '|' :: cs => goTo cs; body fuel f (sequence parts :: branches) []
    | '(' :: cs =>
      goTo cs
      match ← opening f with
      | .directive g => body fuel g branches ({ value := .flags } :: parts)
      | .group number g =>
        let r ← body fuel g [] []
        expect ')'
        let grouped := match number with
          | some n => .group n r.value
          | none => r.value
        body fuel f branches (add grouped (r.depth + 1))
    | '[' :: cs =>
      goTo cs
      let (negated, items) ← classOpening f
      let s ← classBody f fuel negated none items
      body fuel f branches (add (.ofSet s.value) s.depth)
    | '*' :: cs => goTo cs; body fuel f branches (← repeatLast f parts 0 none)
    | '+' :: cs => goTo cs; body fuel f branches (← repeatLast f parts 1 none)
    | '?' :: cs => goTo cs; body fuel f branches (← repeatLast f parts 0 (some 1))
    | '\x7b' :: cs =>
      goTo cs
      let (least, most) ← bounds f
      skipBlanks f
      body fuel f branches (← repeatLast f parts least most)
    | '\\' :: cs =>
      goTo cs
      let r : Regex ← match ← escape f with
        | .literal c => pure (literal f c)
        | .set s => pure (.ofSet s)
        | .anchor a => pure (.anchor a)
      body fuel f branches (add r 0)
    | '.' :: cs => goTo cs; body fuel f branches (add (← dot f) 0)
    | '^' :: cs => goTo cs; body fuel f branches (add (.anchor (caret f)) 0)
    | '$' :: cs => goTo cs; body fuel f branches (add (.anchor (dollar f)) 0)
    | c :: cs => goTo cs; body fuel f branches (add (literal f c) 0)

def whole (length : Nat) : Reader Regex := do
  let r ← body (length + 1) {} [] []
  if (← rest).isEmpty && r.depth ≤ nestingLimit then return r.value else failure

end Parser

/-- The expression that a text writes. -/
def parse (text : String) : Except PatternFault Regex :=
  let cs := text.toList
  match (Parser.whole cs.length).run { rest := cs } with
  | none => .error .malformed
  | some (r, _) => if r.size ≤ sizeLimit then .ok r else .error .tooLarge

/-! ### Literal text -/

/-- The characters with a meaning of their own, inside or outside a class. -/
def isMeta (c : Char) : Bool :=
  ['\\', '.', '+', '*', '?', '(', ')', '|', '[', ']', '\x7b', '\x7d', '^', '$', '#', '&', '-',
   '~'].contains c

/-- The expression that matches a text and nothing else. -/
def escapeText (text : String) : String :=
  String.ofList (text.toList.flatMap fun c => if isMeta c then ['\\', c] else [c])

end Nesting.Regex
