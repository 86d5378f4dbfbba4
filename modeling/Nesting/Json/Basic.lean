import Nesting.Json.Double
import Nesting.Text.Quoted

/-! # JSON values

A `Json` value is what a text says, members in their order and repeated keys kept.  A text may
stop making sense before its end; the value then holds a fault at the point where reading
stopped, so that a decoder that walks over the value in order meets its own complaints about
earlier parts first.  `Json.fault?` is the fault of a value that is kept, `Json.skipped?` that
of a value that is passed over, where less can go wrong.

`Json.compact` and `Json.pretty` write values on one line and over several lines. -/

namespace Nesting

/-- Why reading a text cannot go on. -/
inductive JsonStop
  | malformed
  /-- The text ends too early. -/
  | truncated
  deriving DecidableEq, Repr, Inhabited

/-- What is wrong with a text. -/
inductive JsonFault
  | malformed
  /-- The text ends too early. -/
  | truncated
  /-- The text ends too early, right behind a comma. -/
  | truncatedAfterComma
  /-- The text ends inside a word. -/
  | truncatedWord
  /-- The text ends inside a number. -/
  | truncatedNumber
  /-- A number is too great, or a text or a key holds half of a surrogate pair.  Reading goes on
  behind it, perhaps up to a fault that is met even where values are passed over. -/
  | meaningless (later : Option JsonStop)
  deriving DecidableEq, Repr, Inhabited

/-- What a fault comes to when the value that holds it is passed over. -/
def JsonFault.whenSkipped? : JsonFault → Option JsonStop
  | malformed | truncatedNumber => some .malformed
  | truncated | truncatedAfterComma | truncatedWord => some .truncated
  | meaningless later => later

/-- A number: whole numbers of 64 bits are kept as they are, all others are rounded. -/
inductive JsonNumber
  | natural (n : Nat)
  /-- The number `-n`. -/
  | negative (n : Nat)
  | float (isNegative : Bool) (value : Double)
  deriving DecidableEq, Repr, Inhabited

/-- A JSON value, perhaps with a fault at its end. -/
inductive Json
  | null
  | bool (b : Bool)
  | number (n : JsonNumber)
  | string (s : String)
  | array (items : List Json) (cut : Option JsonFault)
  | object (members : List (String × Json)) (cut : Option JsonFault)
  | broken (fault : JsonFault)
  deriving Repr, Inhabited

namespace Json

/-! ### Making values -/

/-- A whole array. -/
def list (items : List Json) : Json := .array items none

/-- A whole object. -/
def record (members : List (String × Json)) : Json := .object members none

def nat (n : Nat) : Json := .number (.natural n)

/-- A text, or nothing. -/
def optional : Option String → Json
  | none => .null
  | some s => .string s

def strings (ss : List String) : Json := .list (ss.map .string)

/-! ### Faults -/

mutual

/-- The fault in a value that is kept. -/
def fault? : Json → Option JsonFault
  | .array items cut => (faultAll? items).or cut
  | .object members cut => (faultMembers? members).or cut
  | .broken fault => some fault
  | _ => none

def faultAll? : List Json → Option JsonFault
  | [] => none
  | j :: js => (fault? j).or (faultAll? js)

def faultMembers? : List (String × Json) → Option JsonFault
  | [] => none
  | (_, j) :: js => (fault? j).or (faultMembers? js)

end

mutual

/-- Why reading stops in a value that is passed over. -/
def skipped? : Json → Option JsonStop
  | .array items cut => (skippedAll? items).or (cut.bind JsonFault.whenSkipped?)
  | .object members cut => (skippedMembers? members).or (cut.bind JsonFault.whenSkipped?)
  | .broken fault => fault.whenSkipped?
  | _ => none

def skippedAll? : List Json → Option JsonStop
  | [] => none
  | j :: js => (skipped? j).or (skippedAll? js)

def skippedMembers? : List (String × Json) → Option JsonStop
  | [] => none
  | (_, j) :: js => (skipped? j).or (skippedMembers? js)

end

mutual

/-- How many arrays and objects lie inside each other in a value. -/
def depth : Json → Nat
  | .array items _ => depthAll items + 1
  | .object members _ => depthMembers members + 1
  | _ => 0

def depthAll : List Json → Nat
  | [] => 0
  | j :: js => max (depth j) (depthAll js)

def depthMembers : List (String × Json) → Nat
  | [] => 0
  | (_, j) :: js => max (depth j) (depthMembers js)

end

/-! ### Writing texts -/

/-- A character inside a written text. -/
def escapeChar (c : Char) : List Char :=
  if c = '"' then ['\\', '"']
  else if c = '\\' then ['\\', '\\']
  else if c = '\x08' then ['\\', 'b']
  else if c = '\x0c' then ['\\', 'f']
  else if c = '\n' then ['\\', 'n']
  else if c = '\r' then ['\\', 'r']
  else if c = '\t' then ['\\', 't']
  else if c.toNat < 0x20 then ['\\', 'u'] ++ Quoting.hexDigits 4 c.toNat
  else [c]

def quote (s : String) : List Char := ['"'] ++ s.toList.flatMap escapeChar ++ ['"']

def numberText : JsonNumber → List Char
  | .natural n => Nat.toDigits 10 n
  | .negative n => '-' :: Nat.toDigits 10 n
  | .float isNegative value => (value.render isNegative).toList

/-! ### Writing values

The writers are given the text that follows a value. -/

mutual

/-- A value without any blanks, in front of a text. -/
def compactBefore : Json → List Char → List Char
  | .null, after => "null".toList ++ after
  | .bool true, after => "true".toList ++ after
  | .bool false, after => "false".toList ++ after
  | .number n, after => numberText n ++ after
  | .string s, after => quote s ++ after
  | .array items _, after => '[' :: compactItems items after
  | .object members _, after => '\x7b' :: compactMembers members after
  | .broken _, after => after

/-- The items of an array and its closing bracket. -/
def compactItems : List Json → List Char → List Char
  | [], after => ']' :: after
  | [j], after => compactBefore j (']' :: after)
  | j :: js, after => compactBefore j (',' :: compactItems js after)

def compactMembers : List (String × Json) → List Char → List Char
  | [], after => '\x7d' :: after
  | [(k, j)], after => quote k ++ ':' :: compactBefore j ('\x7d' :: after)
  | (k, j) :: js, after => quote k ++ ':' :: compactBefore j (',' :: compactMembers js after)

end

/-- A line feed and the blanks of a level, in front of a text. -/
def newLine (level : Nat) (after : List Char) : List Char :=
  '\n' :: (List.replicate (2 * level) ' ' ++ after)

mutual

/-- A value with its parts on lines of their own, two blanks further in, in front of a text. -/
def prettyBefore (level : Nat) : Json → List Char → List Char
  | .null, after => "null".toList ++ after
  | .bool true, after => "true".toList ++ after
  | .bool false, after => "false".toList ++ after
  | .number n, after => numberText n ++ after
  | .string s, after => quote s ++ after
  | .array [] _, after => '[' :: ']' :: after
  | .array items _, after => '[' :: prettyItems level items after
  | .object [] _, after => '\x7b' :: '\x7d' :: after
  | .object members _, after => '\x7b' :: prettyMembers level members after
  | .broken _, after => after

def prettyItems (level : Nat) : List Json → List Char → List Char
  | [], after => newLine level (']' :: after)
  | [j], after =>
    newLine (level + 1) (prettyBefore (level + 1) j (newLine level (']' :: after)))
  | j :: js, after =>
    newLine (level + 1) (prettyBefore (level + 1) j (',' :: prettyItems level js after))

def prettyMembers (level : Nat) : List (String × Json) → List Char → List Char
  | [], after => newLine level ('\x7d' :: after)
  | [(k, j)], after =>
    newLine (level + 1) <| quote k ++ ':' :: ' ' ::
      prettyBefore (level + 1) j (newLine level ('\x7d' :: after))
  | (k, j) :: js, after =>
    newLine (level + 1) <| quote k ++ ':' :: ' ' ::
      prettyBefore (level + 1) j (',' :: prettyMembers level js after)

end

def compact (j : Json) : String := String.ofList (compactBefore j [])

/-- A value over several lines. -/
def pretty (j : Json) : String := String.ofList (prettyBefore 0 j [])

end Json

end Nesting
