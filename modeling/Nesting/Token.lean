import Nesting.Text.Position

/-! # Tokens

A `Token` is a leaf of every tree: a kind, the text it covers, where that text starts and how
many line feeds it holds.  Two kinds, `levelStart` and `levelEnd`, are zero-width markers that
stand at the two ends of a level of a tree; `unknown` is the kind of text that no rule of a
language accepts.

`Token.endPosition` is the position right after a token, and `markerBefore` and `markerAfter`
place a zero-width token at its two ends. -/

namespace Nesting

/-! ### Kinds -/

inductive TokenKind
  | newline
  | whitespace
  | comment
  | symbol
  | number
  | operator
  | bracketLeft
  | bracketRight
  | stringStart
  | stringValue
  | stringEnd
  | templateStart
  | templateEnd
  | levelStart
  | levelEnd
  | unknown
  deriving DecidableEq, Repr, Inhabited

namespace TokenKind

/-- All kinds, in the order in which they are listed to a reader. -/
def all : List TokenKind :=
  [newline, whitespace, comment, symbol, number, operator, bracketLeft, bracketRight,
   stringStart, stringValue, stringEnd, templateStart, templateEnd, levelStart, levelEnd, unknown]

/-- The name of a kind in dumps and in JSON. -/
def name : TokenKind → String
  | newline => "newline"
  | whitespace => "whitespace"
  | comment => "comment"
  | symbol => "symbol"
  | number => "number"
  | operator => "operator"
  | bracketLeft => "bracket-left"
  | bracketRight => "bracket-right"
  | stringStart => "string-start"
  | stringValue => "string-value"
  | stringEnd => "string-end"
  | templateStart => "template-start"
  | templateEnd => "template-end"
  | levelStart => "_start"
  | levelEnd => "_end"
  | unknown => "_"

def ofName? (s : String) : Option TokenKind :=
  all.find? fun k => k.name == s

theorem ofName?_name (k : TokenKind) : ofName? k.name = some k := by
  cases k <;> decide

theorem name_inj {k k' : TokenKind} (h : k.name = k'.name) : k = k' :=
  Option.some.inj ((ofName?_name k).symm.trans ((congrArg ofName? h).trans (ofName?_name k')))

def isTrivia : TokenKind → Bool
  | whitespace | newline | comment => true
  | _ => false

/-- What a query step passes over on its way to a node: trivia and the start marker.  The end
marker stays visible, since a query can ask for the end of a level. -/
def isMinor (k : TokenKind) : Bool :=
  k.isTrivia || k == levelStart

def isMarker : TokenKind → Bool
  | levelStart | levelEnd => true
  | _ => false

end TokenKind

/-! ### Tokens -/

/-- A piece of source text with its kind and its place. -/
structure Token where
  kind : TokenKind
  value : String
  pos : Position
  /-- How many line feeds the value holds. -/
  lineBreaks : Nat
  deriving DecidableEq, Repr, Inhabited

namespace Token

/-- A token whose line breaks are counted from its value. -/
def make (kind : TokenKind) (value : String) (pos : Position) : Token :=
  { kind, value, pos, lineBreaks := value.toList.count '\n' }

def marker (kind : TokenKind) (pos : Position) : Token :=
  { kind, value := "", pos, lineBreaks := 0 }

/-- The characters after the last line feed, if there is a line feed. -/
def lastLine? (cs : List Char) : Option (List Char) :=
  if '\n' ∈ cs then some (cs.reverse.takeWhile (· ≠ '\n')).reverse else none

/-- The position of the first character after a token.  The line is counted with the token's
own number of line breaks. -/
def endPosition (t : Token) : Position :=
  let cs := t.value.toList
  let offset := t.pos.offset + t.value.utf8ByteSize
  match lastLine? cs with
  | some tail => { offset, line := t.pos.line + t.lineBreaks, col := tail.length + 1 }
  | none => { offset, line := t.pos.line, col := t.pos.col + cs.length }

def markerBefore (t : Token) (kind : TokenKind) : Token := marker kind t.pos

def markerAfter (t : Token) (kind : TokenKind) : Token := marker kind t.endPosition

def isZeroWidth (t : Token) : Bool := t.value.isEmpty

/-- A string value and the one right after it as one token, which keeps the first one's place. -/
def merge (t u : Token) : Token :=
  { t with value := t.value ++ u.value, lineBreaks := t.lineBreaks + u.lineBreaks }

end Token

end Nesting
