import Nesting.Grammar
import Nesting.Regex.Match
import Nesting.Regex.Parser
import Nesting.Text.Quoted
import Nesting.Token

/-! # Lexical rules

A `Rule` recognises one kind of token: by a literal text, by a regular expression, or, as a
fallback, by taking any one character.  What happens after a rule has matched is its action,
whose type is a parameter: the rules of a language move between lexer states (`Transition`), the
rules that cut up a reference have no action at all.

`Rule.end?` is where a match ends.  An expression that matches the empty text does not match. -/

namespace Nesting

/-- How a rule recognises text. -/
inductive Recognizer
  | literal (text : String)
  | pattern (regex : Regex)
  /-- Any one character. -/
  | fallback
  deriving DecidableEq, Repr, Inhabited

/-- A rule with an action of type `α`. -/
structure Rule (α : Type) where
  name : String
  kind : TokenKind
  recognizer : Recognizer
  /-- A text that every match begins with; it places the rule among the literals. -/
  chunk : Option String := none
  action : α
  deriving Repr

/-- A rule that only cuts text. -/
abbrev PartRule := Rule Unit

/-- What happens to the lexer's states once a rule has matched. -/
inductive Transition (S : Type)
  | stay
  | push (state : S)
  | pop
  /-- Stays, and cuts the matched text by rules of its own. -/
  | split (parts : List PartRule)
  deriving Repr

namespace Rule

variable {α : Type}

/-! ### Making rules -/

def literal (name : String) (kind : TokenKind) (text : String) (action : α) : Rule α :=
  { name, kind, recognizer := .literal text, chunk := some text, action }

def pattern (name : String) (kind : TokenKind) (regex : Regex) (action : α) : Rule α :=
  { name, kind, recognizer := .pattern regex, action }

/-- A rule for any one character. -/
def fallback (name : String) (kind : TokenKind) (action : α) : Rule α :=
  { name, kind, recognizer := .fallback, action }

/-- The same rule, placed among the literals. -/
def withChunk (r : Rule α) (chunk : String) : Rule α := { r with chunk := some chunk }

def isLiteral (r : Rule α) : Bool :=
  match r.recognizer with
  | .literal _ => true
  | _ => false

def literalText? (r : Rule α) : Option String :=
  match r.recognizer with
  | .literal text => some text
  | _ => none

/-! ### Matching -/

/-- Where a match that starts at a place ends. -/
def end? (r : Rule α) (p : Place) : Option Place :=
  match r.recognizer with
  | .literal text => p.skip? text.toList
  | .pattern regex =>
    match regex.firstEnd? p with
    | some q => if p.index < q.index then some q else none
    | none => none
  | .fallback => p.next?.map (·.2)

/-- The first rule of a list that matches, and where its match ends. -/
def first? (rules : List (Rule α)) (p : Place) : Option (Rule α × Place) :=
  rules.findSome? fun r => (r.end? p).map (r, ·)

/-- The number of bytes of a match. -/
def matchLength? (r : Rule α) (p : Place) : Option Nat :=
  (r.end? p).map fun q => Place.byteSize (p.textUntil q)

/-! ### Describing rules -/

/-- How a rule recognises text, for a reader. -/
def recognizerText (r : Rule α) : String :=
  match r.recognizer, r.chunk with
  | .literal text, _ => Quoting.full.quote text
  | .pattern _, some chunk => "/" ++ Quoting.full.quote chunk ++ ".../"
  | .pattern _, none => "/.../"
  | .fallback, _ => "*"

/-- A rule on one line: name, kind, and how it recognises text. -/
def describe (r : Rule α) : String := r.name ++ " " ++ r.kind.name ++ " " ++ r.recognizerText

end Rule

def Transition.describe {S : Type} (stateName : S → String) : Transition S → String
  | stay => ""
  | push state => " -> " ++ stateName state
  | pop => " <-"
  | split _ => " (sub-lexer)"

end Nesting
