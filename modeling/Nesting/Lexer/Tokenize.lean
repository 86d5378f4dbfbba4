import Nesting.Lexer.Table

/-! # Cutting a source into tokens

A `Scan` is a point of a run over a source: the place, its position, and the lexer states that
have been entered and not left, with the root state below them all.  At each point the first rule
of the innermost state that matches makes a token (`RuleTable.step?`), and its transition may
enter a state or leave one; nothing leaves the root.  The text of a reference is cut again by the
rules of its own (`cutParts`), and a zero-width token marks its end.

`RuleTable.tokenize` runs over the whole source.  Every step consumes a character, so the length
of the source bounds the steps. -/

namespace Nesting

/-- A point of a run over a source. -/
structure Scan where
  place : Place
  pos : Position
  /-- The states that have been entered and not left, the innermost first. -/
  entered : List LexState
  deriving Repr

namespace Scan

def start (source : List Char) : Scan := { place := .start source, pos := {}, entered := [] }

/-- The state whose rules make the next token. -/
def state (s : Scan) : LexState := s.entered.headD .root

end Scan

def tokenBetween (kind : TokenKind) (p q : Place) (pos : Position) : Token :=
  .make kind (String.ofList (p.textUntil q)) pos

namespace Rule

variable {α : Type}

/-- The token that the first matching rule makes, where it ends, and the rule.  Text that no rule
accepts is taken character by character. -/
def next? (rules : List (Rule α)) (p : Place) (pos : Position) :
    Option (Token × Place × Option (Rule α)) :=
  match first? rules p with
  | some (r, q) => some (tokenBetween r.kind p q pos, q, some r)
  | none => p.next?.map fun (_, q) => (tokenBetween .unknown p q pos, q, none)

end Rule

def cutParts (rules : List PartRule) : Nat → Place → Position → List Token
  | 0, _, _ => []
  | fuel + 1, p, pos =>
    if p.after.isEmpty then []
    else
      match Rule.next? rules p pos with
      | none => []
      | some (t, q, _) => t :: cutParts rules fuel q t.endPosition

/-- Cuts the text of a token by the rules of a reference, and marks its end. -/
def Token.cut (rules : List PartRule) (t : Token) : List Token :=
  let cs := t.value.toList
  cutParts rules cs.length (.start cs) t.pos ++ [t.markerAfter .templateEnd]

/-- What a matched token becomes: itself, or the pieces of a reference. -/
def Transition.tokens {S : Type} (t : Token) : Transition S → List Token
  | .split parts => t.cut parts
  | _ => [t]

namespace RuleTable

def follow (table : RuleTable) (entered : List LexState) : Transition LexState → List LexState
  | .push state => if table.contains state then state :: entered else entered
  | .pop => entered.tail
  | .stay | .split _ => entered

/-- The tokens of the next rule that matches, and the scan after it. -/
def step? (table : RuleTable) (s : Scan) : Option (List Token × Scan) :=
  if s.place.after.isEmpty then none
  else
    match Rule.next? (table.rulesOf s.state) s.place s.pos with
    | none => none
    | some (t, q, rule) =>
      let moved : Scan := { s with place := q, pos := t.endPosition }
      match rule with
      | none => some ([t], moved)
      | some r =>
        some (r.action.tokens t, { moved with entered := table.follow s.entered r.action })

/-- The tokens from a point on, each with the state after it. -/
def scanFrom (table : RuleTable) : Nat → Scan → List (Token × LexState)
  | 0, _ => []
  | fuel + 1, s =>
    match table.step? s with
    | none => []
    | some (ts, s) => ts.map (·, s.state) ++ scanFrom table fuel s

/-- The tokens of a source, each with the state that the next one is read in. -/
def scan (table : RuleTable) (source : String) : List (Token × LexState) :=
  let cs := source.toList
  table.scanFrom cs.length (.start cs)

def tokenize (table : RuleTable) (source : String) : List Token :=
  (table.scan source).map (·.1)

end RuleTable

end Nesting
