import Nesting.Text.CharSet
import Nesting.Text.Place

/-! # Regular expressions

A `Regex` is built from sets of characters and conditions on a place by sequence, choice and
repetition.  Choice is ordered and repetition is greedy or lazy: both say which of several
matches is preferred, and the meaning of an expression (`Regex.ends`) lists the ends of its
matches by preference. -/

namespace Nesting

/-! ### Conditions on a place -/

/-- A condition on the characters next to a place. -/
inductive Anchor
  | textStart
  | textEnd
  /-- After a line feed or at the start of the text. -/
  | lineStart
  /-- Before a line feed or at the end of the text. -/
  | lineEnd
  /-- As `lineStart`, but carriage returns end lines too and the two together are one end. -/
  | lineStartAnyEnding
  /-- As `lineEnd`, but carriage returns end lines too and the two together are one end. -/
  | lineEndAnyEnding
  /-- Word characters on exactly one side. -/
  | wordEdge (letters : CharSet)
  /-- Word characters on both sides or on neither. -/
  | notWordEdge (letters : CharSet)
  /-- A word begins here. -/
  | wordStart (letters : CharSet)
  /-- A word ends here. -/
  | wordEnd (letters : CharSet)
  /-- No word character right before. -/
  | notAfterWord (letters : CharSet)
  /-- No word character right after. -/
  | notBeforeWord (letters : CharSet)
  deriving DecidableEq, Repr, Inhabited

def Anchor.holds (a : Anchor) (p : Place) : Bool :=
  let before? (s : CharSet) := p.before.any s.mem
  let after? (s : CharSet) := p.after.head?.any s.mem
  match a with
  | textStart => p.before.isNone
  | textEnd => p.after.isEmpty
  | lineStart => p.before.all (· == '\n')
  | lineEnd => p.after.head?.all (· == '\n')
  | lineStartAnyEnding =>
    p.before.all (· == '\n') || (p.before == some '\r' && p.after.head? != some '\n')
  | lineEndAnyEnding =>
    p.after.head?.all (· == '\r') || (p.after.head? == some '\n' && p.before != some '\r')
  | wordEdge s => before? s != after? s
  | notWordEdge s => before? s == after? s
  | wordStart s => !before? s && after? s
  | wordEnd s => before? s && !after? s
  | notAfterWord s => !before? s
  | notBeforeWord s => !after? s

/-! ### Expressions -/

inductive Regex
  /-- A text, which may be empty. -/
  | text (cs : List Char)
  /-- One character of a set. -/
  | one (s : CharSet)
  /-- The empty text, where a condition holds. -/
  | anchor (a : Anchor)
  /-- A numbered group. -/
  | group (number : Nat) (r : Regex)
  | seq (r s : Regex)
  /-- The first expression is preferred. -/
  | alt (r s : Regex)
  /-- Between `least` and `most` times; a greedy one prefers more. -/
  | repeated (r : Regex) (least : Nat) (most : Option Nat) (greedy : Bool)
  deriving DecidableEq, Repr, Inhabited

namespace Regex

def isNullable : Regex → Bool
  | text cs => cs.isEmpty
  | one _ => false
  | anchor _ => true
  | group _ r => isNullable r
  | seq r s => isNullable r && isNullable s
  | alt r s => isNullable r || isNullable s
  | repeated r least _ _ => least == 0 || isNullable r

def consumes : Regex → Bool
  | text cs => !cs.isEmpty
  | one _ => true
  | anchor _ => false
  | group _ r => consumes r
  | seq r s => consumes r || consumes s
  | alt r s => consumes r || consumes s
  | repeated r _ most _ => most != some 0 && consumes r

/-- One character of a set; a set of one character is a text. -/
def ofSet (s : CharSet) : Regex :=
  match s.single? with
  | some c => .text [c]
  | none => .one s

def ofText (s : String) : Regex := .text s.toList

/-! ### Repetition -/

/-- A repetition.  What consumes nothing need not be repeated, no round is the empty text, and a
single round is the expression itself. -/
def times (r : Regex) (least : Nat) (most : Option Nat) (greedy : Bool) : Regex :=
  let least := if r.consumes then least else min least 1
  let most := if r.consumes then most else some (min 1 (most.getD 1))
  match least, most with
  | 0, some 0 => .text []
  | 1, some 1 => r
  | least, most => .repeated r least most greedy

/-- Any number of times, as often as possible. -/
def star (r : Regex) : Regex := .repeated r 0 none true

/-- Any number of times, as seldom as possible. -/
def lazyStar (r : Regex) : Regex := .repeated r 0 none false

def plus (r : Regex) : Regex := .repeated r 1 none true

def opt (r : Regex) : Regex := .repeated r 0 (some 1) true

/-! ### Sequence -/

def parts : Regex → List Regex
  | seq r s => parts r ++ parts s
  | text [] => []
  | r => [r]

/-- Joins texts that stand side by side. -/
def joinTexts : List Regex → List Regex
  | [] => []
  | .text cs :: rest =>
    match joinTexts rest with
    | .text ds :: more => .text (cs ++ ds) :: more
    | more => .text cs :: more
  | r :: rest => r :: joinTexts rest

def ofParts : List Regex → Regex
  | [] => .text []
  | [r] => r
  | r :: rs => .seq r (ofParts rs)

def seqs (rs : List Regex) : Regex := ofParts (joinTexts (rs.flatMap parts))

/-! ### Choice -/

def branches : Regex → List Regex
  | alt r s => branches r ++ branches s
  | r => [r]

/-- The first of several expressions that matches. -/
def alts : List Regex → Regex
  | [] => .one .empty
  | [r] => r
  | r :: rs => .alt r (alts rs)

/-- The set of a choice between characters, or between sets. -/
def setOfBranches? (rs : List Regex) : Option CharSet :=
  let character? : Regex → Option CharSet
    | .text [c] => some (.single c)
    | _ => none
  let set? : Regex → Option CharSet
    | .one s => some s
    | _ => none
  (rs.mapM character? <|> rs.mapM set?).map .unions

/-- A choice between several branches; a choice between single characters is a set. -/
def ofBranches (rs : List Regex) : Regex :=
  match setOfBranches? rs with
  | some s => ofSet s
  | none => alts rs

/-- The parts that two sequences begin with. -/
def sharedParts : List Regex → List Regex → List Regex
  | r :: rs, s :: ss => if r = s then r :: sharedParts rs ss else []
  | _, _ => []

/-- The parts that all of several sequences begin with. -/
def sharedByAll : List (List Regex) → List Regex
  | [] => []
  | ps :: rest => rest.foldl sharedParts ps

/-- A choice between several expressions.  Parts that all branches begin with stand in front of
the choice, so that their own preference comes before that of the branches. -/
def choice (rs : List Regex) : Regex :=
  let rs := rs.flatMap branches
  match rs with
  | [r] => r
  | _ =>
    let sequences := rs.map parts
    let shared := if sequences.any (·.length < 2) then [] else sharedByAll sequences
    if shared.isEmpty then ofBranches rs
    else
      let rests := sequences.map fun ps => ofParts (ps.drop shared.length)
      seqs (shared ++ [ofBranches (rests.flatMap branches)])

end Regex

end Nesting
