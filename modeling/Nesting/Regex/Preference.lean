import Nesting.Text.Place

/-! # Ends by preference

A search lists the places it can end at, the preferred one first.  The functions here combine
such lists for the parts of an expression: `distinct` keeps the first mention of each place,
`rounds` runs a body a fixed number of times, and `oneOrMore`, `zeroOrMore` and `atMost` run it in
a loop, depth first.

What arrives at a place may carry more than the place (`At`), and a loop asks before each round
whether it may be entered (`cross`). -/

namespace Nesting.Regex

/-- Something that has come to a place. -/
class At (α : Type) where
  place : α → Place

instance : At Place := ⟨id⟩

variable {α : Type} [At α]

def index (a : α) : Nat := (At.place a).index

/-! ### Each place once -/

/-- Adds a number to a falling list; nothing if the list has it. -/
def insertFalling? (n : Nat) : List Nat → Option (List Nat)
  | [] => some [n]
  | m :: ms =>
    if m < n then some (n :: m :: ms)
    else if m = n then none
    else (insertFalling? n ms).map (m :: ·)

/-- Whether each place of a list lies before the one in front of it. -/
def isFalling : List α → Bool
  | a :: b :: l => index b < index a && isFalling (b :: l)
  | _ => true

/-- The first mention of each place; a list that falls mentions none twice. -/
def distinct (l : List α) : List α :=
  if isFalling l then l else go [] l
where
  /-- Keeps a place unless its index has been seen. -/
  go (seen : List Nat) : List α → List α
    | [] => []
    | a :: l =>
      match insertFalling? (index a) seen with
      | none => go seen l
      | some seen => a :: go seen l

/-- The ends of exactly `n` rounds that start at the given places. -/
def rounds (body : Nat → α → List α) : Nat → List α → List α
  | 0, l => l
  | _ + 1, [] => []
  | n + 1, l => rounds body n (distinct (l.flatMap (body n)))

/-! ### Unbounded loops -/

/-- What an unbounded loop has met: the indices that it entered, in falling order, and the ends
that it found, the latest first. -/
structure Loop (α : Type) where
  entered : List Nat := []
  ends : List α := []

/-- Enters a loop at a place, if it may be entered there and has not been: goes on from the place
and stops there; a greedy loop stops last.  The characters ahead bound the rounds. -/
def climb (cross : α → Option α) (body : α → List α) (greedy : Bool) :
    List Char → Loop α → α → Loop α
  | ahead, found, a =>
    match insertFalling? (index a) found.entered, cross a with
    | some entered, some a =>
      match ahead with
      | [] => { entered, ends := a :: found.ends }
      | _ :: ahead =>
        if greedy then
          let found := (body a).foldl (climb cross body greedy ahead) { found with entered }
          { found with ends := a :: found.ends }
        else (body a).foldl (climb cross body greedy ahead) { entered, ends := a :: found.ends }
    | _, _ => found

/-- The ends of any number of rounds. -/
def zeroOrMore (cross : α → Option α) (body : α → List α) (greedy : Bool) (a : α) : List α :=
  (climb cross body greedy (At.place a).after {} a).ends.reverse

def oneOrMore (cross : α → Option α) (body : α → List α) (greedy : Bool) (a : α) : List α :=
  ((body a).foldl (climb cross body greedy (At.place a).after) {}).ends.reverse

/-! ### Bounded loops -/

/-- What a bounded loop has met: the pairs of an index and a number of rounds left that it
entered, and the ends that it found, the latest first. -/
structure BoundedLoop (α : Type) where
  entered : List (Nat × Nat) := []
  ends : List α := []

/-- Stops at a place, unless the loop has stopped there before. -/
def BoundedLoop.stop (found : BoundedLoop α) (a : α) : BoundedLoop α :=
  if found.ends.any fun b => index b == index a then found
  else { found with ends := a :: found.ends }

/-- Goes on from a place for a bounded number of rounds and stops there; a greedy loop stops
last. -/
def climbBounded (cross : Nat → α → Option α) (body : Nat → α → List α) (greedy : Bool) :
    Nat → BoundedLoop α → α → BoundedLoop α
  | 0, found, a => found.stop a
  | left + 1, found, a =>
    if found.entered.contains (index a, left) then found
    else
      match cross left a with
      | none => found
      | some a =>
        let found := { found with entered := (index a, left) :: found.entered }
        if greedy then
          ((body left a).foldl (climbBounded cross body greedy left) found).stop a
        else (body left a).foldl (climbBounded cross body greedy left) (found.stop a)

def atMost (cross : Nat → α → Option α) (body : Nat → α → List α) (greedy : Bool) (most : Nat)
    (a : α) : List α :=
  (climbBounded cross body greedy most {} a).ends.reverse

end Nesting.Regex
