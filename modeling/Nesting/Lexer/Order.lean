import Nesting.Lexer.Rule

/-! # The order of rules

The first rule that matches wins, so the order of the rules of a state settles every ambiguity.
Rules have a rank: numbers come first, so that a number that begins with a point is a number;
then all rules that begin with a fixed text, their chunk; then plain patterns; then fallbacks.
Among chunks, a text comes before its own beginnings, and unrelated texts fall.

`Rule.sort` is a stable insertion sort by this order. -/

namespace Nesting

/-- Compares two chunks: a text that goes on comes before the one that stops; others fall. -/
def compareChunks (x y : String) : Ordering :=
  if x = y then .eq
  else if x.toList.isPrefixOf y.toList then .gt
  else if y.toList.isPrefixOf x.toList then .lt
  else compare y x

namespace Rule

variable {α : Type}

/-- The rank of a rule; a lower one is tried first. -/
def rank (r : Rule α) : Nat :=
  if r.kind = .number then 0
  else if r.chunk.isSome then 1
  else
    match r.recognizer with
    | .fallback => 3
    | _ => 2

/-- Compares two rules by rank, then by chunk where both have one. -/
def order (r s : Rule α) : Ordering :=
  (compare r.rank s.rank).then
    (match r.chunk, s.chunk with
     | some x, some y => compareChunks x y
     | _, _ => .eq)

/-- Puts a rule into a list in falling order, before the rules that are not above it. -/
def insertFalling (r : Rule α) : List (Rule α) → List (Rule α)
  | [] => [r]
  | s :: rest => if r.order s = .lt then s :: insertFalling r rest else r :: s :: rest

/-- The rules in the order in which they are tried.  Rules that compare equal keep their order. -/
def sort (rules : List (Rule α)) : List (Rule α) :=
  (rules.foldl (fun sorted r => insertFalling r sorted) []).reverse

/-- No chunk is followed by a longer one that begins with it. -/
def isPrefixOrdered : List (Rule α) → Bool
  | [] => true
  | r :: rest =>
    (match r.chunk with
     | none => true
     | some short => rest.all fun s =>
        match s.chunk with
        | none => true
        | some long => long = short || !short.toList.isPrefixOf long.toList) &&
    isPrefixOrdered rest

end Rule

end Nesting
