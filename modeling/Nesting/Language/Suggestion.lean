import Nesting.Language.Basic

/-! # Suggestions for misspelt names

`editDistance a b` is the least number of characters to insert, delete or substitute to turn `a`
into `b`.  It is computed row by row: the row of a beginning of `a` holds the distances from it
to every beginning of `b`. -/

namespace Nesting

/-- The distances after the first one of a row; `left` is the distance just before, and the row
above begins at the beginning of `b` that `left` belongs to. -/
def rowFrom (c : Char) (left : Nat) : List Char → List Nat → List Nat
  | d :: ds, diagonal :: above :: rest =>
    let here := min (min (above + 1) (left + 1)) (diagonal + if c = d then 0 else 1)
    here :: rowFrom c here ds (above :: rest)
  | _, _ => []

/-- The row of a beginning of `a` that is longer by the character `c`. -/
def nextRow (b : List Char) (row : List Nat) (c : Char) : List Nat :=
  let first := row.headD 0 + 1
  first :: rowFrom c first b row

/-- The least number of edits between two texts. -/
def editDistance (a b : List Char) : Nat :=
  (a.foldl (nextRow b) (List.range (b.length + 1))).getLastD 0

def suggestionLimit : Nat := 2

/-- A character in lower case, as far as names in the first alphabet can tell: besides the
capitals of that alphabet, the dotted capital I and the Kelvin sign become small letters of it. -/
def loweredForName (c : Char) : List Char :=
  if c = '\u0130' then ['i', '\u0307']
  else if c = '\u212a' then ['k']
  else [c.toLower]

/-- The first of the pairs whose number is least. -/
def leastBy {α : Type} : List (α × Nat) → Option (α × Nat)
  | [] => none
  | x :: xs =>
    match leastBy xs with
    | some y => some (if y.2 < x.2 then y else x)
    | none => some x

/-- The built-in language with a name nearest to a misspelt one. -/
def LanguageEntry.suggest? (name : String) : Option String :=
  let lowered := name.toList.flatMap loweredForName
  let distances := all.flatMap fun e =>
    e.aliases.map fun a => (e.name, editDistance a.toList lowered)
  (leastBy (distances.filter (·.2 ≤ suggestionLimit))).map (·.1)

end Nesting
