import Nesting.Regex.Trail

/-! # Matching

`Regex.ends r p` lists the places where a match of `r` that starts at `p` can end, the preferred
one first and no place twice.  Sequence runs the second part from every end of the first part,
choice appends the two lists, and a repetition explores its rounds depth first.

`Regex.firstEnd?` is the end of the preferred match, and `Regex.occursIn` asks for a match
anywhere in a text. -/

namespace Nesting.Regex

/-- The places where a match that starts at `p` can end, by preference. -/
def ends : Regex → Place → List Place
  | text cs, p => (p.skip? cs).toList
  | one s, p =>
    match p.next? with
    | some (c, q) => if s.mem c then [q] else []
    | none => []
  | anchor a, p => if a.holds p then [p] else []
  | group _ r, p => ends r p
  | seq r s, p => distinct ((ends r p).flatMap (ends s))
  | alt r s, p => distinct (ends r p ++ ends s p)
  | repeated r least none greedy, p =>
    if r.isNullable then guardedEnds (.repeated r least none greedy) p
    else
      match least with
      | 0 => zeroOrMore some (ends r) greedy p
      | least + 1 =>
        distinct ((rounds (fun _ => ends r) least [p]).flatMap (oneOrMore some (ends r) greedy))
  | repeated r least (some most) greedy, p =>
    distinct <| (rounds (fun _ => ends r) least [p]).flatMap <|
      atMost (fun _ => some) (fun _ => ends r) greedy (most - least)

/-- The end of the preferred match that starts at a place. -/
def firstEnd? (r : Regex) (p : Place) : Option Place := (r.ends p).head?

/-- Whether a match starts anywhere in a text. -/
def occursIn (r : Regex) (text : List Char) : Bool :=
  (Place.start text).onward.any fun p => !(r.ends p).isEmpty

end Nesting.Regex
