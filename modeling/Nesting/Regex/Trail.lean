import Nesting.Regex.Basic
import Nesting.Regex.Preference

/-! # Loops whose rounds may be empty

A round that consumes nothing would let a loop run forever, so a search must not pass twice
through a fork of the expression (a choice or a loop) unless it has consumed a character in
between.  An `Arrival` is a place together with the forks passed since the last character.

`Regex.arrivals` follows an expression with this rule.  A fork is named by its way from the root
of the expression (`Way`), and the copies of a counted repetition are different forks. -/

namespace Nesting.Regex

/-- The way from the root of an expression to one of its parts, the last turn first. -/
abbrev Way := List Nat

/-- A place, and the forks passed since the last character. -/
structure Arrival where
  place : Place
  passed : List Way
  deriving Repr

namespace Arrival

instance : At Arrival := ⟨place⟩

/-- Passes a fork, unless it has been passed. -/
def pass? (fork : Way) (a : Arrival) : Option Arrival :=
  if a.passed.contains fork then none else some { a with passed := fork :: a.passed }

end Arrival

/-- The copies of a counted repetition that must be run. -/
def requiredCopy (way : Way) (n : Nat) : Way := 1 :: (n + 2) :: way

/-- The copies of a counted repetition that may be run. -/
def optionalCopy (way : Way) (n : Nat) : Way := 0 :: (n + 2) :: way

/-- The fork in front of a copy that may be run. -/
def copyFork (way : Way) (n : Nat) : Way := (n + 2) :: way

/-- The arrivals behind an expression, by preference.  A loop that may run no round at all and
whose rounds may be empty has a fork in front of it as well. -/
def arrivals : Regex → Way → Arrival → List Arrival
  | text [], _, a => [a]
  | text cs, _, a => (a.place.skip? cs).toList.map fun q => { place := q, passed := [] }
  | one s, _, a =>
    match a.place.next? with
    | some (c, q) => if s.mem c then [{ place := q, passed := [] }] else []
    | none => []
  | anchor c, _, a => if c.holds a.place then [a] else []
  | group _ r, way, a => arrivals r way a
  | seq r s, way, a => distinct ((arrivals r (0 :: way) a).flatMap (arrivals s (1 :: way)))
  | alt r s, way, a =>
    match a.pass? way with
    | none => []
    | some a => distinct (arrivals r (0 :: way) a ++ arrivals s (1 :: way) a)
  | repeated r 0 none greedy, way, a =>
    let body := arrivals r (0 :: way)
    if r.isNullable then
      match a.pass? (1 :: way) with
      | none => []
      | some a =>
        let more := oneOrMore (·.pass? way) body greedy a
        distinct (if greedy then more ++ [a] else a :: more)
    else zeroOrMore (·.pass? way) body greedy a
  | repeated r (least + 1) none greedy, way, a =>
    let start := rounds (fun n => arrivals r (requiredCopy way n)) least [a]
    distinct (start.flatMap (oneOrMore (·.pass? way) (arrivals r (0 :: way)) greedy))
  | repeated r least (some most) greedy, way, a =>
    let start := rounds (fun n => arrivals r (requiredCopy way n)) least [a]
    distinct <| start.flatMap <|
      atMost (fun n a => a.pass? (copyFork way n)) (fun n => arrivals r (optionalCopy way n)) greedy
        (most - least)

/-- The places where a match that starts at `p` can end, by preference, when no fork may be passed
twice at one place. -/
def guardedEnds (r : Regex) (p : Place) : List Place :=
  (r.arrivals [] { place := p, passed := [] }).map (·.place)

end Nesting.Regex
