import Nesting.Text.CharClass

/-! # Sets of characters

A `CharSet` is a list of ranges of code points.  Ranges stand in rising order and do not touch,
so a set has one list only and two sets with the same members are equal, however they were made.
`CharSet.withRange` keeps the list in that form (`areSeparate_withRange`) and adds the members of
its range and no others (`inRanges_withRange`); all other operations are built from it and from
the complement. -/

namespace Nesting

/-- A set of characters, as ranges of code points with both ends included. -/
structure CharSet where
  ranges : List (Nat × Nat)
  deriving DecidableEq, Repr, Inhabited

namespace CharSet

def mem (s : CharSet) (c : Char) : Bool := CharClass.inRanges s.ranges c.toNat

def lastCode : Nat := 0x10ffff

def empty : CharSet := ⟨[]⟩

def any : CharSet := ⟨[(0, lastCode)]⟩

/-- The characters between two, both included. -/
def range (low high : Char) : CharSet := ⟨[(low.toNat, high.toNat)]⟩

def single (c : Char) : CharSet := range c c

def digit : CharSet := ⟨CharTable.digits⟩

def space : CharSet := ⟨CharTable.spaces⟩

def word : CharSet := ⟨CharTable.words⟩

/-- The only member of a set, if there is just one. -/
def single? (s : CharSet) : Option Char :=
  match s.ranges with
  | [(low, high)] => if low = high then some (Char.ofNat low) else none
  | _ => none

/-! ### Operations -/

/-- Adds a range; ranges that overlap or touch become one. -/
def withRange (low high : Nat) : List (Nat × Nat) → List (Nat × Nat)
  | [] => [(low, high)]
  | (a, b) :: rest =>
    if high + 1 < a then (low, high) :: (a, b) :: rest
    else if b + 1 < low then (a, b) :: withRange low high rest
    else withRange (min low a) (max high b) rest

def union (s t : CharSet) : CharSet :=
  ⟨t.ranges.foldl (fun ranges r => withRange r.1 r.2 ranges) s.ranges⟩

def unions (sets : List CharSet) : CharSet := sets.foldl union empty

/-- The gaps between ranges, from a code point on. -/
def gapsFrom (n : Nat) : List (Nat × Nat) → List (Nat × Nat)
  | [] => if n ≤ lastCode then [(n, lastCode)] else []
  | (low, high) :: rest =>
    if n < low then (n, low - 1) :: gapsFrom (high + 1) rest else gapsFrom (high + 1) rest

def compl (s : CharSet) : CharSet := ⟨gapsFrom 0 s.ranges⟩

def inter (s t : CharSet) : CharSet := (s.compl.union t.compl).compl

def diff (s t : CharSet) : CharSet := s.inter t.compl

def symmDiff (s t : CharSet) : CharSet := (s.diff t).union (t.diff s)

/-! ### Case -/

/-- The code points of the pairs of a run `(first, last, step, distance)`. -/
def casePairsOfRun : Nat × Nat × Nat × Nat → List (Nat × Nat)
  | (first, last, step, distance) =>
    (List.range ((last - first) / step + 1)).map fun i =>
      (first + i * step, first + i * step + distance)

/-- The code points that differ from a member of a set in case alone. -/
def caseVariants (s : CharSet) : List Nat :=
  let has := CharClass.inRanges s.ranges
  let paired := (CharTable.casePairs.flatMap casePairsOfRun).flatMap fun (a, b) =>
    (if has a then [b] else []) ++ if has b then [a] else []
  paired ++ (CharTable.caseOrbits.filter (·.any has)).flatten

/-- A set and the characters that differ from a member in case alone. -/
def anyCase (s : CharSet) : CharSet :=
  ⟨s.caseVariants.foldl (fun ranges n => withRange n n ranges) s.ranges⟩

/-! ### The form of a set -/

/-- Ranges in rising order with gaps between them, all above a bound. -/
def AreSeparate : Nat → List (Nat × Nat) → Prop
  | _, [] => True
  | bound, (low, high) :: rest => bound ≤ low ∧ low ≤ high ∧ AreSeparate (high + 2) rest

theorem AreSeparate.weaken {m n : Nat} (h : m ≤ n) :
    ∀ {rs : List (Nat × Nat)}, AreSeparate n rs → AreSeparate m rs
  | [], _ => trivial
  | (_, _) :: _, ⟨h₁, h₂⟩ => ⟨Nat.le_trans h h₁, h₂⟩

theorem inRanges_of_lt {bound n : Nat} (hn : n < bound) :
    ∀ {rs : List (Nat × Nat)}, AreSeparate bound rs → CharClass.inRanges rs n = false
  | [], _ => rfl
  | (low, _) :: _, ⟨h, _⟩ => by simp [CharClass.inRanges, show n < low by omega]

theorem areSeparate_withRange {bound low high : Nat} {rs : List (Nat × Nat)} (hb : bound ≤ low)
    (hl : low ≤ high) (h : AreSeparate bound rs) : AreSeparate bound (withRange low high rs) := by
  fun_induction withRange low high rs generalizing bound with
  | case1 => exact ⟨hb, hl, trivial⟩
  | case2 low high a b rest hlt =>
    exact ⟨hb, hl, by omega, h.2.1, h.2.2⟩
  | case3 low high a b rest h₁ h₂ ih => exact ⟨h.1, h.2.1, ih (by omega) hl h.2.2⟩
  | case4 low high a b rest h₁ h₂ ih =>
    obtain ⟨ha, hab, hrest⟩ := h
    exact ih (by omega) (by omega) (hrest.weaken (by omega))

theorem inRanges_withRange {bound low high : Nat} {rs : List (Nat × Nat)} (hl : low ≤ high)
    (h : AreSeparate bound rs) (n : Nat) :
    CharClass.inRanges (withRange low high rs) n =
      (decide (low ≤ n ∧ n ≤ high) || CharClass.inRanges rs n) := by
  fun_induction withRange low high rs generalizing bound with
  | case1 => grind [CharClass.inRanges]
  | case2 low high a b rest hlt => grind [CharClass.inRanges]
  | case3 low high a b rest h₁ h₂ ih =>
    obtain ⟨ha, hab, hrest⟩ := h
    have := ih hl hrest
    have := fun hn : n < b + 2 => inRanges_of_lt hn hrest
    grind [CharClass.inRanges]
  | case4 low high a b rest h₁ h₂ ih =>
    obtain ⟨ha, hab, hrest⟩ := h
    have := ih (by omega) hrest
    have := fun hn : n < b + 2 => inRanges_of_lt hn hrest
    grind [CharClass.inRanges]

end CharSet

end Nesting
