import Nesting.Text.Place

/-! # Places that lie ahead

`Place.Ahead p q` says that some text leads from the place `p` to the place `q`.  Everything that
is read from a text goes from one place to a place ahead, and the characters in between are
`Place.textUntil` (`textUntil_eq`). -/

namespace Nesting.Place

theorem skip?_append (cs ds : List Char) (p : Place) :
    p.skip? (cs ++ ds) = (p.skip? cs).bind (skip? ds) := by
  induction cs generalizing p with
  | nil => rfl
  | cons c cs ih =>
      rw [List.cons_append, skip?, skip?]
      split
      · rfl
      · split
        · exact ih _
        · rfl

theorem after_of_skip? {cs : List Char} {p q : Place} (h : p.skip? cs = some q) :
    p.after = cs ++ q.after := by
  induction cs generalizing p with
  | nil =>
      cases h
      rfl
  | cons c cs ih =>
      rw [skip?] at h
      split at h
      · cases h
      · next d ds hp =>
        split at h
        · next hc =>
          have := ih h
          rw [hp, hc, List.cons_append, ← this]
        · cases h

theorem index_of_skip? {cs : List Char} {p q : Place} (h : p.skip? cs = some q) :
    q.index = p.index + cs.length := by
  induction cs generalizing p with
  | nil =>
      cases h
      rfl
  | cons c cs ih =>
      rw [skip?] at h
      split at h
      · cases h
      · split at h
        · rw [ih h, List.length_cons]
          show p.index + 1 + cs.length = p.index + (cs.length + 1)
          omega
        · cases h

theorem textUntil_eq {cs : List Char} {p q : Place} (h : p.skip? cs = some q) :
    p.textUntil q = cs := by
  rw [textUntil, after_of_skip? h, index_of_skip? h, Nat.add_sub_cancel_left]
  exact List.take_left

theorem skip?_of_next? {c : Char} {p q : Place} (h : p.next? = some (c, q)) :
    p.skip? [c] = some q := by
  rw [next?] at h
  split at h
  · cases h
  · next d ds hp =>
    cases h
    simp [skip?, hp]

theorem next?_of_after {c : Char} {cs : List Char} {p : Place} (h : p.after = c :: cs) :
    p.next? = some (c, { index := p.index + 1, before := some c, after := cs }) := by
  rw [next?, h]

/-- A text begins the text at a place exactly if it can be skipped there. -/
theorem prefix_iff_isSome_skip? {cs : List Char} {p : Place} :
    cs <+: p.after ↔ (p.skip? cs).isSome := by
  constructor
  · rintro ⟨ds, hds⟩
    induction cs generalizing p with
    | nil => rfl
    | cons c cs ih =>
        rw [skip?, ← hds, List.cons_append]
        dsimp only
        rw [if_pos rfl]
        exact ih rfl
  · intro h
    obtain ⟨q, hq⟩ := Option.isSome_iff_exists.mp h
    exact ⟨q.after, (after_of_skip? hq).symm⟩

theorem exists_skip?_of_after {cs ds : List Char} {p : Place} (h : p.after = cs ++ ds) :
    ∃ q, p.skip? cs = some q ∧ q.after = ds := by
  obtain ⟨q, hq⟩ := Option.isSome_iff_exists.mp (prefix_iff_isSome_skip?.mp ⟨ds, h.symm⟩)
  exact ⟨q, hq, List.append_cancel_left ((after_of_skip? hq).symm.trans h)⟩

theorem exists_skip?_of_cons {c : Char} {cs : List Char} {p : Place} (h : p.after = c :: cs) :
    ∃ q, p.skip? [c] = some q ∧ q.after = cs :=
  exists_skip?_of_after (h.trans List.singleton_append.symm)

/-! ### The relation -/

/-- Some text leads from one place to another. -/
def Ahead (p q : Place) : Prop := ∃ cs, p.skip? cs = some q

theorem Ahead.refl (p : Place) : p.Ahead p := ⟨[], rfl⟩

theorem Ahead.trans {p q r : Place} : p.Ahead q → q.Ahead r → p.Ahead r := by
  rintro ⟨cs, hp⟩ ⟨ds, hq⟩
  exact ⟨cs ++ ds, by rw [skip?_append, hp]; exact hq⟩

theorem Ahead.of_next? {c : Char} {p q : Place} (h : p.next? = some (c, q)) : p.Ahead q :=
  ⟨[c], skip?_of_next? h⟩

end Nesting.Place
