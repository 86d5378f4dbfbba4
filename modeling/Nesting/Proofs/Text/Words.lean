import Mathlib.Data.List.Basic

/-! # Words of a line

A printed line is read from the left: its blanks, its first word, then what stands behind it. -/

namespace Nesting

/-- Two texts with separators that the part before does not hold are cut at the same place. -/
theorem append_cons_inj {α : Type} {a b : α} {as bs rest rest' : List α} (ha : b ∉ as)
    (hb : a ∉ bs) (h : as ++ a :: rest = bs ++ b :: rest') : as = bs ∧ rest = rest' := by
  induction as generalizing bs with
  | nil =>
      cases bs with
      | nil => exact ⟨rfl, (List.cons.inj h).2⟩
      | cons c bs => exact absurd ((List.cons.inj h).1 ▸ List.mem_cons_self) hb
  | cons c as ih =>
      cases bs with
      | nil => exact absurd ((List.cons.inj h).1 ▸ List.mem_cons_self) ha
      | cons d bs =>
          obtain ⟨rfl, htail⟩ := List.cons.inj h
          obtain ⟨rfl, hrest⟩ := ih (fun h => ha (List.mem_cons_of_mem _ h))
            (fun h => hb (List.mem_cons_of_mem _ h)) htail
          exact ⟨rfl, hrest⟩

theorem replicate_append_inj {α : Type} {a : α} {k l : ℕ} {as bs : List α}
    (ha : as.head? ≠ some a) (hb : bs.head? ≠ some a)
    (h : List.replicate k a ++ as = List.replicate l a ++ bs) : k = l ∧ as = bs := by
  induction k generalizing l with
  | zero =>
      cases l with
      | zero => exact ⟨rfl, h⟩
      | succ l =>
          rw [List.replicate_zero, List.nil_append] at h
          exact absurd (congrArg List.head? h) ha
  | succ k ih =>
      cases l with
      | zero =>
          rw [List.replicate_zero, List.nil_append] at h
          exact absurd (congrArg List.head? h.symm) hb
      | succ l =>
          obtain ⟨rfl, has⟩ := ih (List.cons.inj h).2
          exact ⟨rfl, has⟩

theorem not_mem_toString_nat {c : Char} (hc : c.isDigit = false) (n : ℕ) :
    c ∉ (toString n).toList := by
  intro h
  rw [Nat.toString_eq_ofList_toDigits, String.toList_ofList] at h
  exact absurd (Nat.isDigit_of_mem_toDigits (by decide) (by decide) h) (by simp [hc])

theorem toString_nat_inj {m n : ℕ} (h : toString m = toString n) : m = n := by
  have hread := congrArg (fun s : String => Nat.ofDigitChars 10 s.toList 0) h
  simpa [Nat.toString_eq_ofList_toDigits] using hread

/-- Nothing, or something behind a blank. -/
def IsTail (s : String) : Prop := s = "" ∨ ∃ t, s = " " ++ t

theorem IsTail.append {s t : String} (hs : IsTail s) (ht : IsTail t) : IsTail (s ++ t) := by
  rcases hs with rfl | ⟨s, rfl⟩
  · rwa [String.empty_append]
  · exact .inr ⟨s ++ t, by rw [String.append_assoc]⟩

/-- The first word of a text can be told from what follows it. -/
theorem append_tail_inj {name name' tail tail' : String} (hname : ' ' ∉ name.toList)
    (hname' : ' ' ∉ name'.toList) (htail : IsTail tail) (htail' : IsTail tail')
    (h : name ++ tail = name' ++ tail') : name = name' ∧ tail = tail' := by
  have behind {s : String} (hs : IsTail s) : ∃ rest, s.toList ++ [' '] = ' ' :: rest := by
    rcases hs with rfl | ⟨t, rfl⟩
    · exact ⟨[], rfl⟩
    · exact ⟨t.toList ++ [' '], by simp⟩
  obtain ⟨rest, hrest⟩ := behind htail
  obtain ⟨rest', hrest'⟩ := behind htail'
  have hlist := congrArg (fun s => s.toList ++ [' ']) h
  simp only [String.toList_append, List.append_assoc, hrest, hrest'] at hlist
  obtain rfl := String.toList_inj.mp (append_cons_inj hname hname' hlist).1
  exact ⟨rfl, by simpa using h⟩

end Nesting
