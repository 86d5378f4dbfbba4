import Mathlib.Data.List.DropRight
import Nesting.Token

/-! # Positions, counted

A position that is moved past a text in steps of one character is the position counted over the
whole text: bytes, line feeds, and the characters after the last line feed.  So the end of a
token, which is counted, is its start moved past its value (`Token.endPosition_make`). -/

namespace Nesting

namespace Position

theorem advance_append_singleton (p : Position) (cs : List Char) (c : Char) :
    p.advance (cs ++ [c]) = (p.advance cs).step c := by
  rw [advance_append]
  rfl

@[simp] theorem step_offset (p : Position) (c : Char) :
    (p.step c).offset = p.offset + c.utf8Size := by
  unfold step
  split <;> rfl

theorem advance_offset (p : Position) (cs : List Char) :
    (p.advance cs).offset = p.offset + (String.ofList cs).utf8ByteSize := by
  induction cs using List.reverseRecOn with
  | nil => rfl
  | append_singleton cs c ih =>
      rw [advance_append_singleton, step_offset, ih, String.ofList_append,
        String.utf8ByteSize_append, ← String.singleton_eq_ofList, String.utf8ByteSize_singleton,
        Nat.add_assoc]

theorem advance_line (p : Position) (cs : List Char) :
    (p.advance cs).line = p.line + cs.count '\n' := by
  induction cs using List.reverseRecOn with
  | nil => rfl
  | append_singleton cs c ih =>
      rw [advance_append_singleton, List.count_append, step]
      split
      · next hc =>
        rw [hc, List.count_singleton_self, ← Nat.add_assoc, ih]
      · next hc =>
        rw [List.count_singleton, if_neg (by simpa using hc), Nat.add_zero]
        exact ih

theorem advance_col (p : Position) (cs : List Char) :
    (p.advance cs).col =
      if '\n' ∈ cs then (cs.rtakeWhile (· ≠ '\n')).length + 1 else p.col + cs.length := by
  induction cs using List.reverseRecOn with
  | nil => rfl
  | append_singleton cs c ih =>
      rw [advance_append_singleton, step]
      by_cases hc : c = '\n'
      · rw [if_pos hc, List.rtakeWhile_concat_neg _ _ _ (by simpa using hc), if_pos (by simp [hc])]
        rfl
      · have hmem : '\n' ∈ cs ++ [c] ↔ '\n' ∈ cs := by
          rw [List.mem_append, List.mem_singleton, or_iff_left (Ne.symm hc)]
        rw [if_neg hc, List.rtakeWhile_concat_pos _ _ _ (by simpa using hc)]
        simp only [hmem, List.length_append, List.length_singleton, ih]
        split <;> omega

/-- The position of the end of a text that begins the source. -/
theorem advance_start (cs : List Char) :
    ({} : Position).advance cs =
      { offset := (String.ofList cs).utf8ByteSize
        line := 1 + cs.count '\n'
        col := 1 + (cs.rtakeWhile (· ≠ '\n')).length } := by
  have hoffset := advance_offset {} cs
  have hline := advance_line {} cs
  have hcol := advance_col {} cs
  rw [Nat.zero_add] at hoffset
  have hcol : (({} : Position).advance cs).col =
      1 + (cs.rtakeWhile (· ≠ '\n')).length := by
    rw [hcol]
    split
    · exact Nat.add_comm _ 1
    · next h =>
      have : ∀ c ∈ cs, decide (c ≠ '\n') := fun c hc => decide_eq_true fun he => h (he ▸ hc)
      rw [List.rtakeWhile_eq_self_iff.mpr this]
  rw [← hoffset, ← hcol, ← hline]

end Position

/-- A token ends where its value leads. -/
theorem Token.endPosition_make (kind : TokenKind) (cs : List Char) (pos : Position) :
    (Token.make kind (String.ofList cs) pos).endPosition = pos.advance cs := by
  have hoffset := pos.advance_offset cs
  have hline := pos.advance_line cs
  have hcol := pos.advance_col cs
  unfold endPosition lastLine?
  dsimp only [make]
  rw [String.toList_ofList]
  by_cases h : '\n' ∈ cs
  · rw [if_pos h] at hcol ⊢
    rw [← hoffset, ← hline, ← List.rtakeWhile]
    dsimp only
    rw [← hcol]
  · rw [if_neg h] at hcol ⊢
    rw [List.count_eq_zero_of_not_mem h, Nat.add_zero] at hline
    rw [← hoffset, ← hline, ← hcol]

end Nesting
