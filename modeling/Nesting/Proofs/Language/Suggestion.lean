import Mathlib.Data.List.Forall2
import Mathlib.Order.Bounds.Basic
import Nesting.Language.Suggestion

/-! # Suggestions are the nearest names

`TextEdits n a b` says that `n` edits of single characters, anywhere in the text, turn `a` into `b`.
`isLeast_editDistance` is that `editDistance` is the least such number.

TextEdits may come in any order and undo one another, so they are first put into one pass over both
texts, a `Script`; scripts compose (`Script.trans`), and the last step of a script is one of the
three that the table looks at (`Script.cases_concat`).  A row of the table is then a row of least
numbers (`Row`), one row giving the next (`Row.next`).

Names are compared in lower case.  As all names of the built-in languages are plain, other letters
count as letters that differ from all of theirs, whatever their lower case is (`Lowered`). -/

namespace Nesting

/-! ### TextEdits -/

/-- One character inserted, deleted, or put in the place of another one. -/
inductive TextEdit : List Char → List Char → Prop
  | insert (u : List Char) (d : Char) (v : List Char) : TextEdit (u ++ v) (u ++ d :: v)
  | delete (u : List Char) (c : Char) (v : List Char) : TextEdit (u ++ c :: v) (u ++ v)
  | substitute (u : List Char) (c d : Char) (v : List Char) : TextEdit (u ++ c :: v) (u ++ d :: v)

/-- So many edits turn the first text into the second one. -/
inductive TextEdits : Nat → List Char → List Char → Prop
  | refl (a : List Char) : TextEdits 0 a a
  | step {n : Nat} {a b c : List Char} : TextEdit a b → TextEdits n b c → TextEdits (n + 1) a c

theorem TextEdit.cons {a b : List Char} (h : TextEdit a b) (c : Char) :
    TextEdit (c :: a) (c :: b) := by
  cases h with
  | insert u d v => exact .insert (c :: u) d v
  | delete u d v => exact .delete (c :: u) d v
  | substitute u d e v => exact .substitute (c :: u) d e v

theorem TextEdits.cons {n : Nat} {a b : List Char} (h : TextEdits n a b) (c : Char) :
    TextEdits n (c :: a) (c :: b) := by
  induction h with
  | refl a => exact .refl _
  | step h _ ih => exact .step (h.cons c) ih

/-! ### Scripts -/

/-- What it costs to have one character where the other stood. -/
def replaceCost (c d : Char) : Nat := if c = d then 0 else 1

/-- One pass over both texts that turns the first into the second with so many edits. -/
inductive Script : Nat → List Char → List Char → Prop
  | nil : Script 0 [] []
  | replace {n : Nat} {a b : List Char} (c d : Char) :
      Script n a b → Script (n + replaceCost c d) (c :: a) (d :: b)
  | delete {n : Nat} {a b : List Char} (c : Char) : Script n a b → Script (n + 1) (c :: a) b
  | insert {n : Nat} {a b : List Char} (d : Char) : Script n a b → Script (n + 1) a (d :: b)

namespace Script

variable {n m : Nat} {a b c : List Char}

theorem keep (h : Script n a b) (c : Char) : Script n (c :: a) (c :: b) := by
  have := h.replace c c
  rwa [replaceCost, if_pos rfl, Nat.add_zero] at this

theorem refl (a : List Char) : Script 0 a a := by
  induction a with
  | nil => exact .nil
  | cons c a ih => exact ih.keep c

theorem insertAll (h : Script n a b) (w : List Char) : Script (n + w.length) a (w ++ b) := by
  induction w with
  | nil => exact h
  | cons d w ih => exact ih.insert d

theorem append_left (u : List Char) (h : Script n a b) : Script n (u ++ a) (u ++ b) := by
  induction u with
  | nil => exact h
  | cons c u ih => exact ih.keep c

theorem edits (h : Script n a b) : TextEdits n a b := by
  induction h with
  | nil => exact .refl _
  | @replace n a b c d h ih =>
    by_cases heq : c = d
    · rw [replaceCost, if_pos heq, heq]
      exact ih.cons d
    · rw [replaceCost, if_neg heq]
      exact .step (.substitute [] c d a) (ih.cons d)
  | @delete n a b c h ih => exact .step (.delete [] c a) ih
  | @insert n a b d h ih => exact .step (.insert [] d a) (ih.cons d)

/-- What becomes of the first character: after some insertions it is deleted or replaced. -/
theorem cases_cons {x : Char} (h : Script m (x :: b) c) :
    ∃ w k d, c = w ++ d ∧
      (Script k b d ∧ m = k + 1 + w.length ∨
        ∃ z e, d = z :: e ∧ Script k b e ∧ m = k + replaceCost x z + w.length) := by
  generalize hl : x :: b = l at h
  induction h with
  | nil => cases hl
  | replace y z h _ =>
    cases hl
    exact ⟨[], _, _, rfl, .inr ⟨z, _, rfl, h, rfl⟩⟩
  | delete y h _ =>
    cases hl
    exact ⟨[], _, _, rfl, .inl ⟨h, rfl⟩⟩
  | insert z h ih =>
    obtain ⟨w, k, d, rfl, hd⟩ := ih hl
    refine ⟨z :: w, k, d, rfl, ?_⟩
    rcases hd with ⟨hd, rfl⟩ | ⟨y, e, rfl, hd, rfl⟩
    · exact .inl ⟨hd, rfl⟩
    · exact .inr ⟨y, e, rfl, hd, rfl⟩

theorem replaceCost_triangle (x y z : Char) :
    replaceCost x z ≤ replaceCost x y + replaceCost y z := by
  unfold replaceCost
  split
  · omega
  · next h =>
    by_cases hxy : x = y
    · rw [if_neg fun hyz => h (hxy.trans hyz)]
      omega
    · rw [if_neg hxy]
      omega

theorem trans (h : Script n a b) (h' : Script m b c) : ∃ k ≤ n + m, Script k a c := by
  induction h generalizing m c with
  | nil => exact ⟨m, by omega, h'⟩
  | delete x _ ih =>
    obtain ⟨k, hk, hs⟩ := ih h'
    exact ⟨k + 1, by omega, hs.delete x⟩
  | replace x y _ ih =>
    obtain ⟨w, l, d, rfl, hd⟩ := h'.cases_cons
    rcases hd with ⟨hd, rfl⟩ | ⟨z, e, rfl, hd, rfl⟩
    · obtain ⟨k, hk, hs⟩ := ih hd
      exact ⟨_, by omega, (hs.delete x).insertAll w⟩
    · obtain ⟨k, hk, hs⟩ := ih hd
      have := replaceCost_triangle x y z
      exact ⟨_, by omega, (hs.replace x z).insertAll w⟩
  | insert y _ ih =>
    obtain ⟨w, l, d, rfl, hd⟩ := h'.cases_cons
    rcases hd with ⟨hd, rfl⟩ | ⟨z, e, rfl, hd, rfl⟩
    · obtain ⟨k, hk, hs⟩ := ih hd
      exact ⟨_, by omega, hs.insertAll w⟩
    · obtain ⟨k, hk, hs⟩ := ih hd
      exact ⟨_, by omega, (hs.insert z).insertAll w⟩

end Script

theorem TextEdit.exists_script {a b : List Char} (h : TextEdit a b) : ∃ k ≤ 1, Script k a b := by
  cases h with
  | insert u d v => exact ⟨1, Nat.le_refl _, ((Script.refl v).insert d).append_left u⟩
  | delete u c v => exact ⟨1, Nat.le_refl _, ((Script.refl v).delete c).append_left u⟩
  | substitute u c d v =>
    refine ⟨_, ?_, ((Script.refl v).replace c d).append_left u⟩
    unfold replaceCost
    split <;> omega

theorem TextEdits.exists_script {n : Nat} {a b : List Char} (h : TextEdits n a b) :
    ∃ k ≤ n, Script k a b := by
  induction h with
  | refl a => exact ⟨0, Nat.le_refl _, Script.refl a⟩
  | step h _ ih =>
    obtain ⟨k, hk, hs⟩ := ih
    obtain ⟨l, hl, hs'⟩ := h.exists_script
    obtain ⟨m, hm, hs''⟩ := hs'.trans hs
    exact ⟨m, by omega, hs''⟩

/-! ### The last step of a script -/

namespace Script

variable {n : Nat} {a b : List Char}

theorem concat (h : Script n a b) (c d : Char) :
    Script (n + replaceCost c d) (a ++ [c]) (b ++ [d]) ∧ Script (n + 1) (a ++ [c]) b ∧
      Script (n + 1) a (b ++ [d]) := by
  induction h with
  | nil => exact ⟨Script.nil.replace c d, Script.nil.delete c, Script.nil.insert d⟩
  | @replace n a b x y _ ih =>
    refine ⟨?_, ?_, ?_⟩
    · exact Nat.add_right_comm n _ _ ▸ ih.1.replace x y
    · exact Nat.add_right_comm n _ _ ▸ ih.2.1.replace x y
    · exact Nat.add_right_comm n _ _ ▸ ih.2.2.replace x y
  | @delete n a b x _ ih =>
    exact ⟨Nat.add_right_comm n _ _ ▸ ih.1.delete x, ih.2.1.delete x, ih.2.2.delete x⟩
  | @insert n a b y _ ih =>
    exact ⟨Nat.add_right_comm n _ _ ▸ ih.1.insert y, ih.2.1.insert y, ih.2.2.insert y⟩

theorem reverse (h : Script n a b) : Script n a.reverse b.reverse := by
  induction h with
  | nil => exact .nil
  | replace c d _ ih =>
    rw [List.reverse_cons, List.reverse_cons]
    exact (ih.concat c d).1
  | delete c _ ih =>
    rw [List.reverse_cons]
    exact (ih.concat c c).2.1
  | insert d _ ih =>
    rw [List.reverse_cons]
    exact (ih.concat d d).2.2

theorem reverse_iff : Script n a.reverse b.reverse ↔ Script n a b := by
  refine ⟨fun h => ?_, reverse⟩
  have := h.reverse
  rwa [List.reverse_reverse, List.reverse_reverse] at this

/-- The last step of a script between texts that are not empty. -/
theorem cases_concat {c d : Char} (h : Script n (a ++ [c]) (b ++ [d])) :
    (∃ m, Script m a (b ++ [d]) ∧ n = m + 1) ∨ (∃ m, Script m (a ++ [c]) b ∧ n = m + 1) ∨
      ∃ m, Script m a b ∧ n = m + replaceCost c d := by
  have hr := h.reverse
  rw [List.reverse_concat, List.reverse_concat] at hr
  cases hr with
  | replace _ _ hr => exact .inr (.inr ⟨_, reverse_iff.mp hr, rfl⟩)
  | delete _ hr =>
    rw [← List.reverse_concat, reverse_iff] at hr
    exact .inl ⟨_, hr, rfl⟩
  | insert _ hr =>
    rw [← List.reverse_concat, reverse_iff] at hr
    exact .inr (.inl ⟨_, hr, rfl⟩)

end Script

/-! ### Least numbers of edits -/

/-- The least number of edits that turn `a` into `b`. -/
def IsDistance (n : Nat) (a b : List Char) : Prop := IsLeast ({k | TextEdits k a b}) n

theorem isDistance_iff {n : Nat} {a b : List Char} :
    IsDistance n a b ↔ Script n a b ∧ ∀ k, Script k a b → n ≤ k := by
  constructor
  · rintro ⟨hn, hle⟩
    obtain ⟨k, hk, hs⟩ := TextEdits.exists_script hn
    have : n ≤ k := hle hs.edits
    exact ⟨Nat.le_antisymm this hk ▸ hs, fun k hk => hle hk.edits⟩
  · rintro ⟨hn, hle⟩
    refine ⟨hn.edits, fun k hk => ?_⟩
    obtain ⟨l, hl, hs⟩ := TextEdits.exists_script hk
    exact (hle l hs).trans hl

theorem isDistance_nil_left (b : List Char) : IsDistance b.length [] b := by
  rw [isDistance_iff]
  constructor
  · have := Script.nil.insertAll b
    rwa [Nat.zero_add, List.append_nil] at this
  · intro k h
    generalize ha : ([] : List Char) = a at h
    induction h with
    | nil => exact Nat.le_refl _
    | replace => cases ha
    | delete => cases ha
    | insert d _ ih => exact Nat.succ_le_succ (ih ha)

theorem isDistance_nil_right {n : Nat} {a : List Char} (h : IsDistance n a []) (c : Char) :
    IsDistance (n + 1) (a ++ [c]) [] := by
  rw [isDistance_iff] at h ⊢
  refine ⟨(h.1.concat c c).2.1, fun k hk => ?_⟩
  have hr := hk.reverse
  rw [List.reverse_concat] at hr
  cases hr with
  | delete _ hr => exact Nat.succ_le_succ (h.2 _ (Script.reverse_iff.mp hr))

/-- The recurrence of the table. -/
theorem isDistance_concat {above left diagonal : Nat} {a b : List Char} {c d : Char}
    (habove : IsDistance above a (b ++ [d])) (hleft : IsDistance left (a ++ [c]) b)
    (hdiagonal : IsDistance diagonal a b) :
    IsDistance (min (min (above + 1) (left + 1)) (diagonal + replaceCost c d)) (a ++ [c])
      (b ++ [d]) := by
  rw [isDistance_iff] at *
  constructor
  · rcases Nat.le_total (min (above + 1) (left + 1)) (diagonal + replaceCost c d) with h | h
    · rw [Nat.min_eq_left h]
      rcases Nat.le_total (above + 1) (left + 1) with h' | h'
      · rw [Nat.min_eq_left h']
        exact (habove.1.concat c c).2.1
      · rw [Nat.min_eq_right h']
        exact (hleft.1.concat d d).2.2
    · rw [Nat.min_eq_right h]
      exact (hdiagonal.1.concat c d).1
  · intro k hk
    rcases hk.cases_concat with ⟨m, hm, rfl⟩ | ⟨m, hm, rfl⟩ | ⟨m, hm, rfl⟩
    · have := habove.2 m hm
      omega
    · have := hleft.2 m hm
      omega
    · have := hdiagonal.2 m hm
      omega

/-! ### Rows -/

/-- A row of the table: the distances from `a` to `p`, to `p` and one character more, and so on. -/
inductive Row (a : List Char) : List Char → List Char → List Nat → Prop
  | last {n : Nat} {p : List Char} : IsDistance n a p → Row a p [] [n]
  | cons {n : Nat} {p ds : List Char} {d : Char} {row : List Nat} :
      IsDistance n a p → Row a (p ++ [d]) ds row → Row a p (d :: ds) (n :: row)

namespace Row

variable {a p ds : List Char} {row : List Nat}

theorem eq_cons (h : Row a p ds row) : ∃ n rest, row = n :: rest ∧ IsDistance n a p := by
  cases h with
  | last h => exact ⟨_, _, rfl, h⟩
  | cons h _ => exact ⟨_, _, rfl, h⟩

theorem first (b p : List Char) : Row [] p b (List.range' p.length (b.length + 1)) := by
  induction b generalizing p with
  | nil => exact .last (isDistance_nil_left p)
  | cons d b ih =>
    refine .cons (isDistance_nil_left p) ?_
    have := ih (p ++ [d])
    rwa [List.length_append] at this

theorem rowFrom {left : Nat} {c : Char} (h : Row a p ds row)
    (hleft : IsDistance left (a ++ [c]) p) :
    Row (a ++ [c]) p ds (left :: rowFrom c left ds row) := by
  induction h generalizing left with
  | last _ => exact .last hleft
  | cons hn hrow ih =>
    obtain ⟨above, rest, rfl, habove⟩ := hrow.eq_cons
    exact .cons hleft (ih (isDistance_concat habove hleft hn))

theorem next {b : List Char} (h : Row a [] b row) (c : Char) :
    Row (a ++ [c]) [] b (nextRow b row c) := by
  obtain ⟨n, rest, rfl, hn⟩ := h.eq_cons
  exact h.rowFrom (isDistance_nil_right hn c)

theorem foldl {b : List Char} (h : Row a [] b row) (cs : List Char) :
    Row (a ++ cs) [] b (cs.foldl (nextRow b) row) := by
  induction cs generalizing a row with
  | nil => rwa [List.append_nil]
  | cons c cs ih =>
    have := ih (h.next c)
    rwa [List.append_assoc] at this

theorem getLastD (h : Row a p ds row) : IsDistance (row.getLastD 0) a (p ++ ds) := by
  induction h with
  | last h => rwa [List.append_nil]
  | cons _ hrow ih =>
    obtain ⟨n, rest, rfl, _⟩ := hrow.eq_cons
    rwa [List.append_assoc] at ih

end Row

/-- The edit distance is the least number of edits. -/
theorem isDistance_editDistance (a b : List Char) : IsDistance (editDistance a b) a b := by
  have h := (Row.first b []).foldl a
  rw [List.nil_append, List.length_nil, ← List.range_eq_range'] at h
  exact h.getLastD

/-! ### Lower case -/

/-- A plain character, of the first alphabet. -/
def IsPlain (c : Char) : Prop := c.toNat < 128

/-- What a lower case of a character can be.  Two capitals that are not plain have a plain letter
in theirs; all others have one character that is not plain. -/
inductive LowerCase : Char → List Char → Prop
  | plain {c : Char} : IsPlain c → LowerCase c [c.toLower]
  | dotted : LowerCase '\u0130' ['i', '\u0307']
  | kelvin : LowerCase '\u212a' ['k']
  | other {c d : Char} : ¬ IsPlain c → c ≠ '\u0130' → c ≠ '\u212a' → ¬ IsPlain d → LowerCase c [d]

/-- A text in lower case, character by character. -/
inductive Lowered : List Char → List Char → Prop
  | nil : Lowered [] []
  | cons {c : Char} {l cs ds : List Char} :
      LowerCase c l → Lowered cs ds → Lowered (c :: cs) (l ++ ds)

/-- Two characters that a plain text does not tell apart. -/
def Indistinct (c d : Char) : Prop := c = d ∨ ¬ IsPlain c ∧ ¬ IsPlain d

theorem toLower_of_not_isPlain {c : Char} (h : ¬ IsPlain c) : c.toLower = c := by
  unfold Char.toLower
  rw [dif_neg]
  rintro ⟨_, hle⟩
  have hle : c.toNat ≤ 90 := hle
  exact h (by unfold IsPlain; omega)

theorem loweredForName_eq {c : Char} (hd : c ≠ '\u0130') (hk : c ≠ '\u212a') :
    loweredForName c = [c.toLower] := by
  rw [loweredForName, if_neg hd, if_neg hk]

theorem IsPlain.ne {c d : Char} (h : IsPlain c) (hd : ¬ IsPlain d) : c ≠ d :=
  fun heq => hd (heq ▸ h)

theorem LowerCase.indistinct {c : Char} {l : List Char} (h : LowerCase c l) :
    List.Forall₂ Indistinct (loweredForName c) l := by
  cases h with
  | plain h =>
    rw [loweredForName_eq (h.ne (by unfold IsPlain; decide)) (h.ne (by unfold IsPlain; decide))]
    exact .cons (.inl rfl) .nil
  | dotted => exact .cons (.inl rfl) (.cons (.inl rfl) .nil)
  | kelvin => exact .cons (.inl rfl) .nil
  | other hc hd hk h =>
    rw [loweredForName_eq hd hk, toLower_of_not_isPlain hc]
    exact .cons (.inr ⟨hc, h⟩) .nil

theorem lowerCase_loweredForName (c : Char) : LowerCase c (loweredForName c) := by
  by_cases hd : c = '\u0130'
  · exact hd ▸ .dotted
  · by_cases hk : c = '\u212a'
    · exact hk ▸ .kelvin
    · rw [loweredForName_eq hd hk]
      by_cases hplain : IsPlain c
      · exact .plain hplain
      · rw [toLower_of_not_isPlain hplain]
        exact .other hplain hd hk hplain

theorem lowered_flatMap (cs : List Char) : Lowered cs (cs.flatMap loweredForName) := by
  induction cs with
  | nil => exact .nil
  | cons c cs ih => exact .cons (lowerCase_loweredForName c) ih

theorem Lowered.indistinct {cs ds : List Char} (h : Lowered cs ds) :
    List.Forall₂ Indistinct (cs.flatMap loweredForName) ds := by
  induction h with
  | nil => exact .nil
  | cons hc _ ih => exact List.rel_append hc.indistinct ih

theorem Indistinct.eq_iff {c d e : Char} (h : Indistinct d e) (hc : IsPlain c) :
    c = d ↔ c = e := by
  rcases h with rfl | ⟨hd, he⟩
  · rfl
  · constructor
    · rintro rfl
      exact absurd hc hd
    · rintro rfl
      exact absurd hc he

theorem rowFrom_congr {c : Char} (hc : IsPlain c) {ds es : List Char}
    (h : List.Forall₂ Indistinct ds es) (left : Nat) (row : List Nat) :
    rowFrom c left ds row = rowFrom c left es row := by
  induction h generalizing left row with
  | nil => rfl
  | cons h _ ih =>
    match row with
    | [] => rfl
    | [_] => rfl
    | diagonal :: above :: rest => simp only [rowFrom, h.eq_iff hc, ih]

/-- The distance to a plain name does not tell apart the lower cases of a text. -/
theorem editDistance_congr {a b b' : List Char} (ha : ∀ c ∈ a, IsPlain c)
    (h : List.Forall₂ Indistinct b b') : editDistance a b = editDistance a b' := by
  have hrows : ∀ row, a.foldl (nextRow b) row = a.foldl (nextRow b') row := by
    induction a with
    | nil => exact fun _ => rfl
    | cons c a ih =>
      intro row
      have hc := ha c List.mem_cons_self
      rw [List.foldl_cons, List.foldl_cons, ih fun d hd => ha d (List.mem_cons_of_mem _ hd)]
      simp only [nextRow, rowFrom_congr hc h]
  unfold editDistance
  rw [hrows, h.length_eq]

/-! ### The first of the nearest names -/

theorem leastBy_eq_none_iff {α : Type} {l : List (α × Nat)} : leastBy l = none ↔ l = [] := by
  cases l with
  | nil => simp [leastBy]
  | cons x l =>
    rw [leastBy]
    split <;> simp

theorem exists_of_leastBy {α : Type} {l : List (α × Nat)} {x : α × Nat} (h : leastBy l = some x) :
    ∃ before after, l = before ++ x :: after ∧ (∀ y ∈ before, x.2 < y.2) ∧
      ∀ y ∈ after, x.2 ≤ y.2 := by
  induction l generalizing x with
  | nil => cases h
  | cons y l ih =>
    rw [leastBy] at h
    split at h
    · next z hz =>
      obtain ⟨before, after, rfl, hbefore, hafter⟩ := ih hz
      split at h
      · next hlt =>
        cases h
        refine ⟨y :: before, after, rfl, ?_, hafter⟩
        exact List.forall_mem_cons.mpr ⟨hlt, hbefore⟩
      · next hle =>
        cases h
        refine ⟨[], _, rfl, fun _ hw => absurd hw List.not_mem_nil, fun w hw => ?_⟩
        rcases List.mem_append.mp hw with hw | hw
        · have := hbefore w hw
          omega
        · rcases List.mem_cons.mp hw with rfl | hw
          · omega
          · have := hafter w hw
            omega
    · next hnone =>
      cases h
      rw [leastBy_eq_none_iff] at hnone
      exact ⟨[], [], by rw [hnone]; rfl, by simp, by simp⟩

/-- A member of the joined lists, with what stands before it. -/
theorem exists_of_flatMap_eq {α β : Type} {f : α → List β} {l : List α} {before after : List β}
    {x : β} (h : l.flatMap f = before ++ x :: after) :
    ∃ u e v, l = u ++ e :: v ∧ x ∈ f e ∧ ∀ e' ∈ u, ∀ y ∈ f e', y ∈ before := by
  induction l generalizing before with
  | nil => simp at h
  | cons e l ih =>
    rw [List.flatMap_cons, List.append_eq_append_iff] at h
    rcases h with ⟨w, rfl, h⟩ | ⟨w, hw, h⟩
    · obtain ⟨u, e', v, rfl, hx, hu⟩ := ih h
      refine ⟨e :: u, e', v, rfl, hx, List.forall_mem_cons.mpr ⟨?_, ?_⟩⟩
      · exact fun y hy => List.mem_append_left _ hy
      · exact fun e'' he y hy => List.mem_append_right _ (hu e'' he y hy)
    · cases w with
      | nil =>
        obtain ⟨u, e', v, rfl, hx, hu⟩ := ih (show l.flatMap f = [] ++ x :: after from h.symm)
        refine ⟨e :: u, e', v, rfl, hx, List.forall_mem_cons.mpr ⟨?_, ?_⟩⟩
        · intro y hy
          rwa [hw, List.append_nil] at hy
        · exact fun e'' he y hy => absurd (hu e'' he y hy) List.not_mem_nil
      | cons y w =>
        obtain ⟨rfl, -⟩ := List.cons.inj h
        refine ⟨[], e, l, rfl, ?_, by simp⟩
        rw [hw]
        exact List.mem_append_right _ List.mem_cons_self

namespace LanguageEntry

/-- A language with a name nearest to a text, before which no language has a name as near. -/
def IsFirstNearest (text : List Char) (e : LanguageEntry) : Prop :=
  ∃ before after name, all = before ++ e :: after ∧ name ∈ e.aliases ∧
    (∀ e' ∈ all, ∀ name' ∈ e'.aliases,
      editDistance name.toList text ≤ editDistance name'.toList text) ∧
    ∀ e' ∈ before, ∀ name' ∈ e'.aliases,
      editDistance name.toList text < editDistance name'.toList text

theorem isPlain_of_mem_aliases :
    ∀ e ∈ all, ∀ name ∈ e.aliases, ∀ c ∈ name.toList, IsPlain c := by
  have hall : (all.flatMap (·.aliases)).all fun name => name.toList.all fun c => c.toNat < 128 := by
    rw [show all.flatMap (·.aliases) = ["groovy", "gradle", "python", "py", "python3", "scala",
      "starlark", "star", "bazel", "bzl"] from rfl]
    decide +kernel
  intro e he name hname c hc
  have hmem : name ∈ all.flatMap (·.aliases) := List.mem_flatMap.mpr ⟨e, he, hname⟩
  have hplain := List.all_eq_true.mp (List.all_eq_true.mp hall name hmem) c hc
  rwa [decide_eq_true_eq] at hplain

/-- The built-in names with their distances to a text, as far as they are near enough. -/
def near (text : List Char) : List (String × Nat) :=
  (all.flatMap fun e => e.aliases.map fun a => (e.name, editDistance a.toList text)).filter
    (·.2 ≤ suggestionLimit)

theorem suggest?_eq {name : String} {text : List Char} (h : Lowered name.toList text) :
    suggest? name = (leastBy (near text)).map (·.1) := by
  have hdistances : ∀ e ∈ all,
      (e.aliases.map fun a =>
        (e.name, editDistance a.toList (name.toList.flatMap loweredForName))) =
      e.aliases.map fun a => (e.name, editDistance a.toList text) := by
    intro e he
    refine List.map_congr_left fun a ha => ?_
    rw [editDistance_congr (isPlain_of_mem_aliases e he a ha) h.indistinct]
  simp only [suggest?, near, List.flatMap_congr hdistances]

theorem mem_near_iff {text : List Char} {x : String × Nat} :
    x ∈ near text ↔ ∃ e ∈ all, ∃ a ∈ e.aliases,
      x = (e.name, editDistance a.toList text) ∧ editDistance a.toList text ≤ 2 := by
  unfold near suggestionLimit
  rw [List.mem_filter, List.mem_flatMap, decide_eq_true_eq]
  constructor
  · rintro ⟨⟨e, he, hx⟩, hle⟩
    obtain ⟨a, ha, rfl⟩ := List.mem_map.mp hx
    exact ⟨e, he, a, ha, rfl, hle⟩
  · rintro ⟨e, he, a, ha, rfl, hle⟩
    exact ⟨⟨e, he, List.mem_map.mpr ⟨a, ha, rfl⟩⟩, hle⟩

theorem exists_isFirstNearest {text : List Char} {x : String × Nat}
    (h : leastBy (near text) = some x) : ∃ e, x.1 = e.name ∧ IsFirstNearest text e := by
  obtain ⟨before, after, hnear, hbefore, hafter⟩ := exists_of_leastBy h
  obtain ⟨u, v, hall, rfl, hv⟩ := List.filter_eq_append_iff.mp hnear
  obtain ⟨w, z, rfl, hw, hx, rfl⟩ := List.filter_eq_cons_iff.mp hv
  rw [decide_eq_true_eq] at hx
  -- What is not near enough is farther than `x` too, so `x` is least among all names.
  have hfar : ∀ y ∈ u ++ w, x.2 < y.2 := by
    intro y hy
    by_cases hle : y.2 ≤ suggestionLimit
    · rcases List.mem_append.mp hy with hy | hy
      · exact hbefore y (List.mem_filter.mpr ⟨hy, decide_eq_true hle⟩)
      · exact absurd (decide_eq_true hle) (hw y hy)
    · omega
  have hleast : ∀ y ∈ z, x.2 ≤ y.2 := by
    intro y hy
    by_cases hle : y.2 ≤ suggestionLimit
    · exact hafter y (List.mem_filter.mpr ⟨hy, decide_eq_true hle⟩)
    · omega
  rw [← List.append_assoc] at hall
  obtain ⟨es, e, es', hes, hxe, hes'⟩ := exists_of_flatMap_eq hall
  obtain ⟨a, ha, rfl⟩ := List.mem_map.mp hxe
  refine ⟨e, rfl, es, es', a, hes, ha, fun e' he' a' ha' => ?_, fun e' he' a' ha' => ?_⟩
  · have hmem : (e'.name, editDistance a'.toList text) ∈ u ++ w ++ (_ :: z) :=
      hall ▸ List.mem_flatMap.mpr ⟨e', he', List.mem_map.mpr ⟨a', ha', rfl⟩⟩
    rcases List.mem_append.mp hmem with hmem | hmem
    · exact (hfar _ hmem).le
    · rcases List.mem_cons.mp hmem with heq | hmem
      · exact (congrArg Prod.snd heq).ge
      · exact hleast _ hmem
  · exact hfar _ (hes' e' he' _ (List.mem_map.mpr ⟨a', ha', rfl⟩))

/-- **A suggestion is the first of the nearest names.**  The edit distance is the least number of
characters to insert, delete and substitute.  There is no suggestion just when all names are more
than two edits away from the lower case of the misspelt one; otherwise it is the first language
with a name as near as any. -/
theorem suggest?_is_nearest :
    (∀ a b : String, IsDistance (editDistance a.toList b.toList) a.toList b.toList) ∧
    ∀ (name : String) (text : List Char), Lowered name.toList text →
      (suggest? name = none ↔
        ∀ e ∈ all, ∀ a ∈ e.aliases, 2 < editDistance a.toList text) ∧
      (suggest? name ≠ none → ∃ e, suggest? name = some e.name ∧ IsFirstNearest text e) := by
  refine ⟨fun a b => isDistance_editDistance _ _, fun name text h => ?_⟩
  rw [suggest?_eq h]
  constructor
  · rw [Option.map_eq_none_iff, leastBy_eq_none_iff, List.eq_nil_iff_forall_not_mem]
    constructor
    · intro hnone e he a ha
      apply Nat.lt_of_not_le
      intro hle
      exact hnone _ (mem_near_iff.mpr ⟨e, he, a, ha, rfl, hle⟩)
    · intro hfar x hx
      obtain ⟨e, he, a, ha, -, hle⟩ := mem_near_iff.mp hx
      exact absurd (hfar e he a ha) (Nat.not_lt.mpr hle)
  · intro hsome
    cases hx : leastBy (near text) with
    | none => rw [hx] at hsome; exact absurd rfl hsome
    | some x =>
      obtain ⟨e, he, hfirst⟩ := exists_isFirstNearest hx
      exact ⟨e, by rw [Option.map_some, he], hfirst⟩

/-- A name of `groovy`, misspelt by two edits. -/
theorem suggest?_is_nearest_gradel :
    Lowered "Gradel".toList "gradel".toList ∧
      ∃ e, suggest? "Gradel" = some e.name ∧ IsFirstNearest "gradel".toList e := by
  have hlowered : Lowered "Gradel".toList "gradel".toList := by
    have := lowered_flatMap "Gradel".toList
    rwa [show "Gradel".toList.flatMap loweredForName = "gradel".toList by decide +kernel] at this
  exact ⟨hlowered, (suggest?_is_nearest.2 "Gradel" _ hlowered).2 (by decide +kernel)⟩

example : suggest? "Gradel" = some "groovy" ∧ suggest? "haskell" = none := by decide +kernel

end LanguageEntry

end Nesting
