import Mathlib.Computability.Language
import Nesting.Proofs.Regex.Reached

/-! # The language of an expression

Without order and greed an expression is a regular one, with a language of words
(`Regex.language`).  The ends of a match are then the places behind the words that stand at its
start (`mem_ends_iff`), for expressions that look at nothing but the text they take
(`Regex.isPlain`). -/

namespace Nesting

theorem Place.next?_of_skip? {c : Char} {p q : Place} (h : p.skip? [c] = some q) :
    p.next? = some (c, q) := by
  have hnext := next?_of_after (after_of_skip? h)
  have hskip := skip?_of_next? hnext
  rw [h, Option.some.injEq] at hskip
  rw [hnext, ← hskip]

namespace Regex

/-- The words of an expression, read without preference.  Conditions on places have none. -/
def language : Regex → Language Char
  | text cs => {cs}
  | one s => {w | ∃ c, s.mem c = true ∧ w = [c]}
  | anchor _ => 0
  | group _ r => language r
  | seq r s => language r * language s
  | alt r s => language r + language s
  | repeated r least most _ => {w | ∃ n, least ≤ n ∧ (∀ m ∈ most, n ≤ m) ∧ w ∈ language r ^ n}

/-- An expression without conditions on places, whose loops all end by themselves. -/
def isPlain : Regex → Bool
  | text _ => true
  | one _ => true
  | anchor _ => false
  | group _ r => isPlain r
  | seq r s => isPlain r && isPlain s
  | alt r s => isPlain r && isPlain s
  | repeated r _ none _ => isPlain r && !r.isNullable
  | repeated r least (some most) _ => isPlain r && least ≤ most

theorem mem_language_seq {r s : Regex} {w : List Char} :
    w ∈ (seq r s).language ↔ ∃ u ∈ r.language, ∃ v ∈ s.language, u ++ v = w :=
  Language.mem_mul

theorem mem_language_alt {r s : Regex} {w : List Char} :
    w ∈ (alt r s).language ↔ w ∈ r.language ∨ w ∈ s.language :=
  Language.mem_add _ _ _

theorem mem_pow_succ_iff {l : Language Char} {n : Nat} {w : List Char} :
    w ∈ l ^ (n + 1) ↔ ∃ u ∈ l, ∃ v ∈ l ^ n, u ++ v = w := by
  rw [pow_succ', Language.mem_mul]

theorem isNullable_of_nil_mem {r : Regex} (h : [] ∈ r.language) : r.isNullable = true := by
  induction r with
  | text cs =>
      rw [isNullable, ← show [] = cs from h]
      rfl
  | one s =>
      obtain ⟨c, -, hnil⟩ := h
      cases hnil
  | anchor a => rfl
  | group n r ih => exact ih h
  | seq r s ihr ihs =>
      obtain ⟨u, hu, v, hv, hnil⟩ := mem_language_seq.mp h
      obtain ⟨rfl, rfl⟩ := List.append_eq_nil_iff.mp hnil
      rw [isNullable, ihr hu, ihs hv]
      rfl
  | alt r s ihr ihs =>
      rw [isNullable, Bool.or_eq_true]
      exact (mem_language_alt.mp h).imp ihr ihs
  | repeated r least most greedy ih =>
      obtain ⟨n, hn, -, hpow⟩ := h
      rw [isNullable, Bool.or_eq_true, beq_iff_eq]
      cases n with
      | zero => exact .inl (Nat.le_zero.mp hn)
      | succ n =>
          obtain ⟨u, hu, v, -, hnil⟩ := mem_pow_succ_iff.mp hpow
          exact .inr (ih ((List.append_eq_nil_iff.mp hnil).1 ▸ hu))

/-! ### Words and places -/

/-- The places behind the words of a language that stand at a place. -/
def Stands (l : Language Char) (p q : Place) : Prop := ∃ w ∈ l, p.skip? w = some q

theorem stands_mul_iff {l m : Language Char} {p q : Place} :
    Stands (l * m) p q ↔ ∃ a, Stands l p a ∧ Stands m a q := by
  constructor
  · rintro ⟨w, hw, hskip⟩
    obtain ⟨u, hu, v, hv, rfl⟩ := Language.mem_mul.mp hw
    rw [Place.skip?_append, Option.bind_eq_some_iff] at hskip
    obtain ⟨a, ha, hskip⟩ := hskip
    exact ⟨a, ⟨u, hu, ha⟩, v, hv, hskip⟩
  · rintro ⟨a, ⟨u, hu, ha⟩, v, hv, hskip⟩
    refine ⟨u ++ v, Language.mem_mul.mpr ⟨u, hu, v, hv, rfl⟩, ?_⟩
    rw [Place.skip?_append, ha]
    exact hskip

theorem stands_add_iff {l m : Language Char} {p q : Place} :
    Stands (l + m) p q ↔ Stands l p q ∨ Stands m p q := by
  unfold Stands
  simp only [Language.mem_add, or_and_right, exists_or]

theorem rounds_iff {body : Place → List Place} {l : Language Char}
    (h : ∀ a b, b ∈ body a ↔ Stands l a b) (n : Nat) (p q : Place) :
    Rounds body n p q ↔ Stands (l ^ n) p q := by
  induction n generalizing p with
  | zero =>
      constructor
      · intro hrun
        cases hrun
        exact ⟨[], rfl, rfl⟩
      · rintro ⟨w, hw, hskip⟩
        rw [pow_zero, Language.mem_one] at hw
        rw [hw] at hskip
        cases hskip
        exact .zero _
  | succ n ih =>
      rw [pow_succ', stands_mul_iff]
      constructor
      · intro hrun
        cases hrun with
        | @succ _ _ a _ ha hrun => exact ⟨a, (h p a).mp ha, (ih a).mp hrun⟩
      · rintro ⟨a, ha, hrun⟩
        exact .succ ((h p a).mpr ha) ((ih a).mpr hrun)

/-- The ends of a repetition are the ends of the allowed numbers of rounds. -/
theorem mem_ends_repeated_iff {r : Regex} {least : Nat} {most : Option Nat} {greedy : Bool}
    (hforward : most = none → r.isNullable = false ∧ ∀ a, ∀ b ∈ r.ends a, a.index < b.index)
    (hmost : ∀ m ∈ most, least ≤ m) {p q : Place} :
    q ∈ (repeated r least most greedy).ends p ↔
      ∃ n, least ≤ n ∧ (∀ m ∈ most, n ≤ m) ∧ Rounds r.ends n p q := by
  have hbody := ahead_of_mem_ends r
  have hstart : ∀ a ∈ [p], p.Ahead a := List.forall_mem_singleton.mpr (.refl p)
  -- Fixed rounds first, and then a loop, whose ends `more` describes.
  have hthen (k : Nat) (loop : Place → List Place) (more : Nat → Prop)
      (hloop : ∀ a q, q ∈ loop a ↔ ∃ n, more n ∧ Rounds r.ends n a q) :
      q ∈ distinct ((rounds (fun _ => r.ends) k [p]).flatMap loop) ↔
        ∃ n, more n ∧ Rounds r.ends (k + n) p q := by
    rw [mem_distinct_iff (p := p), List.mem_flatMap]
    · simp only [mem_rounds_iff hbody k hstart, hloop, List.mem_singleton, exists_eq_left]
      constructor
      · rintro ⟨a, ha, n, hn, hrun⟩
        exact ⟨n, hn, ha.trans hrun⟩
      · rintro ⟨n, hn, hrun⟩
        obtain ⟨a, ha, hrun⟩ := hrun.split
        exact ⟨a, ha, n, hn, hrun⟩
    · intro b hb
      obtain ⟨a, ha, hb⟩ := List.mem_flatMap.mp hb
      obtain ⟨_, hp, ha⟩ := (mem_rounds_iff hbody k hstart).mp ha
      obtain ⟨n, -, hrun⟩ := (hloop a b).mp hb
      rw [List.mem_singleton.mp hp] at ha
      exact (ha.ahead hbody).trans (hrun.ahead hbody)
  cases most with
  | some most =>
      rw [ends, hthen least _ (· ≤ most - least) fun a q => mem_atMost_iff hbody greedy _]
      have hle : least ≤ most := hmost most rfl
      constructor
      · rintro ⟨n, hn, hrun⟩
        refine ⟨least + n, Nat.le_add_right _ _, fun m hm => ?_, hrun⟩
        obtain rfl := Option.some.inj hm
        omega
      · rintro ⟨n, hn, hn', hrun⟩
        have := hn' most rfl
        refine ⟨n - least, by omega, ?_⟩
        rwa [Nat.add_sub_cancel' hn]
  | none =>
      obtain ⟨hnullable, hforward⟩ := hforward rfl
      cases least with
      | zero =>
          rw [ends, if_neg (by simp [hnullable]), mem_zeroOrMore_iff hbody hforward]
          simp
      | succ least =>
          rw [ends, if_neg (by simp [hnullable]), hthen least _ (1 ≤ ·) fun a q => ?_]
          · constructor
            · rintro ⟨n, hn, hrun⟩
              exact ⟨least + n, by omega, by simp, hrun⟩
            · rintro ⟨n, hn, -, hrun⟩
              refine ⟨n - least, by omega, ?_⟩
              rwa [Nat.add_sub_cancel' (by omega)]
          · rw [mem_oneOrMore_iff hbody hforward]
            constructor
            · rintro ⟨n, hrun⟩
              exact ⟨n + 1, Nat.le_add_left _ _, hrun⟩
            · rintro ⟨n, hn, hrun⟩
              exact ⟨n - 1, by rwa [Nat.sub_add_cancel hn]⟩

theorem index_lt_of_stands {r : Regex} (h : r.isNullable = false) {p q : Place}
    (hq : Stands r.language p q) : p.index < q.index := by
  obtain ⟨w, hw, hskip⟩ := hq
  rw [Place.index_of_skip? hskip]
  cases w with
  | nil => rw [isNullable_of_nil_mem hw] at h; cases h
  | cons c w => rw [List.length_cons]; omega

/-- The ends of a match are the places behind the words that stand at its start. -/
theorem mem_ends_iff {r : Regex} (h : r.isPlain = true) (p q : Place) :
    q ∈ r.ends p ↔ Stands r.language p q := by
  induction r generalizing p q with
  | text cs =>
      rw [ends, Option.mem_toList]
      constructor
      · exact fun hq => ⟨cs, rfl, hq⟩
      · rintro ⟨w, rfl, hq⟩
        exact hq
  | one s =>
      rw [ends]
      constructor
      · intro hq
        split at hq
        · next c a hnext =>
          split at hq
          · next hmem =>
            rw [List.mem_singleton.mp hq]
            exact ⟨[c], ⟨c, hmem, rfl⟩, Place.skip?_of_next? hnext⟩
          · cases hq
        · cases hq
      · rintro ⟨w, ⟨c, hmem, rfl⟩, hq⟩
        rw [Place.next?_of_skip? hq]
        simp [hmem]
  | anchor a => cases h
  | group n r ih => exact ih h p q
  | seq r s ihr ihs =>
      rw [isPlain, Bool.and_eq_true] at h
      rw [ends, mem_distinct_iff (p := p), List.mem_flatMap, language, stands_mul_iff]
      · simp only [ihr h.1, ihs h.2]
      · intro b hb
        obtain ⟨a, ha, hb⟩ := List.mem_flatMap.mp hb
        exact (ahead_of_mem_ends r p a ha).trans (ahead_of_mem_ends s a b hb)
  | alt r s ihr ihs =>
      rw [isPlain, Bool.and_eq_true] at h
      rw [ends, mem_distinct_iff (p := p), List.mem_append, language, stands_add_iff, ihr h.1,
        ihs h.2]
      intro b hb
      rcases List.mem_append.mp hb with hb | hb
      · exact ahead_of_mem_ends r p b hb
      · exact ahead_of_mem_ends s p b hb
  | repeated r least most greedy ih =>
      have hends : ∀ a b, b ∈ r.ends a ↔ Stands r.language a b := by
        refine ih ?_
        cases most with
        | none => exact (Bool.and_eq_true _ _ ▸ h).1
        | some most => exact (Bool.and_eq_true _ _ ▸ h).1
      rw [mem_ends_repeated_iff]
      · simp only [rounds_iff hends, language]
        constructor
        · rintro ⟨n, hn, hn', w, hw, hq⟩
          exact ⟨w, ⟨n, hn, hn', hw⟩, hq⟩
        · rintro ⟨w, ⟨n, hn, hn', hw⟩, hq⟩
          exact ⟨n, hn, hn', w, hw, hq⟩
      · rintro rfl
        rw [isPlain, Bool.and_eq_true, Bool.not_eq_true'] at h
        exact ⟨h.2, fun a b hb => index_lt_of_stands h.2 ((hends a b).mp hb)⟩
      · rintro m rfl
        rw [isPlain, Bool.and_eq_true, decide_eq_true_eq] at h
        exact h.2

end Regex

end Nesting
