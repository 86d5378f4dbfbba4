import Mathlib.Data.List.Infix
import Nesting.Proofs.Regex.Words
import Nesting.Proofs.Text.Words

/-! # Expressions that prefer their longest match

The preferred match of an expression need not be its longest one.  `Longest r` says that for `r` it
is, wherever a match starts.  A loop over a body that matches in one way only takes all rounds there
are (`Longest.star`, `Longest.plus`).  A sequence whose second part can begin at one place only is
as good as that part (`Longest.seq`).  A choice takes its longest match if no word of the first
branch goes on to a word of the second one (`Longest.alt`).

Both conditions are read off the characters of an expression: those that it may use (`mentions`),
that it begins with (`opens`), and that none of its words can do without (`needs`). -/

namespace Nesting

/-- Whether a set has no members but the given characters. -/
def CharSet.within (cs : List Char) (s : CharSet) : Bool :=
  s.ranges.all fun r => (List.range' r.1 (r.2 + 1 - r.1)).all fun n => cs.any (·.toNat == n)

theorem CharClass.exists_of_inRanges {ranges : List (Nat × Nat)} {n : Nat}
    (h : CharClass.inRanges ranges n = true) : ∃ r ∈ ranges, r.1 ≤ n ∧ n ≤ r.2 := by
  induction ranges with
  | nil => cases h
  | cons r ranges ih =>
      rw [inRanges] at h
      split at h
      · cases h
      · next hle =>
        rw [Bool.or_eq_true, decide_eq_true_eq] at h
        rcases h with h | h
        · exact ⟨r, List.mem_cons_self, Nat.le_of_not_lt hle, h⟩
        · obtain ⟨r', hr', hn⟩ := ih h
          exact ⟨r', List.mem_cons_of_mem r hr', hn⟩

theorem CharSet.mem_of_within {cs : List Char} {s : CharSet} (h : s.within cs = true) {c : Char}
    (hc : s.mem c = true) : c ∈ cs := by
  obtain ⟨r, hr, hlow, hhigh⟩ := CharClass.exists_of_inRanges hc
  have hall := List.all_eq_true.mp (List.all_eq_true.mp h r hr) c.toNat
    (List.mem_range'_1.mpr ⟨hlow, by omega⟩)
  obtain ⟨d, hd, heq⟩ := List.any_eq_true.mp hall
  rw [← Char.toNat_inj.mp (eq_of_beq heq)]
  exact hd

namespace Regex

/-! ### The characters of an expression -/

/-- Whether a character may stand in a word. -/
def mentions : Regex → Char → Bool
  | text cs, c => cs.contains c
  | one s, c => s.mem c
  | anchor _, _ => false
  | group _ r, c => mentions r c
  | seq r s, c => mentions r c || mentions s c
  | alt r s, c => mentions r c || mentions s c
  | repeated r _ _ _, c => mentions r c

/-- Whether all words that are not empty begin with one of the given characters. -/
def opens (cs : List Char) : Regex → Bool
  | text ds => ds.head?.all cs.contains
  | one s => s.within cs
  | anchor _ => true
  | group _ r => opens cs r
  | seq r s => opens cs r && (!r.isNullable || opens cs s)
  | alt r s => opens cs r && opens cs s
  | repeated r _ _ _ => opens cs r

/-- Whether all words have one of the given characters. -/
def needs (cs : List Char) : Regex → Bool
  | text ds => ds.any cs.contains
  | one s => s.within cs
  | anchor _ => true
  | group _ r => needs cs r
  | seq r s => needs cs r || needs cs s
  | alt r s => needs cs r && needs cs s
  | repeated r least _ _ => least != 0 && needs cs r

/-- Whether no word has any of the given characters. -/
def avoids (cs : List Char) (r : Regex) : Bool := cs.all fun c => !r.mentions c

theorem mentions_of_mem {r : Regex} {w : List Char} (hw : w ∈ r.language) {c : Char}
    (hc : c ∈ w) : r.mentions c = true := by
  induction r generalizing w with
  | text cs =>
      rw [show w = cs from hw] at hc
      exact List.contains_iff_mem.mpr hc
  | one s =>
      obtain ⟨d, hd, rfl⟩ := hw
      rw [List.mem_singleton.mp hc]
      exact hd
  | anchor a => exact hw.elim
  | group n r ih => exact ih hw hc
  | seq r s ihr ihs =>
      obtain ⟨u, hu, v, hv, rfl⟩ := mem_language_seq.mp hw
      rw [mentions, Bool.or_eq_true]
      exact (List.mem_append.mp hc).imp (ihr hu) (ihs hv)
  | alt r s ihr ihs =>
      rw [mentions, Bool.or_eq_true]
      exact (mem_language_alt.mp hw).imp (ihr · hc) (ihs · hc)
  | repeated r least most greedy ih =>
      obtain ⟨n, -, -, hpow⟩ := hw
      induction n generalizing w with
      | zero => rw [(Language.mem_one w).mp hpow] at hc; cases hc
      | succ n ihn =>
          obtain ⟨u, hu, v, hv, rfl⟩ := mem_pow_succ_iff.mp hpow
          rcases List.mem_append.mp hc with hc | hc
          · exact ih hu hc
          · exact ihn hc hv

theorem not_mem_of_avoids {cs : List Char} {r : Regex} (h : r.avoids cs = true) {w : List Char}
    (hw : w ∈ r.language) {c : Char} (hc : c ∈ cs) : c ∉ w := by
  intro hmem
  have := List.all_eq_true.mp h c hc
  rw [mentions_of_mem hw hmem] at this
  cases this

theorem mem_of_opens {cs : List Char} {r : Regex} (h : r.opens cs = true) {c : Char}
    {w : List Char} (hw : c :: w ∈ r.language) : c ∈ cs := by
  induction r generalizing w with
  | text ds =>
      rw [opens, ← show c :: w = ds from hw] at h
      exact List.contains_iff_mem.mp h
  | one s =>
      obtain ⟨d, hd, heq⟩ := hw
      rw [(List.cons.inj heq).1]
      exact CharSet.mem_of_within h hd
  | anchor a => exact hw.elim
  | group n r ih => exact ih h hw
  | seq r s ihr ihs =>
      rw [opens, Bool.and_eq_true, Bool.or_eq_true] at h
      obtain ⟨u, hu, v, hv, heq⟩ := mem_language_seq.mp hw
      cases u with
      | nil =>
          have hnullable := isNullable_of_nil_mem hu
          rcases h.2 with h | h
          · rw [hnullable] at h; cases h
          · exact ihs h ((show v = c :: w from heq) ▸ hv)
      | cons d u => exact ihr h.1 ((List.cons.inj heq).1 ▸ hu)
  | alt r s ihr ihs =>
      rw [opens, Bool.and_eq_true] at h
      rcases mem_language_alt.mp hw with hw | hw
      · exact ihr h.1 hw
      · exact ihs h.2 hw
  | repeated r least most greedy ih =>
      obtain ⟨n, -, -, hpow⟩ := hw
      induction n with
      | zero => cases (Language.mem_one _).mp hpow
      | succ n ihn =>
          obtain ⟨u, hu, v, hv, heq⟩ := mem_pow_succ_iff.mp hpow
          cases u with
          | nil => exact ihn ((show v = c :: w from heq) ▸ hv)
          | cons d u => exact ih h ((List.cons.inj heq).1 ▸ hu)

theorem exists_mem_of_needs (cs : List Char) {r : Regex} (h : r.needs cs = true) {w : List Char}
    (hw : w ∈ r.language) : ∃ c ∈ cs, c ∈ w := by
  induction r generalizing w with
  | text ds =>
      obtain ⟨c, hc, hmem⟩ := List.any_eq_true.mp h
      exact ⟨c, List.contains_iff_mem.mp hmem, (show w = ds from hw) ▸ hc⟩
  | one s =>
      obtain ⟨d, hd, rfl⟩ := hw
      exact ⟨d, CharSet.mem_of_within h hd, List.mem_singleton_self d⟩
  | anchor a => exact hw.elim
  | group n r ih => exact ih h hw
  | seq r s ihr ihs =>
      rw [needs, Bool.or_eq_true] at h
      obtain ⟨u, hu, v, hv, rfl⟩ := mem_language_seq.mp hw
      rcases h with h | h
      · obtain ⟨c, hc, hmem⟩ := ihr h hu
        exact ⟨c, hc, List.mem_append_left v hmem⟩
      · obtain ⟨c, hc, hmem⟩ := ihs h hv
        exact ⟨c, hc, List.mem_append_right u hmem⟩
  | alt r s ihr ihs =>
      rw [needs, Bool.and_eq_true] at h
      rcases mem_language_alt.mp hw with hw | hw
      · exact ihr h.1 hw
      · exact ihs h.2 hw
  | repeated r least most greedy ih =>
      rw [needs, Bool.and_eq_true, bne_iff_ne] at h
      obtain ⟨n, hn, -, hpow⟩ := hw
      cases n with
      | zero => exact absurd (Nat.le_zero.mp hn) h.1
      | succ n =>
          obtain ⟨u, hu, v, -, rfl⟩ := mem_pow_succ_iff.mp hpow
          obtain ⟨c, hc, hmem⟩ := ih h.2 hu
          exact ⟨c, hc, List.mem_append_left v hmem⟩

/-! ### Matches in one way only -/

/-- Matches that start at one place end at one place. -/
def Functional (r : Regex) : Prop := ∀ p, ∀ q ∈ r.ends p, ∀ q' ∈ r.ends p, q = q'

/-- In a sequence, the second part can begin at one place only. -/
def Pivot (r s : Regex) : Prop :=
  ∀ p, ∀ m ∈ r.ends p, ∀ m' ∈ r.ends p, s.ends m ≠ [] → s.ends m' ≠ [] → m = m'

theorem functional_text (cs : List Char) : (text cs).Functional := by
  intro p q hq q' hq'
  rw [ends, Option.mem_toList] at hq hq'
  exact Option.some.inj (hq.symm.trans hq')

theorem functional_one (s : CharSet) : (one s).Functional := by
  intro p q hq q' hq'
  rw [ends] at hq hq'
  cases hnext : p.next? with
  | none =>
      rw [hnext] at hq
      cases hq
  | some next =>
      rw [hnext] at hq hq'
      dsimp only at hq hq'
      split at hq
      · next hmem =>
        rw [if_pos hmem] at hq'
        rw [List.mem_singleton.mp hq, List.mem_singleton.mp hq']
      · cases hq

theorem Functional.firstEnd? {r : Regex} (h : r.Functional) {p q : Place} (hq : q ∈ r.ends p) :
    r.firstEnd? p = some q := by
  rw [Regex.firstEnd?]
  cases hends : r.ends p with
  | nil => rw [hends] at hq; cases hq
  | cons a as => rw [List.head?_cons, h p a (by rw [hends]; exact List.mem_cons_self) q hq]

theorem Functional.pivot {r : Regex} (h : r.Functional) (s : Regex) : r.Pivot s :=
  fun p m hm m' hm' _ _ => h p m hm m' hm'

/-- The second part begins with characters that the first part does not have. -/
theorem pivot_of_avoids (cs : List Char) {r s : Regex} (hr : r.isPlain = true)
    (hs : s.isPlain = true) (havoids : r.avoids cs = true) (hopens : s.opens cs = true)
    (hnullable : s.isNullable = false) : r.Pivot s := by
  have begins {m : Place} (h : s.ends m ≠ []) : ∃ c ∈ cs, ∃ x, m.after = c :: x := by
    obtain ⟨q, hq⟩ := List.exists_mem_of_ne_nil _ h
    obtain ⟨w, hw, hskip⟩ := (mem_ends_iff hs m q).mp hq
    cases w with
    | nil => rw [isNullable_of_nil_mem hw] at hnullable; cases hnullable
    | cons c w => exact ⟨c, mem_of_opens hopens hw, _, Place.after_of_skip? hskip⟩
  intro p m hm m' hm' hends hends'
  obtain ⟨w, hw, hskip⟩ := (mem_ends_iff hr p m).mp hm
  obtain ⟨w', hw', hskip'⟩ := (mem_ends_iff hr p m').mp hm'
  obtain ⟨c, hc, x, hx⟩ := begins hends
  obtain ⟨c', hc', x', hx'⟩ := begins hends'
  have hafter := (Place.after_of_skip? hskip).symm.trans (Place.after_of_skip? hskip')
  rw [hx, hx'] at hafter
  obtain ⟨hsame, -⟩ := append_cons_inj (not_mem_of_avoids havoids hw hc')
    (not_mem_of_avoids havoids hw' hc) hafter
  rw [hsame, hskip'] at hskip
  exact (Option.some.inj hskip).symm

theorem Functional.seq {r s : Regex} (hpivot : r.Pivot s) (hs : s.Functional) :
    (r.seq s).Functional := by
  intro p q hq q' hq'
  obtain ⟨m, hm, hq⟩ := List.mem_flatMap.mp (mem_of_mem_distinct hq)
  obtain ⟨m', hm', hq'⟩ := List.mem_flatMap.mp (mem_of_mem_distinct hq')
  have hsame := hpivot p m hm m' hm' (List.ne_nil_of_mem hq) (List.ne_nil_of_mem hq')
  exact hs m q hq q' (hsame ▸ hq')

/-! ### The longest match -/

/-- No match ends behind the preferred one. -/
def Longest (r : Regex) : Prop :=
  ∀ p q, r.firstEnd? p = some q → ∀ q' ∈ r.ends p, q'.index ≤ q.index

theorem Functional.longest {r : Regex} (h : r.Functional) : r.Longest := by
  intro p q hq q' hq'
  rw [h p q' hq' q (List.mem_of_head? hq)]

theorem Longest.seq {r s : Regex} (hpivot : r.Pivot s) (hs : s.Longest) : (r.seq s).Longest := by
  intro p q hq q' hq'
  rw [firstEnd?_seq] at hq
  obtain ⟨m, hm, hq⟩ := List.exists_of_findSome?_eq_some hq
  obtain ⟨m', hm', hq'⟩ := List.mem_flatMap.mp (mem_of_mem_distinct hq')
  have hsame := hpivot p m hm m' hm' (List.ne_nil_of_mem (List.mem_of_head? hq))
    (List.ne_nil_of_mem hq')
  exact hs m q hq q' (hsame ▸ hq')

/-- No word of the first expression begins a word of the second one. -/
def Apart (r s : Regex) : Prop := ∀ u ∈ r.language, ∀ v ∈ s.language, ¬ u <+: v

/-- Where both branches match and are apart, the second one matches less. -/
theorem Longest.alt {r s : Regex} (hr : r.isPlain = true) (hs : s.isPlain = true)
    (h : r.Longest) (h' : s.Longest) (hapart : r.Apart s) : (r.alt s).Longest := by
  intro p q hq q' hq'
  have hq' := List.mem_append.mp (mem_of_mem_distinct hq')
  rw [firstEnd?, ends, head?_distinct, List.head?_append] at hq
  cases hfirst : (r.ends p).head? with
  | none =>
      rw [hfirst] at hq
      rcases hq' with hq' | hq'
      · rw [List.head?_eq_none_iff.mp hfirst] at hq'
        cases hq'
      · exact h' p q hq q' hq'
  | some m =>
      rw [hfirst] at hq
      obtain rfl : m = q := Option.some.inj hq
      rcases hq' with hq' | hq'
      · exact h p m hfirst q' hq'
      · obtain ⟨u, hu, hskip⟩ := (mem_ends_iff hr p m).mp (List.mem_of_head? hfirst)
        obtain ⟨v, hv, hskip'⟩ := (mem_ends_iff hs p q').mp hq'
        have hu' : u <+: p.after := ⟨m.after, (Place.after_of_skip? hskip).symm⟩
        have hv' : v <+: p.after := ⟨q'.after, (Place.after_of_skip? hskip').symm⟩
        rcases List.prefix_or_prefix_of_prefix hu' hv' with hpre | hpre
        · exact absurd hpre (hapart u hu v hv)
        · rw [Place.index_of_skip? hskip, Place.index_of_skip? hskip']
          exact Nat.add_le_add_left hpre.length_le _

theorem apart_of_needs (cs : List Char) {r s : Regex} (hneeds : r.needs cs = true)
    (havoids : s.avoids cs = true) : r.Apart s := by
  intro u hu v hv hpre
  obtain ⟨c, hc, hmem⟩ := exists_mem_of_needs cs hneeds hu
  exact not_mem_of_avoids havoids hv hc (hpre.subset hmem)

theorem alts_cons_cons (r s : Regex) (rs : List Regex) :
    alts (r :: s :: rs) = .alt r (alts (s :: rs)) := rfl

theorem isPlain_alts {rs : List Regex} (h : ∀ r ∈ rs, r.isPlain = true) :
    (alts rs).isPlain = true := by
  induction rs with
  | nil => rfl
  | cons r rs ih =>
      rw [List.forall_mem_cons] at h
      cases rs with
      | nil => exact h.1
      | cons s rs => rw [alts_cons_cons, isPlain, h.1, ih h.2, Bool.and_self]

theorem mem_language_alts {rs : List Regex} {w : List Char} :
    w ∈ (alts rs).language ↔ ∃ r ∈ rs, w ∈ r.language := by
  induction rs with
  | nil =>
      constructor
      · rintro ⟨c, hc, -⟩
        cases hc
      · rintro ⟨r, hr, -⟩
        cases hr
  | cons r rs ih =>
      cases rs with
      | nil => simp [alts]
      | cons s rs => rw [alts_cons_cons, mem_language_alt, ih, List.exists_mem_cons_iff _ r]

/-- A choice between branches of which no earlier one begins a later one. -/
theorem longest_alts {rs : List Regex} (h : ∀ r ∈ rs, r.isPlain = true ∧ r.Longest)
    (hapart : rs.Pairwise Apart) : (alts rs).Longest := by
  induction hapart with
  | nil => exact (functional_one _).longest
  | @cons r rs hr _ ih =>
      rw [List.forall_mem_cons] at h
      cases rs with
      | nil => exact h.1.2
      | cons s rs =>
          refine .alt h.1.1 (isPlain_alts fun s hs => (h.2 s hs).1) h.1.2 (ih h.2) ?_
          intro u hu v hv
          obtain ⟨t, ht, hv⟩ := mem_language_alts.mp hv
          exact hr t ht u hu v hv

/-! ### Loops -/

section loops

variable {body : Place → List Place} {a b e : Place}

theorem Exhausted.rounds (h : Exhausted body a e) : ∃ n, Rounds body n a e := by
  induction h with
  | stops _ => exact ⟨0, .zero _⟩
  | goesOn hb _ ih =>
      obtain ⟨n, hn⟩ := ih
      exact ⟨n + 1, .succ (List.mem_of_head? hb) hn⟩

variable (hone : ∀ p, ∀ q ∈ body p, ∀ q' ∈ body p, q = q')
include hone

/-- Where there is one way only, rounds from a place stay on the way to the end. -/
theorem Exhausted.of_rounds {n : Nat} (h : Exhausted body a e) (hrun : Rounds body n a b) :
    Exhausted body b e := by
  induction hrun with
  | zero a => exact h
  | succ hb _ ih =>
      cases h with
      | stops hnone => rw [hnone] at hb; cases hb
      | goesOn hb' h => exact ih (hone _ _ (List.mem_of_head? hb') _ hb ▸ h)

theorem Exhausted.after_rounds {n : Nat} (h : Exhausted body b e) (hrun : Rounds body n a b) :
    Exhausted body a e := by
  induction hrun with
  | zero a => exact h
  | @succ n a b c hb _ ih =>
      refine .goesOn ?_ (ih h)
      cases hbody : body a with
      | nil => rw [hbody] at hb; cases hb
      | cons d ds =>
          rw [List.head?_cons, hone a d (by rw [hbody]; exact List.mem_cons_self) b hb]

theorem Exhausted.index_le (hbody : ∀ a, ∀ b ∈ body a, a.Ahead b) {n : Nat}
    (h : Exhausted body a e) (hrun : Rounds body n a b) : b.index ≤ e.index := by
  obtain ⟨m, hm⟩ := (h.of_rounds hone hrun).rounds
  obtain ⟨cs, hcs⟩ := hm.ahead hbody
  rw [Place.index_of_skip? hcs]
  exact Nat.le_add_right _ _

end loops

section bodies

variable {r : Regex} (hplain : r.isPlain = true) (hnullable : r.isNullable = false)
include hplain hnullable

theorem index_lt_of_mem_ends : ∀ a, ∀ b ∈ r.ends a, a.index < b.index :=
  fun a b hb => index_lt_of_stands hnullable ((mem_ends_iff hplain a b).mp hb)

theorem mem_ends_star_iff {p q : Place} : q ∈ r.star.ends p ↔ ∃ n, Rounds r.ends n p q := by
  rw [star, mem_ends_repeated_iff
    (fun _ => ⟨hnullable, index_lt_of_mem_ends hplain hnullable⟩) (by simp)]
  simp

theorem mem_ends_plus_iff {p q : Place} :
    q ∈ r.plus.ends p ↔ ∃ m ∈ r.ends p, ∃ n, Rounds r.ends n m q := by
  rw [plus, mem_ends_repeated_iff
    (fun _ => ⟨hnullable, index_lt_of_mem_ends hplain hnullable⟩) (by simp)]
  constructor
  · rintro ⟨n, hn, -, hrun⟩
    cases hrun with
    | zero => cases hn
    | succ hm hrun => exact ⟨_, hm, _, hrun⟩
  · rintro ⟨m, hm, n, hrun⟩
    exact ⟨n + 1, Nat.le_add_left 1 n, by simp, .succ hm hrun⟩

/-- A loop of one round or more goes on after the preferred first round. -/
theorem exists_exhausted_plus {p m : Place} (hm : r.firstEnd? p = some m) :
    ∃ q, r.plus.firstEnd? p = some q ∧ Exhausted r.ends m q := by
  have hforward := index_lt_of_mem_ends hplain hnullable
  have hbody : ∀ a, ∀ b ∈ r.ends a, index a < index b ∧ b.after.length < a.after.length :=
    fun a b hb => ⟨hforward a b hb, length_after_lt (ahead_of_mem_ends r a b hb) (hforward a b hb)⟩
  obtain ⟨bs, hbs⟩ : ∃ bs, r.ends p = m :: bs := List.head?_eq_some_iff.mp hm
  have hnone : ∀ n ∈ ({} : Loop Place).entered, n < index m := fun _ h => absurd h List.not_mem_nil
  obtain ⟨q, hlast, hchain⟩ := exists_exhausted_climb hbody
    (Nat.le_of_lt (hbody p m (List.mem_of_head? hm)).2) hnone rfl
  refine ⟨q, ?_, hchain⟩
  -- The rounds after other first rounds are found later.
  have hrest := foldl_ends_suffix (climb_ends_suffix some r.ends true p.after)
    (climb some r.ends true p.after {} m) bs
  rw [plus, firstEnd?, ends, if_neg (by simp [hnullable]), head?_distinct, Regex.rounds,
    List.flatMap_singleton, oneOrMore, List.head?_reverse, hbs]
  exact getLast?_of_suffix hrest hlast

theorem Longest.star (h : r.Functional) : r.star.Longest := by
  intro p q hq q' hq'
  have hforward := index_lt_of_mem_ends hplain hnullable
  obtain ⟨e, he, hchain⟩ := exists_exhausted_star hnullable hforward p
  obtain rfl : e = q := Option.some.inj (he.symm.trans hq)
  obtain ⟨n, hrun⟩ := (mem_ends_star_iff hplain hnullable).mp hq'
  exact hchain.index_le h (ahead_of_mem_ends r) hrun

theorem Longest.plus (h : r.Functional) : r.plus.Longest := by
  intro p q hq q' hq'
  obtain ⟨m, hm, n, hrun⟩ := (mem_ends_plus_iff hplain hnullable).mp hq'
  obtain ⟨e, he, hchain⟩ := exists_exhausted_plus hplain hnullable (h.firstEnd? hm)
  obtain rfl : e = q := Option.some.inj (he.symm.trans hq)
  exact hchain.index_le h (ahead_of_mem_ends r) hrun

end bodies

/-- A loop behind a loop whose rounds are rounds of its own: where the first one stops early, the
second one goes the rest of its way. -/
theorem Longest.plus_star {r s : Regex} (hr : r.isPlain = true) (hr' : r.isNullable = false)
    (hs : s.isPlain = true) (hs' : s.isNullable = false) (h : r.Functional) (h' : s.Functional)
    (hrounds : ∀ a, ∀ b ∈ r.ends a, b ∈ s.ends a) : (r.plus.seq s.star).Longest := by
  intro p q hq q' hq'
  have hforward := index_lt_of_mem_ends hs hs'
  have hstar (m : Place) := exists_exhausted_star hs' hforward m
  rw [firstEnd?_seq_of_forall fun m => by
    obtain ⟨e, he, -⟩ := hstar m
    rw [he]
    rfl] at hq
  obtain ⟨m, hm, hq⟩ := Option.bind_eq_some_iff.mp hq
  obtain ⟨e, he, hchain⟩ := hstar m
  obtain rfl : e = q := Option.some.inj (he.symm.trans hq)
  obtain ⟨m', hm', hq'⟩ := List.mem_flatMap.mp (mem_of_mem_distinct hq')
  obtain ⟨n, hrun⟩ := (mem_ends_star_iff hs hs').mp hq'
  -- From where the first loop stopped early, its own rounds lead to where it stopped at last.
  obtain ⟨a, ha, k, hrun'⟩ := (mem_ends_plus_iff hr hr').mp hm'
  obtain ⟨m₁, hm₁, hchain'⟩ := exists_exhausted_plus hr hr' (h.firstEnd? ha)
  obtain rfl : m₁ = m := Option.some.inj (hm₁.symm.trans hm)
  obtain ⟨j, hrest⟩ := (hchain'.of_rounds h hrun').rounds
  exact (hchain.after_rounds h' (hrest.map hrounds)).index_le h' (ahead_of_mem_ends s) hrun

/-! ### What is matched -/

/-- The longest word of a language that begins a text. -/
structure IsLongestPrefix (l : Language Char) (text w : List Char) : Prop where
  mem : w ∈ l
  isPrefix : w <+: text
  longest : ∀ v ∈ l, v <+: text → v.length ≤ w.length

theorem stands_iff {l : Language Char} {p : Place} :
    (∃ q, Stands l p q) ↔ ∃ w ∈ l, w <+: p.after := by
  constructor
  · rintro ⟨q, w, hw, hskip⟩
    exact ⟨w, hw, q.after, (Place.after_of_skip? hskip).symm⟩
  · rintro ⟨w, hw, x, hx⟩
    obtain ⟨q, hskip, -⟩ := Place.exists_skip?_of_after hx.symm
    exact ⟨q, w, hw, hskip⟩

theorem firstEnd?_eq_none_iff {r : Regex} (hplain : r.isPlain = true) (p : Place) :
    r.firstEnd? p = none ↔ ∀ w ∈ r.language, ¬ w <+: p.after := by
  have hends : r.firstEnd? p = none ↔ ¬ ∃ q, q ∈ r.ends p := by
    rw [firstEnd?, List.head?_eq_none_iff, List.eq_nil_iff_forall_not_mem, not_exists]
  simp only [hends, mem_ends_iff hplain, stands_iff, not_exists, not_and]

theorem Longest.firstEnd?_eq_some_iff {r : Regex} (h : r.Longest) (hplain : r.isPlain = true)
    (p q : Place) : r.firstEnd? p = some q ↔
      ∃ w, IsLongestPrefix r.language p.after w ∧ p.skip? w = some q := by
  constructor
  · intro hq
    obtain ⟨w, hw, hskip⟩ := (mem_ends_iff hplain p q).mp (List.mem_of_head? hq)
    refine ⟨w, ⟨hw, ⟨q.after, (Place.after_of_skip? hskip).symm⟩, fun v hv hpre => ?_⟩, hskip⟩
    obtain ⟨x, hx⟩ := hpre
    obtain ⟨q', hskip', -⟩ := Place.exists_skip?_of_after hx.symm
    have hle := h p q hq q' ((mem_ends_iff hplain p q').mpr ⟨v, hv, hskip'⟩)
    rw [Place.index_of_skip? hskip, Place.index_of_skip? hskip'] at hle
    omega
  · rintro ⟨w, hw, hskip⟩
    cases hfirst : r.firstEnd? p with
    | none => exact absurd hw.isPrefix ((firstEnd?_eq_none_iff hplain p).mp hfirst w hw.mem)
    | some m =>
        obtain ⟨v, hv, hskip'⟩ := (mem_ends_iff hplain p m).mp (List.mem_of_head? hfirst)
        have hmem := (mem_ends_iff hplain p q).mpr ⟨w, hw.mem, hskip⟩
        have hle := h p m hfirst q hmem
        have hle' := hw.longest v hv ⟨m.after, (Place.after_of_skip? hskip').symm⟩
        rw [Place.index_of_skip? hskip, Place.index_of_skip? hskip'] at hle
        have hindex : m.index = q.index := by
          rw [Place.index_of_skip? hskip, Place.index_of_skip? hskip']
          omega
        rw [Place.Ahead.eq_of_index ⟨v, hskip'⟩ ⟨w, hskip⟩ hindex]

end Regex

end Nesting
