import Mathlib.Data.List.Induction
import Mathlib.Data.String.Basic
import Nesting.Proofs.Lexer.Table

/-! # Sorted rules

The order of rules compares a rank first and then the chunks, of which the greater text comes first
(`compareChunks_eq`).  This is one order of all rules, `Rule.Precedes`, as long as the rules that
are ranked by their chunk are the rules that have one (`Rule.ChunkRanked`); then `Rule.sort` sorts
by it (`Rule.sort_pairwise`), and is stable (`Rule.sort_stable`).

Two things follow.  A text comes before its own beginnings, for these are smaller texts
(`Rule.isPrefixOrdered_of_pairwise`), and a single fallback is the last rule
(`Rule.exists_fallback_last`). -/

namespace Nesting

theorem le_of_isPrefixOf {x y : String} (h : x.toList.isPrefixOf y.toList) : x ≤ y := by
  apply le_of_not_gt
  intro hlt
  exact (List.isPrefixOf_iff_prefix.mp h).le (String.lt_iff_toList_lt.mp hlt)

/-- Of two chunks, the greater one comes first: what goes on is greater than where it stops. -/
theorem compareChunks_eq (x y : String) : compareChunks x y = compare y x := by
  unfold compareChunks
  split
  · next heq => rw [heq, compare_eq_iff_eq.mpr rfl]
  · next hne =>
    split
    · next hbegins =>
      have hlt : x < y := lt_of_le_of_ne (le_of_isPrefixOf hbegins) hne
      exact (compare_gt_iff_gt.mpr hlt).symm
    · split
      · next hbegins =>
        have hlt : y < x := lt_of_le_of_ne (le_of_isPrefixOf hbegins) (Ne.symm hne)
        exact (compare_lt_iff_lt.mpr hlt).symm
      · rfl

namespace Rule

variable {α : Type}

/-! ### Ranks -/

/-- A rule whose rank shows whether it has a chunk. -/
def ChunkRanked (r : Rule α) : Prop := r.kind = .number → r.chunk = none

/-- A rule whose rank shows whether it has a chunk and whether it is a fallback. -/
structure Ranked (r : Rule α) : Prop where
  number : r.ChunkRanked
  fallback : r.recognizer = .fallback → r.kind ≠ .number ∧ r.chunk = none

theorem rank_le_three (r : Rule α) : r.rank ≤ 3 := by
  unfold rank
  split
  · omega
  · split
    · omega
    · split <;> omega

theorem ChunkRanked.rank_eq_one_iff {r : Rule α} (h : r.ChunkRanked) :
    r.rank = 1 ↔ r.chunk.isSome := by
  unfold rank
  split
  · next hk => simp [h hk]
  · split
    · next hchunk => simp [hchunk]
    · next hchunk => split <;> simp [hchunk]

theorem Ranked.rank_eq_three_iff {r : Rule α} (h : r.Ranked) :
    r.rank = 3 ↔ r.recognizer = .fallback := by
  constructor
  · intro hrank
    unfold rank at hrank
    split at hrank
    · omega
    · split at hrank
      · omega
      · split at hrank
        · assumption
        · omega
  · intro hfallback
    obtain ⟨hk, hchunk⟩ := h.fallback hfallback
    simp [rank, hk, hchunk, hfallback]

/-! ### The order -/

/-- A rule that may be tried before another: its rank is lower, or it is the same and its chunk is
not smaller. -/
def Precedes (r s : Rule α) : Prop :=
  r.rank < s.rank ∨ (r.rank = s.rank ∧ s.chunk.getD "" ≤ r.chunk.getD "")

theorem Precedes.rank_le {r s : Rule α} (h : r.Precedes s) : r.rank ≤ s.rank := by
  rcases h with h | h
  · exact h.le
  · exact h.1.le

theorem Precedes.trans {r s u : Rule α} (h : r.Precedes s) (h' : s.Precedes u) :
    r.Precedes u := by
  rcases h with h | ⟨h, hchunk⟩
  · exact .inl (h.trans_le h'.rank_le)
  · rcases h' with h' | ⟨h', hchunk'⟩
    · exact .inl (h ▸ h')
    · exact .inr ⟨h.trans h', hchunk'.trans hchunk⟩

theorem precedes_total (r s : Rule α) : r.Precedes s ∨ s.Precedes r := by
  rcases lt_trichotomy r.rank s.rank with h | h | h
  · exact .inl (.inl h)
  · rcases le_total (s.chunk.getD "") (r.chunk.getD "") with hchunk | hchunk
    · exact .inl (.inr ⟨h, hchunk⟩)
    · exact .inr (.inr ⟨h.symm, hchunk⟩)
  · exact .inr (.inl h)

theorem order_eq_lt_iff {r s : Rule α} (hr : r.ChunkRanked) (hs : s.ChunkRanked) :
    r.order s = .lt ↔ ¬ s.Precedes r := by
  unfold order Precedes
  rw [Ordering.then_eq_lt, compare_lt_iff_lt, compare_eq_iff_eq]
  by_cases hrank : r.rank = s.rank
  · -- Rules of one rank both have a chunk, or neither has one.
    have hboth : r.chunk.isSome ↔ s.chunk.isSome := by
      rw [← hr.rank_eq_one_iff, ← hs.rank_eq_one_iff, hrank]
    cases hx : r.chunk with
    | none =>
        have hy : s.chunk = none := by
          rw [hx] at hboth
          simpa using hboth
        simp [hrank, hy]
    | some x =>
        obtain ⟨y, hy⟩ : ∃ y, s.chunk = some y :=
          Option.isSome_iff_exists.mp (hboth.mp (by simp [hx]))
        simp [hrank, hy, compareChunks_eq, compare_lt_iff_lt]
  · have hrank' : s.rank ≠ r.rank := Ne.symm hrank
    simp only [hrank, hrank', false_and, or_false]
    omega

/-! ### Sorting -/

theorem insertFalling_pairwise {r : Rule α} {rules : List (Rule α)} (hr : r.ChunkRanked)
    (hrules : ∀ s ∈ rules, s.ChunkRanked) (h : rules.Pairwise fun s u => u.Precedes s) :
    (insertFalling r rules).Pairwise fun s u => u.Precedes s := by
  induction rules with
  | nil => exact List.pairwise_singleton _ r
  | cons s rest ih =>
      obtain ⟨hs, hrest⟩ := List.forall_mem_cons.mp hrules
      obtain ⟨hbehind, hsorted⟩ := List.pairwise_cons.mp h
      rw [insertFalling]
      split
      · next horder =>
        have hafter : r.Precedes s :=
          (precedes_total r s).resolve_right ((order_eq_lt_iff hr hs).mp horder)
        refine List.pairwise_cons.mpr ⟨fun u hu => ?_, ih hrest hsorted⟩
        rcases List.mem_cons.mp ((insertFalling_perm r rest).mem_iff.mp hu) with rfl | hu
        · exact hafter
        · exact hbehind u hu
      · next horder =>
        have hbefore : s.Precedes r := not_not.mp (mt (order_eq_lt_iff hr hs).mpr horder)
        refine List.pairwise_cons.mpr ⟨fun u hu => ?_, h⟩
        rcases List.mem_cons.mp hu with rfl | hu
        · exact hbefore
        · exact (hbehind u hu).trans hbefore

/-- Sorted rules are in order. -/
theorem sort_pairwise {rules : List (Rule α)} (hrules : ∀ r ∈ rules, r.ChunkRanked) :
    (sort rules).Pairwise Precedes := by
  have step (rules sorted : List (Rule α)) (hrules : ∀ r ∈ rules, r.ChunkRanked)
      (hsorted : ∀ r ∈ sorted, r.ChunkRanked) (h : sorted.Pairwise fun s u => u.Precedes s) :
      (rules.foldl (fun sorted r => insertFalling r sorted) sorted).Pairwise
        fun s u => u.Precedes s := by
    induction rules generalizing sorted with
    | nil => exact h
    | cons r rest ih =>
        obtain ⟨hr, hrest⟩ := List.forall_mem_cons.mp hrules
        refine ih (insertFalling r sorted) hrest (fun s hs => ?_)
          (insertFalling_pairwise hr hsorted h)
        rcases List.mem_cons.mp ((insertFalling_perm r sorted).mem_iff.mp hs) with rfl | hs
        · exact hr
        · exact hsorted s hs
  exact List.pairwise_reverse.mpr (step rules [] hrules (by simp) List.Pairwise.nil)

/-- One more rule goes in front of the rules that it strictly precedes, and behind all others. -/
theorem exists_sort_concat {rules : List (Rule α)} {r : Rule α} (hr : r.ChunkRanked)
    (hrules : ∀ s ∈ rules, s.ChunkRanked) :
    ∃ before behind, sort rules = before ++ behind ∧ sort (rules ++ [r]) = before ++ r :: behind ∧
      (∀ s ∈ before, s.Precedes r) ∧ ∀ s ∈ behind, ¬ s.Precedes r := by
  have insert {falling : List (Rule α)} (hfalling : ∀ s ∈ falling, s.ChunkRanked)
      (h : falling.Pairwise fun s u => u.Precedes s) :
      ∃ above below, falling = above ++ below ∧ insertFalling r falling = above ++ r :: below ∧
        (∀ s ∈ above, ¬ s.Precedes r) ∧ ∀ s ∈ below, s.Precedes r := by
    induction falling with
    | nil => exact ⟨[], [], rfl, rfl, List.forall_mem_nil _, List.forall_mem_nil _⟩
    | cons s rest ih =>
        obtain ⟨hs, hrest⟩ := List.forall_mem_cons.mp hfalling
        obtain ⟨hbehind, hsorted⟩ := List.pairwise_cons.mp h
        rw [insertFalling]
        split
        · next horder =>
          obtain ⟨above, below, rfl, hinsert, habove, hbelow⟩ := ih hrest hsorted
          refine ⟨s :: above, below, rfl, by rw [hinsert, List.cons_append], ?_, hbelow⟩
          exact List.forall_mem_cons.mpr ⟨(order_eq_lt_iff hr hs).mp horder, habove⟩
        · next horder =>
          have hbefore : s.Precedes r := not_not.mp (mt (order_eq_lt_iff hr hs).mpr horder)
          refine ⟨[], s :: rest, rfl, rfl, List.forall_mem_nil _,
            List.forall_mem_cons.mpr ⟨hbefore, ?_⟩⟩
          exact fun u hu => (hbehind u hu).trans hbefore
  have hfalling : ∀ s ∈ (sort rules).reverse, s.ChunkRanked :=
    fun s hs => hrules s (mem_sort.mp (List.mem_reverse.mp hs))
  obtain ⟨above, below, hsplit, hinsert, habove, hbelow⟩ :=
    insert hfalling (List.pairwise_reverse.mpr (sort_pairwise hrules))
  have hconcat : sort (rules ++ [r]) = (insertFalling r (sort rules).reverse).reverse := by
    simp [sort, List.foldl_append]
  refine ⟨below.reverse, above.reverse, ?_, ?_, ?_, ?_⟩
  · rw [← List.reverse_append, ← hsplit, List.reverse_reverse]
  · rw [hconcat, hinsert, List.reverse_append, List.reverse_cons, List.append_assoc,
      List.singleton_append]
  · exact fun s hs => hbelow s (List.mem_reverse.mp hs)
  · exact fun s hs => habove s (List.mem_reverse.mp hs)

/-- Sorting leaves sorted rules as they are. -/
theorem sort_eq_self {rules : List (Rule α)} (hrules : ∀ r ∈ rules, r.ChunkRanked)
    (h : rules.Pairwise Precedes) : sort rules = rules := by
  induction rules using List.reverseRecOn with
  | nil => rfl
  | append_singleton rules r ih =>
      obtain ⟨hrules, hr⟩ := List.forall_mem_append.mp hrules
      obtain ⟨hsorted, -, hlast⟩ := List.pairwise_append.mp h
      obtain ⟨before, behind, hsplit, hconcat, -, hbehind⟩ :=
        exists_sort_concat (List.forall_mem_singleton.mp hr) hrules
      rw [ih hrules hsorted] at hsplit
      have hnone : behind = [] := by
        rw [List.eq_nil_iff_forall_not_mem]
        intro s hs
        refine hbehind s hs (hlast s ?_ r (List.mem_singleton_self r))
        rw [hsplit]
        exact List.mem_append_right before hs
      rw [hconcat, hsplit, hnone, List.append_nil]

theorem precedes_congr {r s : Rule α} (hrank : r.rank = s.rank) (hchunk : r.chunk = s.chunk)
    (u : Rule α) : (u.Precedes r ↔ u.Precedes s) ∧ (r.Precedes u ↔ s.Precedes u) := by
  unfold Precedes
  rw [hrank, hchunk]
  exact ⟨Iff.rfl, Iff.rfl⟩

theorem pairwise_replaced {before behind : List (Rule α)} {r s : Rule α} (hrank : r.rank = s.rank)
    (hchunk : r.chunk = s.chunk) (h : (before ++ r :: behind).Pairwise Precedes) :
    (before ++ s :: behind).Pairwise Precedes := by
  obtain ⟨hbefore, hright, hcross⟩ := List.pairwise_append.mp h
  obtain ⟨hfirst, hbehind⟩ := List.pairwise_cons.mp hright
  refine List.pairwise_append.mpr ⟨hbefore, List.pairwise_cons.mpr ⟨?_, hbehind⟩, ?_⟩
  · exact fun u hu => (precedes_congr hrank hchunk u).2.mp (hfirst u hu)
  · intro t ht u hu
    rcases List.mem_cons.mp hu with rfl | hu
    · exact (precedes_congr hrank hchunk t).1.mp (hcross t ht r List.mem_cons_self)
    · exact hcross t ht u (List.mem_cons_of_mem r hu)

/-- Sorting is stable: what holds of every two rules in their order still holds of those that may
stand in either order. -/
theorem sort_stable {R : Rule α → Rule α → Prop} {rules : List (Rule α)}
    (hrules : ∀ r ∈ rules, r.ChunkRanked) (h : rules.Pairwise R) :
    (sort rules).Pairwise fun r s => s.Precedes r → R r s := by
  induction rules using List.reverseRecOn with
  | nil => exact List.Pairwise.nil
  | append_singleton rules r ih =>
      obtain ⟨hrules, hr⟩ := List.forall_mem_append.mp hrules
      obtain ⟨hpairs, -, hlast⟩ := List.pairwise_append.mp h
      obtain ⟨before, behind, hsplit, hconcat, -, hbehind⟩ :=
        exists_sort_concat (List.forall_mem_singleton.mp hr) hrules
      have hold := ih hrules hpairs
      rw [hsplit, List.pairwise_append] at hold
      obtain ⟨hbefore, hafter, hcross⟩ := hold
      rw [hconcat, List.pairwise_append, List.pairwise_cons]
      refine ⟨hbefore, ⟨fun s hs hprecedes => absurd hprecedes (hbehind s hs), hafter⟩, ?_⟩
      intro s hs u hu
      rcases List.mem_cons.mp hu with rfl | hu
      · have hmem : s ∈ rules := mem_sort.mp (hsplit ▸ List.mem_append_left behind hs)
        exact fun _ => hlast s hmem u (List.mem_singleton_self u)
      · exact hcross s hs u hu

/-! ### What the order gives -/

/-- Of rules in order, none hides a longer chunk behind a beginning of it. -/
theorem isPrefixOrdered_of_pairwise {rules : List (Rule α)} (hrules : ∀ r ∈ rules, r.ChunkRanked)
    (h : rules.Pairwise Precedes) : isPrefixOrdered rules := by
  induction rules with
  | nil => rfl
  | cons r rest ih =>
      obtain ⟨hr, hrest⟩ := List.forall_mem_cons.mp hrules
      obtain ⟨hbehind, hsorted⟩ := List.pairwise_cons.mp h
      rw [isPrefixOrdered, Bool.and_eq_true]
      refine ⟨?_, ih hrest hsorted⟩
      cases hshort : r.chunk with
      | none => rfl
      | some short =>
          rw [List.all_eq_true]
          intro s hs
          cases hlong : s.chunk with
          | none => rfl
          | some long =>
              have hrank : r.rank = s.rank := by
                rw [hr.rank_eq_one_iff.mpr (by simp [hshort]),
                  (hrest s hs).rank_eq_one_iff.mpr (by simp [hlong])]
              have hle : long ≤ short := by
                rcases hbehind s hs with hlt | ⟨-, hle⟩
                · omega
                · simpa [hshort, hlong] using hle
              by_cases hbegins : short.toList.isPrefixOf long.toList
              · simp [le_antisymm hle (le_of_isPrefixOf hbegins)]
              · simp [hbegins]

/-- A rule that takes any one character. -/
def isFallback (r : Rule α) : Bool := r.recognizer = .fallback

/-- If one of the rules is a fallback, then it is the last one. -/
theorem exists_fallback_last {rules : List (Rule α)} (hrules : ∀ r ∈ rules, r.Ranked)
    (h : rules.Pairwise Precedes) (hone : rules.countP isFallback = 1) :
    ∃ earlier last, rules = earlier ++ [last] ∧ last.recognizer = .fallback ∧
      ∀ r ∈ earlier, r.recognizer ≠ .fallback := by
  have hsome : 0 < rules.countP isFallback := by omega
  obtain ⟨last, hmem, hlast⟩ := List.countP_pos_iff.mp hsome
  obtain ⟨earlier, later, rfl⟩ := List.append_of_mem hmem
  have hlast' : last.recognizer = .fallback := of_decide_eq_true hlast
  have hcounts : earlier.countP isFallback = 0 ∧ later.countP isFallback = 0 := by
    rw [List.countP_append, List.countP_cons_of_pos hlast] at hone
    omega
  have none_of_zero {rest : List (Rule α)} (h : rest.countP isFallback = 0) (r : Rule α)
      (hr : r ∈ rest) : r.recognizer ≠ .fallback :=
    fun hfallback => List.countP_eq_zero.mp h r hr (decide_eq_true hfallback)
  have hlater : later = [] := by
    rw [List.eq_nil_iff_forall_not_mem]
    intro r hr
    have hrmem : r ∈ earlier ++ last :: later :=
      List.mem_append_right earlier (List.mem_cons_of_mem last hr)
    have hle : last.rank ≤ r.rank :=
      ((List.pairwise_cons.mp (List.pairwise_append.mp h).2.1).1 r hr).rank_le
    have hrank : r.rank = 3 := by
      have := r.rank_le_three
      have := (hrules last hmem).rank_eq_three_iff.mpr hlast'
      omega
    exact none_of_zero hcounts.2 r hr ((hrules r hrmem).rank_eq_three_iff.mp hrank)
  exact ⟨earlier, last, by rw [hlater], hlast', none_of_zero hcounts.1⟩

end Rule

end Nesting
