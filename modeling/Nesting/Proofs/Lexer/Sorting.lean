import Mathlib.Data.List.Perm.Basic
import Nesting.Proofs.Lexer.Closed

/-! # What sorting makes of rules

If no rule for numbers has a chunk, then the comparison of rules is a total preorder
(`Rule.transCmp_order`), and sorting is a stable sort by it: the rules stay the same, none is
greater than one behind it, and those that compare equal keep their order (`Rule.IsStableSort`).
So sorted rules lie in four layers (`Rule.InLayers`), of which only the second one, the rules with
a chunk, is in an order that differs from the one in which the rules were given.

Stability rests on one fact: sorting keeps the order of any rules that may stand in either order
(`Rule.filter_sort`). -/

namespace Nesting

namespace Rule

variable {α : Type}

/-! ### The comparison -/

theorem order_swap (r s : Rule α) : (r.order s).swap = s.order r := by
  rw [order, order, Ordering.swap_then, ← Std.OrientedCmp.eq_swap]
  cases r.chunk with
  | none => cases s.chunk <;> rfl
  | some x =>
      cases s.chunk with
      | none => rfl
      | some y =>
          simp only [compareChunks_eq]
          rw [← Std.OrientedCmp.eq_swap]

/-- A rule is not greater than those it may precede. -/
theorem isLE_order_iff {r s : Rule α} (hr : r.ChunkRanked) (hs : s.ChunkRanked) :
    (r.order s).isLE ↔ r.Precedes s := by
  rw [← not_iff_not, ← order_eq_lt_iff hs hr, ← order_swap s r]
  cases s.order r <;> decide

theorem order_eq_eq_iff {r s : Rule α} (hr : r.ChunkRanked) (hs : s.ChunkRanked) :
    r.order s = .eq ↔ r.Precedes s ∧ s.Precedes r := by
  rw [← isLE_order_iff hr hs, ← isLE_order_iff hs hr, ← order_swap r s]
  cases r.order s <;> decide

/-- The comparison of rules is a total preorder. -/
theorem transCmp_order :
    Std.TransCmp fun r s : { r : Rule α // r.ChunkRanked } => r.1.order s.1 where
  eq_swap {r s} := (order_swap s.1 r.1).symm
  isLE_trans {r s u} h h' := by
    rw [isLE_order_iff r.2 s.2] at h
    rw [isLE_order_iff s.2 u.2] at h'
    exact (isLE_order_iff r.2 u.2).mpr (h.trans h')

/-! ### Stability -/

/-- Rules in another order: none is greater than one behind it, and those that compare equal stand
as they were given. -/
structure IsStableSort (rules sorted : List (Rule α)) : Prop where
  perm : sorted.Perm rules
  nondecreasing : sorted.Pairwise fun r s => (r.order s).isLE
  stable : ∀ r ∈ rules, sorted.filter (r.order · = .eq) = rules.filter (r.order · = .eq)

/-- Sorting keeps the order of rules that may stand in either order. -/
theorem filter_sort {p : Rule α → Bool} {rules : List (Rule α)}
    (hrules : ∀ r ∈ rules, r.ChunkRanked)
    (hp : ∀ r ∈ rules, ∀ s ∈ rules, p r → p s → r.Precedes s) :
    (sort rules).filter p = rules.filter p := by
  induction rules using List.reverseRecOn with
  | nil => rfl
  | append_singleton rules r ih =>
      obtain ⟨hrules, hr⟩ := List.forall_mem_append.mp hrules
      obtain ⟨before, behind, hsplit, hconcat, -, hbehind⟩ :=
        exists_sort_concat (List.forall_mem_singleton.mp hr) hrules
      have ih := ih hrules fun s hs u hu =>
        hp s (List.mem_append_left [r] hs) u (List.mem_append_left [r] hu)
      rw [hsplit, List.filter_append] at ih
      rw [hconcat, List.filter_append, List.filter_append, ← ih]
      by_cases hpr : p r
      · -- What stands behind the new rule is strictly greater.
        have hnone : behind.filter p = [] := by
          rw [List.filter_eq_nil_iff]
          intro s hs hps
          have hmem : s ∈ rules := mem_sort.mp (hsplit ▸ List.mem_append_right before hs)
          exact hbehind s hs (hp s (List.mem_append_left [r] hmem) r (by simp) hps hpr)
        rw [List.filter_cons_of_pos hpr, hnone, List.append_nil, List.filter_cons_of_pos hpr,
          List.filter_nil]
      · rw [List.filter_cons_of_neg hpr, List.filter_cons_of_neg hpr, List.filter_nil,
          List.append_nil]

theorem isStableSort_sort {rules : List (Rule α)} (hrules : ∀ r ∈ rules, r.ChunkRanked) :
    IsStableSort rules (sort rules) where
  perm := sort_perm rules
  nondecreasing := by
    refine (sort_pairwise hrules).imp_of_mem fun hr hs hprecedes => ?_
    exact (isLE_order_iff (hrules _ (mem_sort.mp hr)) (hrules _ (mem_sort.mp hs))).mpr hprecedes
  stable r hr := by
    refine filter_sort hrules fun s hs u hu hrs hru => ?_
    have hsr := ((order_eq_eq_iff (hrules r hr) (hrules s hs)).mp (of_decide_eq_true hrs)).2
    have hru := ((order_eq_eq_iff (hrules r hr) (hrules u hu)).mp (of_decide_eq_true hru)).1
    exact hsr.trans hru

/-! ### Layers -/

/-- A rule without a chunk, for anything but numbers. -/
def isBare (r : Rule α) : Bool := r.kind ≠ .number && r.chunk.isNone

/-- Rules in four layers: those for numbers; those with a chunk, the greater chunk first; and those
without one, fallbacks at the end.  In all layers but the second one they stand as they were
given. -/
def InLayers (rules sorted : List (Rule α)) : Prop :=
  ∃ chunked, chunked.Perm (rules.filter (·.chunk.isSome)) ∧
    (chunked.Pairwise fun r s => ∀ x ∈ r.chunk, ∀ y ∈ s.chunk, y ≤ x) ∧
    sorted = rules.filter (·.kind = .number) ++ chunked ++
      rules.filter (fun r => r.isBare && !r.isFallback) ++
      rules.filter fun r => r.isBare && r.isFallback

theorem rank_eq_zero_iff {r : Rule α} : r.rank = 0 ↔ r.kind = .number := by
  unfold rank
  split
  · next hk => simp [hk]
  · next hk =>
    split
    · simp [hk]
    · split <;> simp [hk]

theorem rank_of_bare (r : Rule α) :
    (r.rank = 2 ↔ r.isBare && !r.isFallback) ∧ (r.rank = 3 ↔ r.isBare && r.isFallback) := by
  unfold rank isBare isFallback
  split
  · next hk => simp [hk]
  · next hk =>
    split
    · next hchunk => simp [Option.isSome_iff_ne_none.mp hchunk]
    · next hchunk => split <;> simp_all

/-- Of rules whose ranks rise, those from a rank on begin with those of that rank. -/
theorem filter_le_rank {rules : List (Rule α)} (h : rules.Pairwise fun r s => r.rank ≤ s.rank)
    (n : Nat) :
    rules.filter (n ≤ ·.rank) = rules.filter (·.rank = n) ++ rules.filter (n + 1 ≤ ·.rank) := by
  induction rules with
  | nil => rfl
  | cons r rest ih =>
      obtain ⟨hbehind, hrest⟩ := List.pairwise_cons.mp h
      have ih := ih hrest
      rcases lt_trichotomy r.rank n with hr | hr | hr
      · rwa [List.filter_cons_of_neg (by simpa using hr),
          List.filter_cons_of_neg (by simpa using hr.ne),
          List.filter_cons_of_neg (by simpa using Nat.lt_succ_of_lt hr)]
      · rw [List.filter_cons_of_pos (by simp [hr]), List.filter_cons_of_pos (by simp [hr]),
          List.filter_cons_of_neg (by simp [hr]), ih, List.cons_append]
      · have hlater : ∀ s ∈ r :: rest, n + 1 ≤ s.rank :=
          List.forall_mem_cons.mpr ⟨hr, fun s hs => hr.trans_le (hbehind s hs)⟩
        rw [List.filter_eq_self.mpr fun s hs => decide_eq_true (Nat.le_of_succ_le (hlater s hs)),
          List.filter_eq_nil_iff.mpr fun s hs => by
            simpa using (Nat.lt_of_succ_le (hlater s hs)).ne',
          List.filter_eq_self.mpr fun s hs => decide_eq_true (hlater s hs), List.nil_append]

/-- Rules whose ranks rise, rank by rank. -/
theorem eq_filter_ranks {rules : List (Rule α)} (h : rules.Pairwise fun r s => r.rank ≤ s.rank) :
    rules = rules.filter (·.rank = 0) ++ rules.filter (·.rank = 1) ++ rules.filter (·.rank = 2) ++
      rules.filter (·.rank = 3) := by
  have hall : rules.filter (0 ≤ ·.rank) = rules := List.filter_eq_self.mpr fun r _ => by simp
  have hnone : rules.filter (4 ≤ ·.rank) = [] := by
    rw [List.filter_eq_nil_iff]
    intro r _
    have := r.rank_le_three
    simp only [decide_eq_true_eq]
    omega
  calc rules = rules.filter (0 ≤ ·.rank) := hall.symm
    _ = _ := by
      rw [filter_le_rank h 0, filter_le_rank h 1, filter_le_rank h 2, filter_le_rank h 3, hnone,
        List.append_nil, List.append_assoc, List.append_assoc]

theorem filter_rank_sort {rules : List (Rule α)} (hrules : ∀ r ∈ rules, r.ChunkRanked) {n : Nat}
    (hn : n ≠ 1) : (sort rules).filter (·.rank = n) = rules.filter (·.rank = n) := by
  refine filter_sort hrules fun r hr s hs hrank hrank' => ?_
  have hrank := of_decide_eq_true hrank
  have hrank' := of_decide_eq_true hrank'
  have hnone {u : Rule α} (hu : u ∈ rules) (h : u.rank = n) : u.chunk = none := by
    rw [← Option.not_isSome_iff_eq_none, ← (hrules u hu).rank_eq_one_iff, h]
    exact hn
  exact .inr ⟨hrank.trans hrank'.symm, by rw [hnone hr hrank, hnone hs hrank']⟩

theorem Precedes.chunk_le {r s : Rule α} (h : r.Precedes s) (hr : r.ChunkRanked)
    (hs : s.ChunkRanked) : ∀ x ∈ r.chunk, ∀ y ∈ s.chunk, y ≤ x := by
  intro x hx y hy
  have hrank : r.rank = 1 := hr.rank_eq_one_iff.mpr (Option.isSome_of_mem hx)
  have hrank' : s.rank = 1 := hs.rank_eq_one_iff.mpr (Option.isSome_of_mem hy)
  obtain ⟨-, hle⟩ := h.resolve_left (by omega)
  rwa [Option.mem_def.mp hx, Option.mem_def.mp hy] at hle

theorem inLayers_sort {rules : List (Rule α)} (hrules : ∀ r ∈ rules, r.ChunkRanked) :
    InLayers rules (sort rules) := by
  have hsorted := sort_pairwise hrules
  have hranked : ∀ r ∈ sort rules, r.ChunkRanked := fun r hr => hrules r (mem_sort.mp hr)
  have hchunked : (sort rules).filter (·.rank = 1) = (sort rules).filter (·.chunk.isSome) :=
    List.filter_congr fun r hr => by
      rw [Bool.eq_iff_iff, decide_eq_true_iff]
      exact (hranked r hr).rank_eq_one_iff
  refine ⟨(sort rules).filter (·.chunk.isSome), (sort_perm rules).filter _, ?_, ?_⟩
  · refine List.Pairwise.filter _ (hsorted.imp_of_mem fun hr hs hprecedes => ?_)
    exact hprecedes.chunk_le (hranked _ hr) (hranked _ hs)
  · have hbody := eq_filter_ranks (hsorted.imp fun h => h.rank_le)
    rw [filter_rank_sort hrules (by decide), hchunked, filter_rank_sort hrules (by decide),
      filter_rank_sort hrules (by decide)] at hbody
    simpa only [rank_eq_zero_iff, rank_of_bare, Bool.decide_coe] using hbody

/-- Rules that come of sorting rules whose ranks show which of them have a chunk. -/
def SortedByChunk (rules : List (Rule α)) : Prop :=
  ∃ unsorted, rules = sort unsorted ∧ ∀ r ∈ unsorted, r.ChunkRanked

theorem sortedByChunk_concat {specific : List (Rule α)} (h : ∀ r ∈ specific, r.Specific)
    {name : String} {kind : TokenKind} {action : α} :
    SortedByChunk (sort (specific ++ [fallback name kind action])) := by
  refine ⟨_, rfl, List.forall_mem_append.mpr ⟨fun r hr => (h r hr).number, ?_⟩⟩
  exact List.forall_mem_singleton.mpr fun _ => rfl

theorem SortedByChunk.chunkRanked {rules : List (Rule α)} (h : SortedByChunk rules) :
    ∀ r ∈ rules, r.ChunkRanked := by
  obtain ⟨unsorted, rfl, hunsorted⟩ := h
  exact fun r hr => hunsorted r (mem_sort.mp hr)

end Rule

namespace RuleTable

/-- All rules that are sorted for the states and the references of a lexicon, whether or not the
lexicon has a table in the end. -/
structure SortsByChunk (l : Lexicon) : Prop where
  root : ∀ rules, rootRules l = .ok rules → Rule.SortedByChunk rules
  template : ∀ rules, rootRules l = .ok rules → ∀ state closing,
    Rule.SortedByChunk (templateRules rules state closing)
  string : ∀ i s rules, stringRules i s = .ok rules → Rule.SortedByChunk rules
  reference : ∀ opening operators symbol,
    Rule.SortedByChunk (referenceRules opening operators symbol)

theorem sortsByChunk (l : Lexicon) : SortsByChunk l := by
  have hroot {rules : List StateRule} (h : rootRules l = .ok rules) :
      Rule.SortedByChunk rules := by
    obtain ⟨specific, rfl, hspecific⟩ := exists_unsorted_rootRules h
    exact Rule.sortedByChunk_concat hspecific
  refine ⟨fun rules h => hroot h, fun rules h state closing => ⟨_, rfl, fun r hr => ?_⟩,
    fun i s rules h => ?_, fun opening operators symbol => ?_⟩
  · rcases mem_replaceLiteral hr with rfl | hr
    · exact fun hk => by cases hk
    · exact (hroot h).chunkRanked r hr
  · obtain ⟨specific, rfl, hspecific⟩ := exists_unsorted_stringRules h
    exact Rule.sortedByChunk_concat hspecific
  · obtain ⟨specific, heq, hspecific⟩ := exists_unsorted_referenceRules opening operators symbol
    exact heq ▸ Rule.sortedByChunk_concat hspecific

/-- **Sorting is stable, by a total preorder.**  Let no rule for numbers have a chunk, as it is for
all rules that are sorted for a table.  Then sorting moves no rule in front of a greater one or of
an equal one that was given first, so the rules lie in layers: numbers, falling chunks, plain
patterns, fallbacks.  No chunk hides a longer one, and sorting again changes nothing. -/
theorem sorts_stably {α : Type} {rules : List (Rule α)} (hrules : ∀ r ∈ rules, r.ChunkRanked) :
    Rule.IsStableSort rules (Rule.sort rules) ∧ Rule.InLayers rules (Rule.sort rules) ∧
      Rule.isPrefixOrdered (Rule.sort rules) ∧ Rule.sort (Rule.sort rules) = Rule.sort rules ∧
      Std.TransCmp (fun r s : { r : Rule α // r.ChunkRanked } => r.1.order s.1) ∧
      ∀ l, SortsByChunk l := by
  have hsorted : ∀ r ∈ Rule.sort rules, r.ChunkRanked := fun r hr => hrules r (Rule.mem_sort.mp hr)
  have hpairs : (Rule.sort rules).Pairwise Rule.Precedes := Rule.sort_pairwise hrules
  exact ⟨Rule.isStableSort_sort hrules, Rule.inLayers_sort hrules,
    Rule.isPrefixOrdered_of_pairwise hsorted hpairs, Rule.sort_eq_self hsorted hpairs,
    Rule.transCmp_order, sortsByChunk⟩

/-- Rules of all four layers, among them two with one chunk and a fallback with a chunk. -/
def mixedRules : List PartRule :=
  [.fallback "unknown" .unknown (), .pattern "newline" .newline LexRegex.newline (),
   .literal "star" .operator "*" (), .pattern "word" .symbol (.ofText "a") (),
   (Rule.fallback "escape" .stringValue ()).withChunk "**",
   (Rule.pattern "comment" .comment (LexRegex.comment (.line "*")) ()).withChunk "*",
   .literal "power" .operator "**=" (), .pattern "digit" .number (.ofText "1") ()]

theorem sorts_stably_mixedRules :
    (∀ r ∈ mixedRules, r.ChunkRanked) ∧
      (Rule.sort mixedRules).map (·.name) =
        ["digit", "power", "escape", "star", "comment", "newline", "word", "unknown"] ∧
      Rule.IsStableSort mixedRules (Rule.sort mixedRules) ∧
      Rule.InLayers mixedRules (Rule.sort mixedRules) ∧
      Rule.isPrefixOrdered (Rule.sort mixedRules) := by
  have hrules : ∀ r ∈ mixedRules, r.ChunkRanked := by
    unfold Rule.ChunkRanked
    decide
  obtain ⟨hstable, hlayers, hprefixes, -⟩ := sorts_stably hrules
  exact ⟨hrules, by decide +kernel, hstable, hlayers, hprefixes⟩

end RuleTable

end Nesting
