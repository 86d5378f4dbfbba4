import Nesting.Proofs.Lexer.Closed
import Nesting.Proofs.Regex.LongestMatch

/-! # The longest delimiter wins

The first rule that matches makes the token, and nothing compares the lengths of matches.  Still the
longest delimiter wins (`RuleTable.longestFirst_of_mem`).  The chunk of a rule begins every text
that the rule matches (`Rule.Formed.begins`).  So of the chunks of two rules that match at one place
one begins the other, and in sorted rules the one that goes on comes first
(`Rule.Precedes.begins`). -/

namespace Nesting

namespace Rule

variable {α : Type}

/-! ### Chunks -/

/-- What a rule for an expression matches is the preferred match, unless that is empty. -/
theorem end?_of_pattern {r : Rule α} {regex : Regex} (hr : r.recognizer = .pattern regex)
    {p q : Place} :
    r.end? p = some q ↔ regex.firstEnd? p = some q ∧ p.index < q.index := by
  unfold end?
  rw [hr]
  cases hfirst : regex.firstEnd? p with
  | none => simp [hfirst]
  | some q' =>
      by_cases hlt : p.index < q'.index
      · simp only [hfirst, if_pos hlt, Option.some.injEq]
        exact ⟨fun h => ⟨h, h ▸ hlt⟩, fun h => h.1⟩
      · simp only [hfirst, if_neg hlt, Option.some.injEq, reduceCtorEq, false_iff, not_and]
        exact fun h => h ▸ hlt

theorem end?_eq_firstEnd? {r : Rule α} {regex : Regex} (hplain : regex.isPlain = true)
    (hnullable : regex.isNullable = false) (hr : r.recognizer = .pattern regex) (p : Place) :
    r.end? p = regex.firstEnd? p := by
  rw [end?, hr]
  cases hfirst : regex.firstEnd? p with
  | none => simp [hfirst]
  | some q =>
      have hlt := Regex.index_lt_of_mem_ends hplain hnullable p q (List.mem_of_head? hfirst)
      simp [hfirst, hlt]

/-- A match begins with the chunk of its rule. -/
theorem Formed.begins {r : Rule α} (h : r.Formed) {x : String} (hx : r.chunk = some x)
    {p q : Place} (hend : r.end? p = some q) : x.toList <+: p.after := by
  cases h with
  | @literal name kind text action _ =>
      obtain rfl : text = x := Option.some.inj hx
      exact ⟨q.after, (Place.after_of_skip? hend).symm⟩
  | pattern => cases hx
  | @opened name kind text rest action _ =>
      obtain rfl : text = x := Option.some.inj hx
      have hfirst := ((end?_of_pattern rfl).mp hend).1
      have hmem := Regex.mem_of_mem_distinct (List.mem_of_head? hfirst)
      obtain ⟨m, hm, -⟩ := List.mem_flatMap.mp hmem
      exact ⟨m.after, (Place.after_of_skip? (Option.mem_toList.mp hm)).symm⟩
  | fallback => cases hx

/-- Of two chunks that begin one text, the one that comes first goes on from the other. -/
theorem Precedes.begins {r s : Rule α} (h : r.Precedes s) (hr : r.Ranked) (hs : s.Ranked)
    {x y : String} (hx : r.chunk = some x) (hy : s.chunk = some y) {cs : List Char}
    (hxs : x.toList <+: cs) (hys : y.toList <+: cs) : y.toList <+: x.toList := by
  have hranks : r.rank = s.rank := by
    rw [hr.number.rank_eq_one_iff.mpr (by simp [hx]), hs.number.rank_eq_one_iff.mpr (by simp [hy])]
  have hle : y ≤ x := by
    rcases h with h | ⟨-, h⟩
    · omega
    · simpa [hx, hy] using h
  rcases List.prefix_or_prefix_of_prefix hxs hys with hpre | hpre
  · have hge : x ≤ y := le_of_isPrefixOf (List.isPrefixOf_iff_prefix.mpr hpre)
    obtain rfl := le_antisymm hle hge
    exact List.prefix_rfl
  · exact hpre

/-! ### The first rule that matches -/

theorem first?_eq_some_iff {rules : List (Rule α)} {p q : Place} {r : Rule α} :
    first? rules p = some (r, q) ↔ ∃ earlier later, rules = earlier ++ r :: later ∧
      r.end? p = some q ∧ ∀ s ∈ earlier, s.end? p = none := by
  unfold first?
  rw [List.findSome?_eq_some_iff]
  constructor
  · rintro ⟨earlier, r', later, rfl, hr, hearlier⟩
    obtain ⟨q', hend, he⟩ := Option.map_eq_some_iff.mp hr
    cases he
    exact ⟨earlier, later, rfl, hend, fun s hs => Option.map_eq_none_iff.mp (hearlier s hs)⟩
  · rintro ⟨earlier, later, rfl, hend, hearlier⟩
    refine ⟨earlier, r, later, rfl, by simp [hend], fun s hs => ?_⟩
    rw [hearlier s hs, Option.map_none]

theorem first?_eq_none_iff {rules : List (Rule α)} {p : Place} :
    first? rules p = none ↔ ∀ s ∈ rules, s.end? p = none := by
  simp [first?]

theorem eq_or_rel_of_first? {R : Rule α → Rule α → Prop} {rules : List (Rule α)}
    (h : rules.Pairwise R) {p q : Place} {r s : Rule α} (hfirst : first? rules p = some (r, q))
    (hs : s ∈ rules) (hend : (s.end? p).isSome) : s = r ∨ R r s := by
  obtain ⟨earlier, later, rfl, -, hearlier⟩ := first?_eq_some_iff.mp hfirst
  rcases List.mem_append.mp hs with hs | hs
  · simp [hearlier s hs] at hend
  · rcases List.mem_cons.mp hs with rfl | hs
    · exact .inl rfl
    · exact .inr ((List.pairwise_cons.mp (List.pairwise_append.mp h).2.1).1 s hs)

/-- A rule that is tried before one with a chunk reads numbers or has a chunk as well. -/
theorem Ranked.number_or_chunk {r : Rule α} (h : r.Ranked) (hrank : r.rank ≤ 1) :
    r.kind = .number ∨ ∃ x, r.chunk = some x := by
  by_cases hk : r.kind = .number
  · exact .inl hk
  · have hpos : r.rank ≠ 0 := by
      unfold rank
      rw [if_neg hk]
      split
      · omega
      · split <;> omega
    have hone : r.rank = 1 := by omega
    exact .inr (Option.isSome_iff_exists.mp (h.number.rank_eq_one_iff.mp hone))

/-- Where a rule with a chunk matches, the first rule that matches reads numbers, or its chunk goes
on from the chunks of all rules that match there. -/
def LongestFirst (rules : List (Rule α)) : Prop :=
  ∀ p, (∃ s ∈ rules, s.chunk.isSome ∧ (s.end? p).isSome) →
    ∃ r q, first? rules p = some (r, q) ∧
      (r.kind = .number ∨ ∃ x, r.chunk = some x ∧
        ∀ s ∈ rules, ∀ y, s.chunk = some y → (s.end? p).isSome → y.toList <+: x.toList)

theorem Sorted.longestFirst {rules : List (Rule α)} (h : Sorted rules)
    (hrules : ∀ r ∈ rules, r.Formed) : LongestFirst rules := by
  intro p ⟨s, hs, hchunk, hend⟩
  have hranked := h.sortable.ranked
  cases hfirst : first? rules p with
  | none => simp [first?_eq_none_iff.mp hfirst s hs] at hend
  | some found =>
      obtain ⟨r, q⟩ := found
      obtain ⟨hr, hq⟩ := mem_of_first? hfirst
      refine ⟨r, q, rfl, ?_⟩
      have hrank : r.rank ≤ 1 := by
        rw [← (hranked s hs).number.rank_eq_one_iff.mpr hchunk]
        rcases eq_or_rel_of_first? h.pairwise hfirst hs hend with rfl | hbefore
        · exact le_rfl
        · exact hbefore.rank_le
      rcases (hranked r hr).number_or_chunk hrank with hnumber | ⟨x, hx⟩
      · exact .inl hnumber
      · refine .inr ⟨x, hx, fun u hu y hy hmatch => ?_⟩
        obtain ⟨q', hq'⟩ := Option.isSome_iff_exists.mp hmatch
        rcases eq_or_rel_of_first? h.pairwise hfirst hu hmatch with rfl | hbefore
        · obtain rfl := Option.some.inj (hy.symm.trans hx)
          exact List.prefix_rfl
        · exact hbefore.begins (hranked r hr) (hranked u hu) hx hy ((hrules r hr).begins hx hq)
            ((hrules u hu).begins hy hq')

end Rule

/-! ### Tables -/

theorem Lexicon.HasRule.formed {l : Lexicon} {state : LexState} {r : StateRule}
    (h : l.HasRule state r) : r.Formed := by
  cases h with
  | code _ _ _ _ hformed => exact hformed
  | enterString _ _ => exact .literal (by decide)
  | leaveTemplate _ => exact .literal (by decide)
  | content _ _ _ hformed => exact hformed
  | enterTemplate _ => exact .literal (by decide)
  | reference _ _ _ _ _ hformed => exact hformed
  | leaveString _ => exact .literal (by decide)

/-- A small language with operators and a comment that begin one another. -/
def Lexicon.starred : Lexicon where
  comments := [.line "**#"]
  symbols := "[a-z]+"
  numbers := "[0-9]+"
  operators := ["*", "**", "**="]

namespace RuleTable

variable {l : Lexicon} {table : RuleTable}

theorem formed_of_mem_referenceRules {opening : String} {operators : List String} {symbol : Regex}
    {r : PartRule} (h : r ∈ referenceRules opening operators symbol) : r.Formed := by
  rcases mem_referenceRules.mp h with rfl | rfl | h | rfl
  · exact .literal (by decide)
  · exact .pattern
  · obtain ⟨_, _, _, rfl⟩ := mem_operatorRules h
    exact .literal (by decide)
  · exact .fallback (by decide)

/-- **The longest delimiter wins.**  Let a rule with a chunk match somewhere, among the rules of a
state or those that cut up a reference.  Then the first rule that matches there reads numbers, or
it has a chunk, and the chunks of all rules that match there begin that chunk. -/
theorem longestFirst_of_mem (h : ofLexicon l = .ok table) {state : LexState}
    {rules : List StateRule} (hmem : (state, rules) ∈ table.states) :
    Rule.LongestFirst rules ∧
      ∀ r ∈ rules, ∀ parts, r.action = .split parts → Rule.LongestFirst parts := by
  constructor
  · exact (sorted_of_mem h hmem).longestFirst fun r hr => (hasRule_of_mem_states h hmem hr).formed
  · intro r hr parts hparts
    obtain ⟨_, _, _, hopening, hops, rfl⟩ := referenceRules_of_split h hmem hr hparts
    exact (sorted_referenceRules _ hopening hops).longestFirst fun _ =>
      formed_of_mem_referenceRules

/-- Where three operators match, the longest one is read; where the comment matches, it is. -/
theorem longestFirst_of_mem_starred :
    ∃ table, ofLexicon .starred = .ok table ∧ (.root, table.root) ∈ table.states ∧
      (["**=b", "**#=", "**b"].map fun source =>
        (Rule.first? table.root (.start source.toList)).bind (·.1.chunk)) =
          [some "**=", some "**#", some "**"] ∧
      Rule.LongestFirst table.root ∧
      ∀ r ∈ table.root, ∀ parts, r.action = .split parts → Rule.LongestFirst parts := by
  have run : (fun table : RuleTable => ["**=b", "**#=", "**b"].map fun source =>
        (Rule.first? table.root (.start source.toList)).bind (·.1.chunk)) <$> ofLexicon .starred =
      .ok [some "**=", some "**#", some "**"] := by
    decide +kernel
  obtain ⟨table, h, hchunks⟩ := map_eq_ok_iff.mp run
  have hmem : (.root, table.root) ∈ table.states := mem_states_of_contains (contains_root h)
  exact ⟨table, h, hmem, hchunks, longestFirst_of_mem h hmem⟩

end RuleTable

end Nesting
