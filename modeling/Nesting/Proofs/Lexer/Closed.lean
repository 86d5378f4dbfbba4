import Nesting.Proofs.Lexer.Order
import Nesting.Proofs.Lexer.Runs

/-! # Tables that always make progress

The rules of every state of a table that was built, and the rules of every reference, are complete
(`Rule.IsComplete`): they stand in their order, their last one takes any one character, and no match
is empty.  Every state that a rule enters is in the table.  So a table is a closed automaton
(`RuleTable.IsClosed`), and a run over a source finds a rule wherever there is text, and ends
(`RuleTable.progresses_ofLexicon`).

Rules are complete if they are sorted and were sortable (`Rule.Sorted.isComplete`): the lists of
rules that are made for the states are, with their one fallback at the end, and replacing or adding
the rule that closes a template keeps them so (`Rule.Sortable.replaceLiteral`). -/

namespace Nesting

namespace Rule

variable {α : Type}

/-! ### Complete rules -/

/-- Rules in their order, of which one always matches, and none matches the empty text. -/
structure IsComplete (rules : List (Rule α)) : Prop where
  ranked : rules.Pairwise fun r s => r.rank ≤ s.rank
  prefixOrdered : isPrefixOrdered rules
  /-- The last rule, and no other one, is a fallback. -/
  fallback : ∃ earlier last, rules = earlier ++ [last] ∧ last.recognizer = .fallback ∧
    ∀ r ∈ earlier, r.recognizer ≠ .fallback
  /-- A match is at least one byte long. -/
  progress : ∀ r ∈ rules, ∀ p n, r.matchLength? p = some n → 1 ≤ n

/-- Rules that sorting makes complete. -/
structure Sortable (rules : List (Rule α)) : Prop where
  ranked : ∀ r ∈ rules, r.Ranked
  fallback : rules.countP isFallback = 1
  advances : ∀ r ∈ rules, r.Advances

theorem length_le_byteSize (cs : List Char) : cs.length ≤ Place.byteSize cs := by
  have step (cs : List Char) (n : Nat) :
      n + cs.length ≤ cs.foldl (fun n c => n + c.utf8Size) n := by
    induction cs generalizing n with
    | nil => exact Nat.le_refl n
    | cons c cs ih =>
        have := ih (n + c.utf8Size)
        have := c.utf8Size_pos
        rw [List.length_cons, List.foldl_cons]
        omega
  have := step cs 0
  rwa [Nat.zero_add] at this

theorem Advances.one_le {r : Rule α} (hr : r.Advances) {p : Place} {n : Nat}
    (h : r.matchLength? p = some n) : 1 ≤ n := by
  obtain ⟨q, hend, rfl⟩ := Option.map_eq_some_iff.mp h
  obtain ⟨cs, hne, hcs⟩ := skip?_of_end? hr hend
  have hpos := List.length_pos_iff.mpr hne
  have hsize := length_le_byteSize cs
  rw [Place.textUntil_eq hcs]
  omega

theorem Sortable.sort {rules : List (Rule α)} (h : Sortable rules) : Sortable (sort rules) where
  ranked r hr := h.ranked r (mem_sort.mp hr)
  fallback := (sort_perm rules).countP_eq isFallback ▸ h.fallback
  advances r hr := h.advances r (mem_sort.mp hr)

/-- Rules that are the result of sorting. -/
def Sorted (rules : List (Rule α)) : Prop := ∃ unsorted, rules = sort unsorted ∧ Sortable unsorted

theorem Sorted.sortable {rules : List (Rule α)} (h : Sorted rules) : Sortable rules := by
  obtain ⟨unsorted, rfl, hsortable⟩ := h
  exact hsortable.sort

theorem Sortable.chunkRanked {rules : List (Rule α)} (h : Sortable rules) :
    ∀ r ∈ rules, r.ChunkRanked :=
  fun r hr => (h.ranked r hr).number

theorem Sorted.pairwise {rules : List (Rule α)} (h : Sorted rules) : rules.Pairwise Precedes := by
  obtain ⟨unsorted, rfl, hsortable⟩ := h
  exact sort_pairwise hsortable.chunkRanked

theorem Sorted.isComplete {rules : List (Rule α)} (h : Sorted rules) : IsComplete rules where
  ranked := h.pairwise.imp fun hbefore => hbefore.rank_le
  prefixOrdered := isPrefixOrdered_of_pairwise h.sortable.chunkRanked h.pairwise
  fallback := exists_fallback_last h.sortable.ranked h.pairwise h.sortable.fallback
  progress r hr _ _ hn := (h.sortable.advances r hr).one_le hn

/-- Complete rules match wherever there is text. -/
theorem IsComplete.exists_first? {rules : List (Rule α)} (h : IsComplete rules) {p : Place}
    (hp : p.after ≠ []) : ∃ r ∈ rules, ∃ q, first? rules p = some (r, q) := by
  obtain ⟨earlier, last, hrules, hfallback, -⟩ := h.fallback
  obtain ⟨c, cs, hcs⟩ := List.exists_cons_of_ne_nil hp
  have hlast : (last.end? p).map (last, ·) ≠ none := by
    rw [end?, hfallback, Place.next?_of_after hcs]
    exact Option.some_ne_none _
  have hmem : last ∈ rules := by simp [hrules]
  cases hfirst : first? rules p with
  | none => exact absurd (List.findSome?_eq_none_iff.mp hfirst last hmem) hlast
  | some found => exact ⟨found.1, (mem_of_first? hfirst).1, found.2, rfl⟩

/-! ### Rules that can be sorted -/

/-- A rule that is no fallback, and that has no chunk if it reads numbers. -/
structure Specific (r : Rule α) : Prop where
  number : r.kind = .number → r.chunk = none
  recognizer_ne : r.recognizer ≠ .fallback

theorem Specific.ranked {r : Rule α} (h : r.Specific) : r.Ranked :=
  ⟨h.number, fun hfallback => absurd hfallback h.recognizer_ne⟩

theorem specific_literal {name : String} {kind : TokenKind} (hk : kind ≠ .number) (text : String)
    (action : α) : (literal name kind text action).Specific :=
  ⟨fun h => absurd h hk, Recognizer.noConfusion⟩

theorem specific_pattern (name : String) (kind : TokenKind) (regex : Regex) (action : α) :
    (pattern name kind regex action).Specific :=
  ⟨fun _ => rfl, Recognizer.noConfusion⟩

theorem specific_withChunk {name : String} {kind : TokenKind} (hk : kind ≠ .number)
    (regex : Regex) (action : α) (chunk : String) :
    ((pattern name kind regex action).withChunk chunk).Specific :=
  ⟨fun h => absurd h hk, Recognizer.noConfusion⟩

theorem countP_isFallback_eq_zero {rules : List (Rule α)} (h : ∀ r ∈ rules, r.Specific) :
    rules.countP isFallback = 0 := by
  rw [List.countP_eq_zero]
  intro r hr hfallback
  exact (h r hr).recognizer_ne (of_decide_eq_true hfallback)

/-- Specific rules with one fallback behind them can be sorted. -/
theorem sortable_concat {rules : List (Rule α)} (hrules : ∀ r ∈ rules, r.Specific) {name : String}
    {kind : TokenKind} (hk : kind ≠ .number) {action : α}
    (hadvances : ∀ r ∈ rules ++ [fallback name kind action], r.Advances) :
    Sortable (rules ++ [fallback name kind action]) where
  ranked r hr := by
    rcases List.mem_append.mp hr with hr | hr
    · exact (hrules r hr).ranked
    · rw [List.mem_singleton.mp hr]
      exact ⟨fun h => absurd h hk, fun _ => ⟨hk, rfl⟩⟩
  fallback := by
    rw [List.countP_append, countP_isFallback_eq_zero hrules]
    rfl
  advances := hadvances

end Rule

namespace RuleTable

/-- Replacing a literal by a specific rule, or adding the rule, leaves the fallbacks. -/
theorem countP_isFallback_replaceLiteral {text : String} {r : StateRule} (hr : r.Specific)
    (rules : List StateRule) :
    (replaceLiteral text r rules).countP Rule.isFallback = rules.countP Rule.isFallback := by
  have hnot : r.isFallback = false := decide_eq_false hr.recognizer_ne
  induction rules with
  | nil => simp [replaceLiteral, hnot]
  | cons s rest ih =>
      rw [replaceLiteral]
      split
      · next htext =>
        have hs : s.isFallback = false := by
          apply decide_eq_false
          intro hfallback
          rw [Rule.literalText?, hfallback] at htext
          cases htext
        rw [List.countP_cons_of_neg (by simp [hnot]), List.countP_cons_of_neg (by simp [hs])]
      · rw [List.countP_cons, List.countP_cons, ih]

end RuleTable

theorem Rule.Sortable.replaceLiteral {rules : List StateRule} (h : Sortable rules)
    {r : StateRule} (hr : r.Specific) (hadvances : r.Advances) (text : String) :
    Sortable (RuleTable.replaceLiteral text r rules) where
  ranked s hs := by
    rcases RuleTable.mem_replaceLiteral hs with rfl | hs
    · exact hr.ranked
    · exact h.ranked s hs
  fallback := (RuleTable.countP_isFallback_replaceLiteral hr rules).trans h.fallback
  advances s hs := by
    rcases RuleTable.mem_replaceLiteral hs with rfl | hs
    · exact hadvances
    · exact h.advances s hs

namespace RuleTable

variable {l : Lexicon} {table : RuleTable}

/-! ### The rules of the states -/

theorem specific_of_mem_operatorRules {α : Type} {operators : List String} {action : α}
    {r : Rule α} (h : r ∈ operatorRules operators action) : r.Specific := by
  obtain ⟨_, _, _, rfl⟩ := mem_operatorRules h
  exact Rule.specific_literal (by decide) _ _

/-- The rules of ordinary code are sorted with a fallback at their end. -/
theorem exists_unsorted_rootRules {rules : List StateRule} (h : rootRules l = .ok rules) :
    ∃ specific, rules = Rule.sort (specific ++ [.fallback "unknown" .unknown .stay]) ∧
      ∀ r ∈ specific, r.Specific := by
  rw [rootRules] at h
  obtain ⟨symbols, -, h⟩ := bind_eq_ok_iff.mp h
  obtain ⟨numbers, -, h⟩ := bind_eq_ok_iff.mp h
  cases h
  refine ⟨_, rfl, fun r hr => ?_⟩
  simp only [List.mem_append] at hr
  rcases hr with ((((h | h) | h) | h) | h) | h
  · rcases List.mem_pair.mp h with rfl | rfl <;> exact Rule.specific_pattern _ _ _ _
  · obtain ⟨i, _, rfl⟩ := List.mem_mapIdx.mp h
    exact Rule.specific_withChunk (by decide) _ _ _
  · rcases List.mem_pair.mp h with rfl | rfl <;> exact Rule.specific_pattern _ _ _ _
  · exact specific_of_mem_operatorRules (mem_of_mem_distinct h)
  · obtain ⟨pair, hpair, hr⟩ := List.mem_flatten.mp h
    obtain ⟨i, hi, rfl⟩ := List.mem_mapIdx.mp hpair
    rcases List.mem_pair.mp hr with rfl | rfl <;> exact Rule.specific_literal (by decide) _ _
  · obtain ⟨i, hi, rfl⟩ := List.mem_mapIdx.mp h
    exact Rule.specific_literal (by decide) _ _

theorem sorted_rootRules (hl : l.Accepted) {rules : List StateRule}
    (h : rootRules l = .ok rules) : Rule.Sorted rules := by
  obtain ⟨specific, rfl, hspecific⟩ := exists_unsorted_rootRules h
  exact ⟨_, rfl, Rule.sortable_concat hspecific (by decide)
    fun r hr => (hasRule_of_mem_rootRules hl h (Rule.mem_sort.mpr hr)).advances hl⟩

theorem specific_of_templateRule {i j : Nat} {t : TemplateForm} {r : StateRule}
    (h : templateRule i j t = .ok r) : r.Specific := by
  cases t with
  | code opening closing =>
      cases h
      exact Rule.specific_literal (by decide) _ _
  | reference opening symbols operators =>
      obtain ⟨_, -, h⟩ := bind_eq_ok_iff.mp h
      obtain ⟨symbol, -, h⟩ := bind_eq_ok_iff.mp h
      cases h
      exact Rule.specific_withChunk (by decide) _ _ _

/-- The rules of the content of a string are sorted with a fallback at their end. -/
theorem exists_unsorted_stringRules {i : Nat} {s : StringForm} {rules : List StateRule}
    (h : stringRules i s = .ok rules) :
    ∃ specific, rules = Rule.sort (specific ++
        [.fallback ((LexState.string i).name ++ "$value") .stringValue .stay]) ∧
      ∀ r ∈ specific, r.Specific := by
  rw [stringRules] at h
  obtain ⟨templates, htemplates, h⟩ := bind_eq_ok_iff.mp h
  obtain ⟨hlength, htemplates⟩ := mapIdx_mapM_eq_ok_iff.mp htemplates
  cases h
  refine ⟨_, rfl, fun r hr => ?_⟩
  simp only [List.mem_append] at hr
  rcases hr with (h | h) | h
  · rw [List.mem_singleton.mp h]
    exact Rule.specific_literal (by decide) _ _
  · obtain ⟨j, hj, rfl⟩ := List.mem_iff_getElem.mp h
    exact specific_of_templateRule (htemplates j (hlength ▸ hj) hj)
  · obtain ⟨text, -, rfl⟩ := List.mem_map.mp h
    exact Rule.specific_withChunk (by decide) _ _ _

theorem sorted_stringRules (hl : l.Accepted) {i : Nat} {s : StringForm}
    (hs : l.strings[i]? = some s) {rules : List StateRule} (h : stringRules i s = .ok rules) :
    Rule.Sorted rules := by
  obtain ⟨specific, rfl, hspecific⟩ := exists_unsorted_stringRules h
  exact ⟨_, rfl, Rule.sortable_concat hspecific (by decide)
    fun r hr => (hasRule_of_mem_stringRules hs h (Rule.mem_sort.mpr hr)).advances hl⟩

theorem sorted_templateRules {root : List StateRule} (hroot : Rule.Sortable root)
    (state : LexState) {closing : String} (hclosing : closing ≠ "") :
    Rule.Sorted (templateRules root state closing) := by
  have hadvances : ∀ name, (Rule.literal name .templateEnd closing
      (Transition.pop : Transition LexState)).Advances :=
    fun _ he => hclosing (Recognizer.literal.inj he)
  exact ⟨_, rfl, hroot.replaceLiteral (Rule.specific_literal (by decide) _ _) (hadvances _)
    closing⟩

/-- The rules of a reference are sorted with a fallback at their end. -/
theorem exists_unsorted_referenceRules (opening : String) (operators : List String)
    (symbol : Regex) :
    ∃ specific, referenceRules opening operators symbol =
        Rule.sort (specific ++ [.fallback "unknown" .unknown ()]) ∧
      ∀ r ∈ specific, r.Specific := by
  refine ⟨_, rfl, fun r hr => ?_⟩
  rcases List.mem_append.mp hr with hr | hr
  · rcases List.mem_pair.mp hr with rfl | rfl
    · exact Rule.specific_literal (by decide) _ _
    · exact Rule.specific_pattern _ _ _ _
  · exact specific_of_mem_operatorRules hr

theorem sorted_referenceRules {opening : String} {operators : List String} (symbol : Regex)
    (ho : opening ≠ "") (hops : ∀ op ∈ operators, op ≠ "") :
    Rule.Sorted (referenceRules opening operators symbol) := by
  obtain ⟨specific, heq, hspecific⟩ := exists_unsorted_referenceRules opening operators symbol
  exact ⟨_, heq, Rule.sortable_concat hspecific (by decide)
    fun r hr => advances_of_mem_referenceRules ho hops (heq ▸ Rule.mem_sort.mpr hr)⟩

/-! ### The automaton -/

/-- A table that is a closed automaton. -/
structure IsClosed (table : RuleTable) : Prop where
  /-- The rules of every state are complete. -/
  states : ∀ entry ∈ table.states, Rule.IsComplete entry.2
  /-- The rules of every reference are complete. -/
  parts : ∀ entry ∈ table.states, ∀ r ∈ entry.2, ∀ parts, r.action = .split parts →
    Rule.IsComplete parts
  /-- Every state that a rule enters is in the table. -/
  targets : ∀ entry ∈ table.states, ∀ r ∈ entry.2, ∀ target, r.action = .push target →
    table.contains target

/-- The rules of every state are sorted. -/
theorem sorted_of_mem (h : ofLexicon l = .ok table) {state : LexState} {rules : List StateRule}
    (hmem : (state, rules) ∈ table.states) : Rule.Sorted rules := by
  obtain ⟨hl, root, hroot, hstates⟩ := mem_states_iff h
  have hsorted := sorted_rootRules hl hroot
  rcases (hstates state rules).mp hmem with
    ⟨rfl, rfl⟩ | ⟨i, s, hs, rfl, hrules⟩ | ⟨i, j, opening, closing, ⟨s, hs, ht⟩, rfl, rfl⟩
  · exact hsorted
  · exact sorted_stringRules hl hs hrules
  · have hclosing : closing ≠ "" := (hl.template_of_getElem? hs ht).closing_ne _ _ rfl
    exact sorted_templateRules hsorted.sortable _ hclosing

/-- Only the rules of references cut the text that they match. -/
theorem referenceRules_of_split (h : ofLexicon l = .ok table) {state : LexState}
    {rules : List StateRule} (hmem : (state, rules) ∈ table.states) {r : StateRule} (hr : r ∈ rules)
    {parts : List PartRule} (hparts : r.action = .split parts) :
    ∃ opening operators symbol, opening ≠ "" ∧ (∀ op ∈ operators, op ≠ "") ∧
      parts = referenceRules opening operators symbol := by
  cases hasRule_of_mem_states h hmem hr with
  | reference hs ht _ _ ha =>
      have hl := accepted_of_ofLexicon h
      have ht := hl.template_of_getElem? hs ht
      have hops := fun op hop => hl.operators_ne op (ht.declared _ _ _ rfl op hop)
      rw [ha] at hparts
      cases hparts
      exact ⟨_, _, _, ht.opening_ne, hops, rfl⟩
  | code _ _ ha _ => simp [ha] at hparts
  | content _ ha _ => simp [ha] at hparts
  | enterString _ _ => cases hparts
  | leaveTemplate _ => cases hparts
  | enterTemplate _ => cases hparts
  | leaveString _ => cases hparts

theorem isClosed (h : ofLexicon l = .ok table) : table.IsClosed where
  states := fun (_, _) hmem => (sorted_of_mem h hmem).isComplete
  parts := by
    rintro ⟨state, rules⟩ hmem r hr parts hparts
    obtain ⟨_, _, _, hopening, hops, rfl⟩ := referenceRules_of_split h hmem hr hparts
    exact (sorted_referenceRules _ hopening hops).isComplete
  targets := fun (_, _) hmem _ hr _ htarget =>
    contains_of_hasRule h (hasRule_of_mem_states h hmem hr) htarget

theorem length_toList_le (source : String) : source.toList.length ≤ source.utf8ByteSize := by
  rw [← String.ofList_toList (s := source), String.toList_ofList]
  induction source.toList with
  | nil => exact Nat.zero_le _
  | cons c cs ih =>
      have := c.utf8Size_pos
      rw [String.ofList_cons, String.utf8ByteSize_append, String.utf8ByteSize_singleton,
        List.length_cons]
      omega

/-- The lexer finds a rule wherever there is text of a source, and comes to its end. -/
structure Progresses (table : RuleTable) (source : String) : Prop where
  /-- Wherever a run is, if there is text left then a rule of the state matches.  If it enters a
  state then the state is in the table, and if it cuts a reference then its rules match wherever
  there is text. -/
  rule : ∀ readings s, table.Run (.start source.toList) readings s → s.place.after ≠ [] →
    ∃ r ∈ table.rulesOf s.state,
      (∃ q, Rule.first? (table.rulesOf s.state) s.place = some (r, q)) ∧
      (∀ target, r.action = .push target → table.contains target) ∧
      ∀ parts, r.action = .split parts → ∀ p : Place, p.after ≠ [] →
        ∃ part q, Rule.first? parts p = some (part, q)
  /-- The tokens are those of a run that leaves no text. -/
  ends : ∃ readings s, table.Run (.start source.toList) readings s ∧ s.place.after = [] ∧
    Reading.all readings = table.tokenize source
  /-- There are at most two tokens for each byte. -/
  length_le : (table.tokenize source).length ≤ 2 * source.utf8ByteSize

/-- **The lexer always makes progress.**  The table of a lexicon is a closed automaton, and over
every source a run finds a rule wherever there is text, and ends. -/
theorem progresses_ofLexicon (h : ofLexicon l = .ok table) :
    table.IsClosed ∧ ∀ source, table.Progresses source := by
  have hclosed := isClosed h
  refine ⟨hclosed, fun source => ⟨fun readings s hrun hafter => ?_, exists_run_tokenize h source,
    ?_⟩⟩
  · have hmem := mem_states_of_contains (hrun.contains_state h)
    obtain ⟨r, hr, q, hfirst⟩ := (hclosed.states _ hmem).exists_first? hafter
    refine ⟨r, hr, ⟨q, hfirst⟩, hclosed.targets _ hmem r hr, fun parts hparts p hp => ?_⟩
    obtain ⟨part, -, q, hpart⟩ := (hclosed.parts _ hmem r hr parts hparts).exists_first? hp
    exact ⟨part, q, hpart⟩
  · obtain ⟨readings, s, hrun, -, htokens⟩ := exists_run_tokenize h source
    have hlength := hrun.length_tokens_le h
    have hsize := length_toList_le source
    have hstart : (Scan.start source.toList).place.after = source.toList := rfl
    rw [hstart] at hlength
    rw [← htokens]
    omega

/-- A reference of two characters takes three tokens. -/
theorem progresses_ofLexicon_interpolating :
    ∃ table, ofLexicon .interpolating = .ok table ∧
      (table.tokenize "\"$a\"").map Token.kind =
        [.stringStart, .templateStart, .symbol, .templateEnd, .stringEnd] ∧
      table.IsClosed ∧ ∀ source, table.Progresses source := by
  have run : (fun table => (table.tokenize "\"$a\"").map Token.kind) <$> ofLexicon .interpolating =
      .ok [.stringStart, .templateStart, .symbol, .templateEnd, .stringEnd] := by
    decide +kernel
  obtain ⟨table, h, hkinds⟩ := map_eq_ok_iff.mp run
  exact ⟨table, h, hkinds, progresses_ofLexicon h⟩

end RuleTable

end Nesting
