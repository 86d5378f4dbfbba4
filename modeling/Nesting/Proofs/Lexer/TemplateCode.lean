import Nesting.Proofs.Lexer.Longest

/-! # Code inside a template

Inside a template of a string, code is read as at the root, except that the closing text ends the
template (`RuleTable.readsAsRoot_template`).  The rules of such a state are those of the root with
one rule put in: it takes the place of the first literal rule for the closing text, or goes where
the order wants it (`RuleTable.exists_templateSplit`).  The other rules stay in their order, because
sorting is stable.

What the closing text begins is still read as at the root if a rule is tried before the one that
ends the template (`Rule.Outranks`): a number, a longer delimiter, or a comment that opens with
just this text, because among rules with one chunk the comments come first
(`RuleTable.comments_first`). -/

namespace Nesting

namespace Rule

variable {α : Type}

theorem recognizer_of_literalText? {r : Rule α} {text : String} (h : r.literalText? = some text) :
    r.recognizer = .literal text := by
  unfold literalText? at h
  split at h
  · next heq =>
    cases h
    exact heq
  · cases h

theorem end?_of_literalText? {r : Rule α} {text : String} (h : r.literalText? = some text)
    (p : Place) : r.end? p = p.skip? text.toList := by
  rw [end?, recognizer_of_literalText? h]

theorem Formed.of_literalText? {r : Rule α} (h : r.Formed) {text : String}
    (htext : r.literalText? = some text) : r.chunk = some text ∧ r.kind ≠ .number := by
  cases h with
  | literal hk => exact ⟨htext, hk⟩
  | pattern => cases htext
  | opened hk => cases htext
  | fallback hk => cases htext

theorem rank_eq_one {r : Rule α} (hk : r.kind ≠ .number) {x : String} (hx : r.chunk = some x) :
    r.rank = 1 := by
  simp [rank, hk, hx]

end Rule

namespace RuleTable

variable {l : Lexicon} {table : RuleTable}

/-! ### The rules of a template -/

/-- A rule replaces the first literal rule for a text, or is added at the end. -/
theorem replaceLiteral_eq (text : String) (r : StateRule) (rules : List StateRule) :
    (∃ before s behind, rules = before ++ s :: behind ∧ s.literalText? = some text ∧
      (∀ u ∈ before, u.literalText? ≠ some text) ∧
      replaceLiteral text r rules = before ++ r :: behind) ∨
    ((∀ u ∈ rules, u.literalText? ≠ some text) ∧ replaceLiteral text r rules = rules ++ [r]) := by
  induction rules with
  | nil => exact .inr ⟨List.forall_mem_nil _, rfl⟩
  | cons s rest ih =>
      rw [replaceLiteral]
      by_cases hs : s.literalText? = some text
      · rw [if_pos hs]
        exact .inl ⟨[], s, rest, rfl, hs, List.forall_mem_nil _, rfl⟩
      · rw [if_neg hs]
        rcases ih with ⟨before, u, behind, rfl, hu, hbefore, heq⟩ | ⟨hnone, heq⟩
        · refine .inl ⟨s :: before, u, behind, rfl, hu, ?_, by rw [heq, List.cons_append]⟩
          exact List.forall_mem_cons.mpr ⟨hs, hbefore⟩
        · refine .inr ⟨List.forall_mem_cons.mpr ⟨hs, hnone⟩, by rw [heq, List.cons_append]⟩

/-- Among the rules of ordinary code, one with a chunk is either a comment or a literal, and of two
rules that could stand in either order, no comment is behind a literal. -/
theorem comments_first {root : List StateRule} (h : rootRules l = .ok root)
    (hranked : ∀ r ∈ root, r.Ranked) :
    (∀ r ∈ root, ∀ x, r.chunk = some x → (r.kind = .comment ↔ r.literalText? ≠ some x)) ∧
    root.Pairwise fun r s => s.Precedes r → s.kind = .comment → r.literalText? = none := by
  rw [rootRules] at h
  obtain ⟨symbols, -, h⟩ := bind_eq_ok_iff.mp h
  obtain ⟨numbers, -, h⟩ := bind_eq_ok_iff.mp h
  cases h
  simp only [Rule.mem_sort, List.append_assoc] at hranked ⊢
  rw [← List.append_assoc] at hranked ⊢
  have chunkless {x : String} {P : Prop} (hx : none = some x) : P :=
    absurd hx.symm (Option.some_ne_none x)
  have early : ∀ r ∈ [Rule.pattern "newline" .newline LexRegex.newline .stay,
      .pattern "whitespace" .whitespace (LexRegex.whitespace l.lineJoin) .stay] ++ commentRules l,
      r.literalText? = none ∧ ∀ x, r.chunk = some x → r.kind = .comment := by
    intro r hr
    rcases List.mem_append.mp hr with hr | hr
    · rcases List.mem_pair.mp hr with rfl | rfl <;> exact ⟨rfl, fun _ => chunkless⟩
    · obtain ⟨i, hi, rfl⟩ := List.mem_mapIdx.mp hr
      exact ⟨rfl, fun _ _ => rfl⟩
  have late : ∀ r ∈ [Rule.pattern "symbol" .symbol symbols .stay,
      .pattern "number" .number numbers .stay] ++ (distinctOperatorRules l ++ (bracketRules l ++
        (stringStartRules l ++ [.fallback "unknown" .unknown .stay]))),
      r.kind ≠ .comment ∧ ∀ x, r.chunk = some x → r.literalText? = some x := by
    intro r hr
    simp only [List.mem_append] at hr
    rcases hr with hr | hr | hr | hr | hr
    · rcases List.mem_pair.mp hr with rfl | rfl <;>
        exact ⟨TokenKind.noConfusion, fun _ => chunkless⟩
    · obtain ⟨_, _, _, rfl⟩ := mem_operatorRules (mem_of_mem_distinct hr)
      exact ⟨TokenKind.noConfusion, fun _ hx => hx⟩
    · obtain ⟨pair, hpair, hr⟩ := List.mem_flatten.mp hr
      obtain ⟨i, hi, rfl⟩ := List.mem_mapIdx.mp hpair
      rcases List.mem_pair.mp hr with rfl | rfl <;> exact ⟨TokenKind.noConfusion, fun _ hx => hx⟩
    · obtain ⟨i, hi, rfl⟩ := List.mem_mapIdx.mp hr
      exact ⟨TokenKind.noConfusion, fun _ hx => hx⟩
    · rw [List.mem_singleton.mp hr]
      exact ⟨TokenKind.noConfusion, fun _ => chunkless⟩
  constructor
  · intro r hr x hx
    rcases List.mem_append.mp hr with hr | hr
    · exact iff_of_true ((early r hr).2 x hx) (by simp [(early r hr).1])
    · exact iff_of_false (late r hr).1 (not_not.mpr ((late r hr).2 x hx))
  · refine Rule.sort_stable (fun r hr => (hranked r hr).number)
      (List.pairwise_append.mpr ⟨?_, ?_, ?_⟩)
    · exact List.pairwise_of_forall_mem_list fun r hr _ _ _ => (early r hr).1
    · exact List.pairwise_of_forall_mem_list fun _ _ s hs hk => absurd hk (late s hs).1
    · exact fun r hr _ _ _ => (early r hr).1

/-- The rule that ends a template. -/
def endRule (state : LexState) (closing : String) : StateRule :=
  .literal (state.name ++ "$end") .templateEnd closing .pop

theorem ranked_endRule (state : LexState) (closing : String) : (endRule state closing).Ranked := by
  unfold endRule
  exact (Rule.specific_literal (by decide) _ _).ranked

theorem rank_endRule (state : LexState) (closing : String) : (endRule state closing).rank = 1 :=
  Rule.rank_eq_one nofun rfl

/-- The rules of a template beside those of the root: the rule that ends the template takes the
place of some of them, and stands among the others where the order wants it. -/
structure TemplateSplit (root : List StateRule) (state : LexState) (closing : String)
    (ahead replaced behind : List StateRule) : Prop where
  root_eq : root = ahead ++ replaced ++ behind
  rules_eq : templateRules root state closing = ahead ++ endRule state closing :: behind
  ahead : ∀ r ∈ ahead, r.literalText? ≠ some closing ∧ r.Precedes (endRule state closing)
  replaced : ∀ r ∈ replaced, r.literalText? = some closing
  behind : ∀ r ∈ behind, (endRule state closing).Precedes r ∧
    ¬ (r.kind = .comment ∧ r.chunk = some closing)

/-- The rule that ends a template is put into the rules of ordinary code, where it may take the
place of a rule for the same text. -/
theorem exists_templateSplit {root : List StateRule} (h : rootRules l = .ok root)
    (hsorted : Rule.Sorted root) (hformed : ∀ r ∈ root, r.Formed) (state : LexState)
    (closing : String) :
    ∃ ahead replaced behind, TemplateSplit root state closing ahead replaced behind := by
  have hranked := hsorted.sortable.ranked
  have hending := ranked_endRule state closing
  have hsort : templateRules root state closing =
      Rule.sort (replaceLiteral closing (endRule state closing) root) := rfl
  rcases replaceLiteral_eq closing (endRule state closing) root with
    ⟨before, s, behind, rfl, hs, hbefore, heq⟩ | ⟨hnone, heq⟩
  · -- The rule takes the place of one that has its rank and its chunk.
    obtain ⟨hchunk, hk⟩ := (hformed s (by simp)).of_literalText? hs
    have hrank : s.rank = (endRule state closing).rank :=
      (Rule.rank_eq_one hk hchunk).trans (rank_endRule state closing).symm
    have hplace := Rule.precedes_congr (s := endRule state closing) hrank hchunk
    obtain ⟨-, hright, hcross⟩ := List.pairwise_append.mp hsorted.pairwise
    have hfirst := (List.pairwise_cons.mp hright).1
    have hself : templateRules (before ++ s :: behind) state closing =
        before ++ endRule state closing :: behind := by
      rw [hsort, heq]
      refine Rule.sort_eq_self (fun r hr => ?_)
        (Rule.pairwise_replaced hrank hchunk hsorted.pairwise)
      rcases List.mem_append.mp hr with hr | hr
      · exact (hranked r (List.mem_append_left _ hr)).number
      · rcases List.mem_cons.mp hr with rfl | hr
        · exact hending.number
        · exact (hranked r (List.mem_append_right _ (List.mem_cons_of_mem s hr))).number
    refine ⟨before, [s], behind, by simp, hself, fun r hr => ⟨hbefore r hr, ?_⟩, ?_, ?_⟩
    · exact (hplace r).1.mp (hcross r hr s List.mem_cons_self)
    · exact List.forall_mem_singleton.mpr hs
    · refine fun r hr => ⟨(hplace r).2.mp (hfirst r hr), fun ⟨hcomment, hsame⟩ => ?_⟩
      have hstable := (List.pairwise_append.mp (comments_first h hranked).2).2.1
      have hback : r.Precedes s := by
        refine .inr ⟨?_, by rw [hsame, hchunk]⟩
        rw [Rule.rank_eq_one (by simp [hcomment]) hsame, Rule.rank_eq_one hk hchunk]
      have hnot := (List.pairwise_cons.mp hstable).1 r hr hback hcomment
      simp [hs] at hnot
  · have hchunks : ∀ r ∈ root, r.ChunkRanked := fun r hr => (hranked r hr).number
    obtain ⟨before, behind, hsplit, hconcat, hbefore, hbehind⟩ :=
      Rule.exists_sort_concat hending.number hchunks
    rw [Rule.sort_eq_self hchunks hsorted.pairwise] at hsplit
    refine ⟨before, [], behind, by simp [hsplit], by rw [hsort, heq, hconcat], ?_,
      List.forall_mem_nil _, ?_⟩
    · exact fun r hr => ⟨hnone r (hsplit ▸ List.mem_append_left behind hr), hbefore r hr⟩
    · refine fun r hr => ⟨(Rule.precedes_total _ r).resolve_right (hbehind r hr), ?_⟩
      rintro ⟨hcomment, hsame⟩
      refine hbehind r hr (.inr ⟨?_, ?_⟩)
      · rw [Rule.rank_eq_one (by simp [hcomment]) hsame, rank_endRule]
      · rw [hsame]
        exact le_rfl

end RuleTable

/-! ### The first rule that matches -/

/-- The rules that are tried before the one that ends a template with a text: numbers, what begins
with a longer text, and comments that open with this very text. -/
def Rule.Outranks (r : StateRule) (closing : String) : Prop :=
  r.kind = .number ∨ (∃ x, r.chunk = some x ∧ x ≠ closing ∧ closing.toList <+: x.toList) ∨
    (r.kind = .comment ∧ r.chunk = some closing)

namespace Rule

variable {α : Type}

theorem first?_append (rules others : List (Rule α)) (p : Place) :
    first? (rules ++ others) p = (first? rules p).or (first? others p) :=
  List.findSome?_append

theorem first?_append_of_none {rules others : List (Rule α)} {p : Place}
    (h : ∀ r ∈ others, r.end? p = none) (behind : List (Rule α)) :
    first? (rules ++ others ++ behind) p = first? (rules ++ behind) p := by
  rw [first?_append, first?_append, first?_append, first?_eq_none_iff.mpr h, Option.or_none]

end Rule

namespace RuleTable

variable {l : Lexicon} {table : RuleTable}

/-- A rule for ordinary code that is tried before the one that ends a template, where both match. -/
theorem outranks_of_precedes {root : List StateRule} (h : rootRules l = .ok root)
    (hranked : ∀ r ∈ root, r.Ranked) {r : StateRule} (hr : r ∈ root) (hformed : r.Formed)
    {state : LexState} {closing : String} (hne : r.literalText? ≠ some closing)
    (hbefore : r.Precedes (endRule state closing)) {p q : Place} (hend : r.end? p = some q)
    (hclosing : closing.toList <+: p.after) : r.Outranks closing := by
  have hrank : r.rank ≤ 1 := rank_endRule state closing ▸ hbefore.rank_le
  rcases (hranked r hr).number_or_chunk hrank with hk | ⟨x, hx⟩
  · exact .inl hk
  · by_cases hsame : x = closing
    · subst hsame
      exact .inr (.inr ⟨((comments_first h hranked).1 r hr x hx).mpr hne, hx⟩)
    · have hgoes := hbefore.begins (hranked r hr) (ranked_endRule state closing) hx rfl
        (hformed.begins hx hend) hclosing
      exact .inr (.inl ⟨x, hx, hsame, hgoes⟩)

/-- A rule that is tried behind the one that ends a template does not outrank it. -/
theorem not_outranks {r : StateRule} {state : LexState} {closing : String} (hranked : r.Ranked)
    (hbehind : (endRule state closing).Precedes r)
    (hne : ¬ (r.kind = .comment ∧ r.chunk = some closing)) : ¬ r.Outranks closing := by
  have hle := hbehind.rank_le
  rw [rank_endRule] at hle
  rintro (hk | ⟨x, hx, hsame, hgoes⟩ | hcomment)
  · simp [Rule.rank, hk] at hle
  · have hrank : r.rank = 1 := hranked.number.rank_eq_one_iff.mpr (by simp [hx])
    rcases hbehind with hlt | ⟨-, hchunk⟩
    · rw [rank_endRule] at hlt
      omega
    · have hxle : x ≤ closing := by simpa [hx, endRule, Rule.literal] using hchunk
      exact hsame (le_antisymm hxle (le_of_isPrefixOf (List.isPrefixOf_iff_prefix.mpr hgoes)))
  · exact hne hcomment

section splitting

variable {root ahead replaced behind : List StateRule} {state : LexState} {closing : String}

/-- Where the closing text stands, the rules in front of the one that ends the template outrank it,
if they match. -/
theorem TemplateSplit.outranks (h : TemplateSplit root state closing ahead replaced behind)
    (hroot : rootRules l = .ok root) (hranked : ∀ r ∈ root, r.Ranked)
    (hformed : ∀ r ∈ root, r.Formed) {p : Place} (hclosing : closing.toList <+: p.after)
    {r : StateRule} {q : Place} (hfirst : Rule.first? ahead p = some (r, q)) :
    r ∈ root ∧ r.Outranks closing := by
  obtain ⟨hr, hend⟩ := Rule.mem_of_first? hfirst
  have hrroot : r ∈ root := by simp [h.root_eq, hr]
  exact ⟨hrroot, outranks_of_precedes hroot hranked hrroot (hformed r hrroot) (h.ahead r hr).1
    (h.ahead r hr).2 hend hclosing⟩

/-- All rules that outrank the one that ends the template are in front of it. -/
theorem TemplateSplit.mem_ahead (h : TemplateSplit root state closing ahead replaced behind)
    (hroot : rootRules l = .ok root) (hranked : ∀ r ∈ root, r.Ranked)
    (hformed : ∀ r ∈ root, r.Formed) {r : StateRule} (hr : r ∈ root)
    (houtranks : r.Outranks closing) : r ∈ ahead := by
  have hcases := hr
  rw [h.root_eq, List.mem_append, List.mem_append] at hcases
  rcases hcases with (hahead | hreplaced) | hbehind
  · exact hahead
  · obtain ⟨hchunk, hk⟩ := (hformed r hr).of_literalText? (h.replaced r hreplaced)
    have hplace : (endRule state closing).Precedes r :=
      .inr ⟨by rw [rank_endRule, Rule.rank_eq_one hk hchunk], hchunk ▸ le_rfl⟩
    have hcomment := (comments_first hroot hranked).1 r hr closing hchunk
    exact absurd houtranks (not_outranks (hranked r hr) hplace
      fun h' => hcomment.mp h'.1 (h.replaced r hreplaced))
  · exact absurd houtranks (not_outranks (hranked r hr) (h.behind r hbehind).1
      (h.behind r hbehind).2)

/-- Where the closing text does not stand, neither the rule that ends the template nor one that it
replaces matches. -/
theorem TemplateSplit.first?_eq (h : TemplateSplit root state closing ahead replaced behind)
    {p : Place} (hclosing : ¬ closing.toList <+: p.after) :
    Rule.first? (templateRules root state closing) p = Rule.first? root p := by
  have hnone : p.skip? closing.toList = none := by
    simpa [Place.prefix_iff_isSome_skip?] using hclosing
  have hending : ∀ r ∈ [endRule state closing], r.end? p = none :=
    List.forall_mem_singleton.mpr hnone
  have hlost : ∀ r ∈ replaced, r.end? p = none :=
    fun r hr => (Rule.end?_of_literalText? (h.replaced r hr) p).trans hnone
  rw [h.rules_eq, h.root_eq, Rule.first?_append_of_none hlost, ← List.singleton_append,
    ← List.append_assoc, Rule.first?_append_of_none hending]

end splitting

theorem rootRules_of_ofLexicon (h : ofLexicon l = .ok table) : rootRules l = .ok table.root := by
  obtain ⟨-, root, hroot, hstates⟩ := mem_states_iff h
  have hmem : (.root, table.root) ∈ table.states := mem_states_of_contains (contains_root h)
  obtain ⟨-, hrules⟩ | ⟨_, _, _, hne, -⟩ | ⟨_, _, _, _, _, hne, -⟩ := (hstates _ _).mp hmem
  · rw [hrules]
    exact hroot
  · cases hne
  · cases hne

/-- The rules of a template are made from those of the root. -/
theorem rulesOf_template (h : ofLexicon l = .ok table) {i j : Nat} {opening closing : String}
    (hcode : l.HasCode i j opening closing) :
    table.rulesOf (.template i j) = templateRules table.root (.template i j) closing := by
  obtain ⟨-, root, hroot, hstates⟩ := mem_states_iff h
  have hcontains : table.contains (.template i j) :=
    contains_of_mem ((hstates _ _).mpr (.inr (.inr ⟨i, j, opening, closing, hcode, rfl, rfl⟩)))
  obtain ⟨hne, -⟩ | ⟨_, _, _, hne, -⟩ | ⟨i', j', _, closing', hcode', hsame, htemplate⟩ :=
    (hstates _ _).mp (mem_states_of_contains hcontains)
  · cases hne
  · cases hne
  · obtain ⟨rfl, rfl⟩ := LexState.template.inj hsame
    obtain ⟨s, hs, ht⟩ := hcode
    obtain ⟨s', hs', ht'⟩ := hcode'
    cases hs.symm.trans hs'
    cases ht.symm.trans ht'
    rw [Except.ok.inj ((rootRules_of_ofLexicon h).symm.trans hroot)]
    exact htemplate

/-- Rules that read as those of the root, except that a closing text ends a template. -/
structure ReadsAsRoot (table : RuleTable) (state : LexState) (closing : String) : Prop where
  /-- Where the closing text does not stand, the first rule that matches is the one at the root, and
  ends at the same place. -/
  elsewhere : ∀ p : Place, ¬ closing.toList <+: p.after →
    Rule.first? (table.rulesOf state) p = Rule.first? table.root p
  /-- Where it stands, and a rule matches that outranks the one that ends the template, the first
  rule that matches is such a one, and the one at the root. -/
  outranked : ∀ p : Place, closing.toList <+: p.after →
    (∃ r ∈ table.root, r.Outranks closing ∧ (r.end? p).isSome) →
    ∃ r q, Rule.first? (table.rulesOf state) p = some (r, q) ∧
      Rule.first? table.root p = some (r, q) ∧ r.Outranks closing
  /-- Otherwise the template ends. -/
  ended : ∀ p : Place, closing.toList <+: p.after →
    (¬ ∃ r ∈ table.root, r.Outranks closing ∧ (r.end? p).isSome) →
    ∃ q, p.skip? closing.toList = some q ∧
      Rule.first? (table.rulesOf state) p = some (endRule state closing, q)

/-- **Code inside a template reads as at the root**, but for the closing text, which ends the
template unless a number, a longer delimiter or a comment that opens with it stands there. -/
theorem readsAsRoot_template (h : ofLexicon l = .ok table) {i j : Nat} {opening closing : String}
    (hcode : l.HasCode i j opening closing) : table.ReadsAsRoot (.template i j) closing := by
  have hroot := rootRules_of_ofLexicon h
  have htemplate := rulesOf_template h hcode
  have hmem : (.root, table.root) ∈ table.states := mem_states_of_contains (contains_root h)
  have hsorted := sorted_of_mem h hmem
  have hranked := hsorted.sortable.ranked
  have hformed : ∀ r ∈ table.root, r.Formed :=
    fun r hr => (hasRule_of_mem_states h hmem hr).formed
  obtain ⟨ahead, replaced, behind, hsplit⟩ :=
    exists_templateSplit hroot hsorted hformed (.template i j) closing
  have hrules := htemplate.trans hsplit.rules_eq
  constructor
  · intro p hclosing
    rw [htemplate, hsplit.first?_eq hclosing]
  · intro p hclosing ⟨r, hr, houtranks, hend⟩
    have hahead := hsplit.mem_ahead hroot hranked hformed hr houtranks
    cases hfirst : Rule.first? ahead p with
    | none => simp [Rule.first?_eq_none_iff.mp hfirst r hahead] at hend
    | some first =>
        refine ⟨first.1, first.2, ?_, ?_,
          (hsplit.outranks hroot hranked hformed hclosing hfirst).2⟩
        · rw [hrules, Rule.first?_append, hfirst]
          rfl
        · rw [hsplit.root_eq, Rule.first?_append, Rule.first?_append, hfirst]
          rfl
  · intro p hclosing hnone
    obtain ⟨q, hq⟩ := Option.isSome_iff_exists.mp (Place.prefix_iff_isSome_skip?.mp hclosing)
    refine ⟨q, hq, ?_⟩
    cases hfirst : Rule.first? ahead p with
    | some first =>
        obtain ⟨hr, houtranks⟩ := hsplit.outranks hroot hranked hformed hclosing hfirst
        have hend := (Rule.mem_of_first? hfirst).2
        exact absurd ⟨first.1, hr, houtranks, by simp [hend]⟩ hnone
    | none =>
        rw [hrules, Rule.first?_append, hfirst]
        exact Rule.first?_eq_some_iff.mpr ⟨[], behind, rfl, hq, List.forall_mem_nil _⟩

end RuleTable

/-- A small language with braces, an operator of two of them, and code in braces in its strings. -/
def Lexicon.doubleBraces : Lexicon where
  symbols := "[a-z]+"
  numbers := "[0-9]+"
  operators := ["\x7d\x7d"]
  brackets := [{ opening := "\x7b", closing := "\x7d" }]
  strings := [{ opening := "\"", templates := [.code "\x7b" "\x7d"] }]

namespace RuleTable

/-- A single brace ends the template; a symbol and the two braces are read as at the root. -/
theorem readsAsRoot_template_doubleBraces :
    ∃ table, ofLexicon .doubleBraces = .ok table ∧
      Lexicon.doubleBraces.HasCode 0 0 "\x7b" "\x7d" ∧
      (["x\x7d", "\x7dx", "\x7d\x7d"].map fun source =>
        (Rule.first? (table.rulesOf (.template 0 0)) (.start source.toList)).map (·.1.kind)) =
          [some .symbol, some .templateEnd, some .operator] ∧
      table.ReadsAsRoot (.template 0 0) "\x7d" := by
  have run : (fun table : RuleTable => ["x\x7d", "\x7dx", "\x7d\x7d"].map fun source =>
        (Rule.first? (table.rulesOf (.template 0 0)) (.start source.toList)).map (·.1.kind)) <$>
        ofLexicon .doubleBraces =
      .ok [some .symbol, some .templateEnd, some .operator] := by
    decide +kernel
  have hcode : Lexicon.doubleBraces.HasCode 0 0 "\x7b" "\x7d" := ⟨_, rfl, rfl⟩
  obtain ⟨table, h, hkinds⟩ := map_eq_ok_iff.mp run
  exact ⟨table, h, hcode, hkinds, readsAsRoot_template h hcode⟩

end RuleTable

end Nesting
