import Mathlib.Data.List.Perm.Basic
import Nesting.Proofs.Lexer.Accepted

/-! # The rules of a table

Which rules the states of a table have.  `Lexicon.HasRule` lists them by what they do: a state
that reads code has rules that stay, rules that enter a string and, inside a template, the rule
that leaves it; the state of a string has the rule that leaves it, rules for its templates, and
rules that stay.  Every rule of a table that was built for a lexicon is one of these
(`Lexicon.hasRule_of_mem`), and every state that a rule enters is in the table. -/

namespace Nesting

/-! ### Sorting -/

namespace Rule

variable {α : Type}

theorem insertFalling_perm (r : Rule α) (rules : List (Rule α)) :
    (insertFalling r rules).Perm (r :: rules) := by
  induction rules with
  | nil => exact .refl _
  | cons s rest ih =>
      rw [insertFalling]
      split
      · exact (ih.cons s).trans (.swap r s rest)
      · exact .refl _

/-- Sorting neither adds nor drops a rule. -/
theorem sort_perm (rules : List (Rule α)) : (sort rules).Perm rules := by
  have step (rules sorted : List (Rule α)) :
      (rules.foldl (fun sorted r => insertFalling r sorted) sorted).Perm (rules ++ sorted) := by
    induction rules generalizing sorted with
    | nil => exact .refl _
    | cons r rest ih =>
        rw [List.foldl_cons]
        refine (ih _).trans ?_
        refine ((insertFalling_perm r sorted).append_left rest).trans ?_
        exact List.perm_middle
  refine (List.reverse_perm _).trans ?_
  simpa using step rules []

theorem mem_sort {r : Rule α} {rules : List (Rule α)} : r ∈ sort rules ↔ r ∈ rules :=
  (sort_perm rules).mem_iff

/-- A match of the rule cannot be empty: if it stands for a fixed text, there is some. -/
def Advances (r : Rule α) : Prop := r.recognizer ≠ .literal ""

/-! ### How rules are made -/

/-- How a rule is made: only a rule for a fixed text, and a pattern that begins with one, have a
chunk, and neither reads numbers. -/
inductive Formed : Rule α → Prop
  | literal {name kind text action} : kind ≠ .number → Formed (.literal name kind text action)
  | pattern {name kind regex action} : Formed (.pattern name kind regex action)
  | opened {name kind text rest action} : kind ≠ .number →
      Formed ((Rule.pattern name kind (.seq (.ofText text) rest) action).withChunk text)
  | fallback {name kind action} : kind ≠ .number → Formed (.fallback name kind action)

theorem formed_comment (name : String) (c : CommentForm) (action : α) :
    ((Rule.pattern name .comment (LexRegex.comment c) action).withChunk c.opening).Formed := by
  cases c with
  | line opening => exact .opened (by decide)
  | multiline opening closing => exact .opened (by decide)

theorem formed_reference (name opening : String) (operators : List String) (symbol : Regex)
    (action : α) :
    ((Rule.pattern name .templateStart (LexRegex.reference opening operators symbol)
      action).withChunk opening).Formed := by
  unfold LexRegex.reference
  split <;> exact .opened (by decide)

end Rule

/-! ### What the rules do -/

/-- The kinds of tokens that code consists of, strings apart. -/
def TokenKind.isCode : TokenKind → Bool
  | newline | whitespace | comment | symbol | number | operator | bracketLeft | bracketRight
  | unknown => true
  | _ => false

/-- Whether a state reads code, at the root or inside a template. -/
def LexState.readsCode : LexState → Bool
  | root | template _ _ => true
  | string _ => false

/-- The template `j` of the string form `i` of a lexicon is code up to a closing text. -/
def Lexicon.HasCode (l : Lexicon) (i j : Nat) (opening closing : String) : Prop :=
  ∃ s, l.strings[i]? = some s ∧ s.templates[j]? = some (.code opening closing)

/-- The rules that a state can have. -/
inductive Lexicon.HasRule (l : Lexicon) : LexState → StateRule → Prop
  /-- Reads a token of code. -/
  | code {state r} : state.readsCode → r.kind.isCode → r.action = .stay → r.Advances →
      r.Formed → HasRule l state r
  /-- Enters a string. -/
  | enterString {state name i s} : state.readsCode → l.strings[i]? = some s →
      HasRule l state (.literal name .stringStart s.opening (.push (.string i)))
  /-- Leaves a template. -/
  | leaveTemplate {name i j opening closing} : l.HasCode i j opening closing →
      HasRule l (.template i j) (.literal name .templateEnd closing .pop)
  /-- Reads content of a string. -/
  | content {i r} : r.kind = .stringValue → r.action = .stay → r.Advances → r.Formed →
      HasRule l (.string i) r
  /-- Enters a template. -/
  | enterTemplate {name i j opening closing} : l.HasCode i j opening closing →
      HasRule l (.string i) (.literal name .templateStart opening (.push (.template i j)))
  /-- Cuts up a reference. -/
  | reference {i j : Nat} {s : StringForm} {r opening symbols operators symbol} :
      l.strings[i]? = some s →
      s.templates[j]? = some (.reference opening symbols operators) →
      r.kind = .templateStart → r.Advances →
      r.action = .split (RuleTable.referenceRules opening operators symbol) → r.Formed →
      HasRule l (.string i) r
  /-- Leaves a string. -/
  | leaveString {name i s} : l.strings[i]? = some s →
      HasRule l (.string i) (.literal name .stringEnd s.ending .pop)

namespace Lexicon

variable {l : Lexicon}

theorem Accepted.string_of_getElem? (hl : l.Accepted) {i : Nat} {s : StringForm}
    (hs : l.strings[i]? = some s) : s.Accepted l :=
  hl.strings s (List.mem_of_getElem? hs)

theorem Accepted.template_of_getElem? (hl : l.Accepted) {i j : Nat} {s : StringForm}
    {t : TemplateForm} (hs : l.strings[i]? = some s) (ht : s.templates[j]? = some t) :
    t.Accepted l s.ending :=
  (hl.string_of_getElem? hs).templates t (List.mem_of_getElem? ht)

/-- In an accepted lexicon, no rule matches the empty text. -/
theorem HasRule.advances (hl : l.Accepted) {state : LexState} {r : StateRule}
    (h : l.HasRule state r) : r.Advances := by
  have literal {name : String} {kind : TokenKind} {text : String} {action : Transition LexState}
      (h : text ≠ "") : (Rule.literal name kind text action).Advances :=
    fun he => h (Recognizer.literal.inj he)
  cases h with
  | code _ _ _ h _ => exact h
  | enterString _ hs => exact literal (hl.string_of_getElem? hs).opening_ne
  | leaveTemplate h =>
      obtain ⟨s, hs, ht⟩ := h
      exact literal ((hl.template_of_getElem? hs ht).closing_ne _ _ rfl)
  | content _ _ h _ => exact h
  | enterTemplate h =>
      obtain ⟨s, hs, ht⟩ := h
      exact literal (hl.template_of_getElem? hs ht).opening_ne
  | reference _ _ _ h _ _ => exact h
  | leaveString hs => exact literal (hl.string_of_getElem? hs).ending_ne

/-- What ordinary code has, the code of a template has as well. -/
theorem HasRule.template_of_root {r : StateRule} (h : l.HasRule .root r) (i j : Nat) :
    l.HasRule (.template i j) r := by
  cases h with
  | code _ hk ha hr hformed => exact .code rfl hk ha hr hformed
  | enterString _ hs => exact .enterString rfl hs

end Lexicon

/-- A small language with braces and with strings in which names stand behind a dollar sign and
code stands in braces. -/
def Lexicon.interpolating : Lexicon where
  symbols := "[a-z]+"
  numbers := "[0-9]+"
  operators := ["."]
  brackets := [{ opening := "\x7b", closing := "\x7d" }]
  strings :=
    [{ opening := "\""
       templates := [.reference "$" "[a-z]+" ["."], .code "\x7b" "\x7d"] }]

theorem LexRegex.read_eq_ok_iff {part : GrammarPart} {text : String} {r : Regex} :
    read part text = .ok r ↔ Regex.parse text = .ok r := by
  rw [read]
  cases Regex.parse text <;> simp

/-! ### The rules of a reference -/

namespace RuleTable

theorem mem_operatorRules {α : Type} {operators : List String} {action : α} {r : Rule α}
    (h : r ∈ operatorRules operators action) :
    ∃ name, ∃ op ∈ operators, r = .literal name .operator op action := by
  obtain ⟨⟨i, op⟩, hop, rfl⟩ := List.mem_map.mp h
  obtain ⟨i', hi, he⟩ := List.mem_mapIdx.mp hop
  cases he
  exact ⟨_, _, List.getElem_mem hi, rfl⟩

theorem mem_referenceRules {opening : String} {operators : List String} {symbol : Regex}
    {r : PartRule} :
    r ∈ referenceRules opening operators symbol ↔ r = .literal "start" .templateStart opening () ∨
      r = .pattern "symbol" .symbol symbol () ∨ r ∈ operatorRules operators () ∨
      r = .fallback "unknown" .unknown () := by
  rw [referenceRules, Rule.mem_sort, List.mem_append, List.mem_append, List.mem_pair,
    List.mem_singleton, or_assoc, or_assoc]

/-- The kinds of the tokens that a reference is cut into. -/
def isReferenceKind : TokenKind → Bool
  | .templateStart | .symbol | .operator | .unknown => true
  | _ => false

theorem kind_of_mem_referenceRules {opening : String} {operators : List String} {symbol : Regex}
    {r : PartRule} (h : r ∈ referenceRules opening operators symbol) : isReferenceKind r.kind := by
  rcases mem_referenceRules.mp h with rfl | rfl | h | rfl
  · rfl
  · rfl
  · obtain ⟨_, _, _, rfl⟩ := mem_operatorRules h
    rfl
  · rfl

theorem advances_of_mem_referenceRules {opening : String} {operators : List String}
    {symbol : Regex} (ho : opening ≠ "") (hops : ∀ op ∈ operators, op ≠ "") {r : PartRule}
    (h : r ∈ referenceRules opening operators symbol) : r.Advances := by
  rcases mem_referenceRules.mp h with rfl | rfl | h | rfl
  · exact fun he => ho (Recognizer.literal.inj he)
  · exact Recognizer.noConfusion
  · obtain ⟨_, op, hop, rfl⟩ := mem_operatorRules h
    exact fun he => hops op hop (Recognizer.literal.inj he)
  · exact Recognizer.noConfusion

/-! ### The rules of the states -/

variable {l : Lexicon}

theorem mem_of_mem_distinct {seen : List String} {rules : List StateRule} {r : StateRule}
    (h : r ∈ distinctOperatorRules.go seen rules) : r ∈ rules := by
  induction rules generalizing seen with
  | nil => exact h
  | cons s rest ih =>
      rw [distinctOperatorRules.go] at h
      split at h
      · split at h
        · exact List.mem_cons_of_mem s (ih h)
        · rcases List.mem_cons.mp h with rfl | h
          · exact List.mem_cons_self
          · exact List.mem_cons_of_mem s (ih h)
      · rcases List.mem_cons.mp h with rfl | h
        · exact List.mem_cons_self
        · exact List.mem_cons_of_mem s (ih h)

theorem hasRule_of_mem_rootRules (hl : l.Accepted) {rules : List StateRule}
    (h : rootRules l = .ok rules) {r : StateRule} (hr : r ∈ rules) : l.HasRule .root r := by
  rw [rootRules] at h
  obtain ⟨symbols, -, h⟩ := bind_eq_ok_iff.mp h
  obtain ⟨numbers, -, h⟩ := bind_eq_ok_iff.mp h
  cases h
  rw [Rule.mem_sort] at hr
  simp only [List.mem_append] at hr
  rcases hr with (((((h | h) | h) | h) | h) | h) | h
  · rcases List.mem_pair.mp h with rfl | rfl <;>
      exact .code rfl rfl rfl Recognizer.noConfusion .pattern
  · obtain ⟨i, _, rfl⟩ := List.mem_mapIdx.mp h
    exact .code rfl rfl rfl Recognizer.noConfusion (Rule.formed_comment _ _ _)
  · rcases List.mem_pair.mp h with rfl | rfl <;>
      exact .code rfl rfl rfl Recognizer.noConfusion .pattern
  · obtain ⟨_, op, hop, rfl⟩ := mem_operatorRules (mem_of_mem_distinct h)
    exact .code rfl rfl rfl (fun he => hl.operators_ne op hop (Recognizer.literal.inj he))
      (.literal (by decide))
  · obtain ⟨pair, hpair, hr⟩ := List.mem_flatten.mp h
    obtain ⟨i, hi, rfl⟩ := List.mem_mapIdx.mp hpair
    obtain ⟨ho, hc⟩ := hl.brackets_ne _ (List.getElem_mem hi)
    rcases List.mem_pair.mp hr with rfl | rfl
    · exact .code rfl rfl rfl (fun he => ho (Recognizer.literal.inj he)) (.literal (by decide))
    · exact .code rfl rfl rfl (fun he => hc (Recognizer.literal.inj he)) (.literal (by decide))
  · obtain ⟨i, hi, rfl⟩ := List.mem_mapIdx.mp h
    exact .enterString rfl (List.getElem?_eq_getElem hi)
  · rw [List.mem_singleton.mp h]
    exact .code rfl rfl rfl Recognizer.noConfusion (.fallback (by decide))

theorem hasRule_of_templateRule {i j : Nat} {s : StringForm} {t : TemplateForm} {r : StateRule}
    (hs : l.strings[i]? = some s) (ht : s.templates[j]? = some t)
    (h : templateRule i j t = .ok r) : l.HasRule (.string i) r := by
  cases t with
  | code opening closing =>
      cases h
      exact .enterTemplate ⟨s, hs, ht⟩
  | reference opening symbols operators =>
      obtain ⟨_, -, h⟩ := bind_eq_ok_iff.mp h
      obtain ⟨symbol, -, h⟩ := bind_eq_ok_iff.mp h
      cases h
      exact .reference hs ht rfl Recognizer.noConfusion rfl (Rule.formed_reference _ _ _ _ _)

/-- How the rules of the content of a string are made. -/
theorem mem_stringRules_iff {i : Nat} {s : StringForm} {rules : List StateRule}
    (h : stringRules i s = .ok rules) {r : StateRule} :
    r ∈ rules ↔
      r = .literal ((LexState.string i).name ++ "$end") .stringEnd s.ending .pop ∨
      (∃ j t, s.templates[j]? = some t ∧ templateRule i j t = .ok r) ∨
      (∃ text, s.escape = some text ∧
        r = (Rule.pattern ((LexState.string i).name ++ "$escape") .stringValue
          (LexRegex.escape text) .stay).withChunk text) ∨
      r = .fallback ((LexState.string i).name ++ "$value") .stringValue .stay := by
  rw [stringRules] at h
  obtain ⟨templates, htemplates, h⟩ := bind_eq_ok_iff.mp h
  obtain ⟨hlength, htemplates⟩ := mapIdx_mapM_eq_ok_iff.mp htemplates
  cases h
  rw [Rule.mem_sort, List.mem_append, List.mem_append, List.mem_append, List.mem_singleton,
    List.mem_singleton, or_assoc, or_assoc]
  refine or_congr_right (or_congr ?_ (or_congr_left ?_))
  · rw [List.mem_iff_getElem]
    constructor
    · rintro ⟨j, hj, rfl⟩
      have hj' : j < s.templates.length := hlength ▸ hj
      exact ⟨j, _, List.getElem?_eq_getElem hj', htemplates j hj' hj⟩
    · rintro ⟨j, t, ht, hr⟩
      obtain ⟨hj, rfl⟩ := List.getElem?_eq_some_iff.mp ht
      exact ⟨j, hlength ▸ hj, Except.ok.inj ((htemplates j hj (hlength ▸ hj)).symm.trans hr)⟩
  · rw [List.mem_map]
    simp only [Option.mem_toList, eq_comm]

theorem exists_templateRule {i j : Nat} {s : StringForm} {t : TemplateForm}
    {rules : List StateRule} (h : stringRules i s = .ok rules) (ht : s.templates[j]? = some t) :
    ∃ r ∈ rules, templateRule i j t = .ok r := by
  have hrules := h
  rw [stringRules] at h
  obtain ⟨templates, htemplates, -⟩ := bind_eq_ok_iff.mp h
  obtain ⟨hlength, htemplates⟩ := mapIdx_mapM_eq_ok_iff.mp htemplates
  obtain ⟨hj, rfl⟩ := List.getElem?_eq_some_iff.mp ht
  have hrule := htemplates j hj (hlength ▸ hj)
  exact ⟨_, (mem_stringRules_iff hrules).mpr (.inr (.inl ⟨j, _, ht, hrule⟩)), hrule⟩

theorem hasRule_of_mem_stringRules {i : Nat} {s : StringForm} (hs : l.strings[i]? = some s)
    {rules : List StateRule} (h : stringRules i s = .ok rules) {r : StateRule} (hr : r ∈ rules) :
    l.HasRule (.string i) r := by
  rcases (mem_stringRules_iff h).mp hr with rfl | ⟨j, t, ht, hrule⟩ | ⟨text, -, rfl⟩ | rfl
  · exact .leaveString hs
  · exact hasRule_of_templateRule hs ht hrule
  · exact .content rfl rfl Recognizer.noConfusion (.opened (by decide))
  · exact .content rfl rfl Recognizer.noConfusion (.fallback (by decide))

theorem mem_replaceLiteral {text : String} {r s : StateRule} {rules : List StateRule}
    (h : s ∈ replaceLiteral text r rules) : s = r ∨ s ∈ rules := by
  induction rules with
  | nil => exact .inl (List.mem_singleton.mp h)
  | cons u rest ih =>
      rw [replaceLiteral] at h
      split at h
      · rcases List.mem_cons.mp h with rfl | h
        · exact .inl rfl
        · exact .inr (List.mem_cons_of_mem u h)
      · rcases List.mem_cons.mp h with rfl | h
        · exact .inr List.mem_cons_self
        · exact (ih h).imp_right (List.mem_cons_of_mem u)

theorem mem_templateStates {root : List StateRule} {i : Nat} {s : StringForm}
    {entry : LexState × List StateRule} :
    entry ∈ templateStates root i s ↔ ∃ j opening closing,
      s.templates[j]? = some (.code opening closing) ∧
      entry = (.template i j, templateRules root (.template i j) closing) := by
  unfold templateStates
  rw [List.mem_flatten]
  constructor
  · rintro ⟨entries, hentries, hentry⟩
    obtain ⟨j, hj, rfl⟩ := List.mem_mapIdx.mp hentries
    split at hentry
    · next opening closing ht =>
      exact ⟨j, opening, closing, ht ▸ List.getElem?_eq_getElem hj, List.mem_singleton.mp hentry⟩
    · cases hentry
  · rintro ⟨j, opening, closing, ht, rfl⟩
    obtain ⟨hj, ht⟩ := List.getElem?_eq_some_iff.mp ht
    refine ⟨_, List.mem_mapIdx.mpr ⟨j, hj, rfl⟩, ?_⟩
    rw [ht]
    exact List.mem_singleton_self _

/-- The states of a table that was built, each with its rules. -/
theorem mem_states_iff {table : RuleTable} (h : ofLexicon l = .ok table) :
    l.Accepted ∧ ∃ root, rootRules l = .ok root ∧ ∀ state rules,
      (state, rules) ∈ table.states ↔
        (state = .root ∧ rules = root) ∨
        (∃ i s, l.strings[i]? = some s ∧ state = .string i ∧ stringRules i s = .ok rules) ∨
        (∃ i j opening closing, l.HasCode i j opening closing ∧ state = .template i j ∧
          rules = templateRules root state closing) := by
  rw [ofLexicon] at h
  obtain ⟨hcheck, h⟩ := unit_bind_eq_ok_iff.mp h
  obtain ⟨root, hroot, h⟩ := bind_eq_ok_iff.mp h
  obtain ⟨bodies, hbodies, h⟩ := bind_eq_ok_iff.mp h
  obtain ⟨hlength, hbodies⟩ := mapIdx_mapM_eq_ok_iff.mp hbodies
  cases h
  refine ⟨Lexicon.check_eq_ok_iff.mp hcheck, root, hroot, fun state rules => ?_⟩
  rw [List.cons_append, List.mem_cons, List.mem_append, Prod.mk.injEq]
  refine or_congr_right (or_congr ?_ ?_)
  · rw [List.mem_mapIdx]
    constructor
    · rintro ⟨i, hi, he⟩
      cases he
      have hi' : i < l.strings.length := hlength ▸ hi
      exact ⟨i, _, List.getElem?_eq_getElem hi', rfl, hbodies i hi' hi⟩
    · rintro ⟨i, s, hs, rfl, hrules⟩
      obtain ⟨hi, rfl⟩ := List.getElem?_eq_some_iff.mp hs
      refine ⟨i, hlength ▸ hi, ?_⟩
      have := (hbodies i hi (hlength ▸ hi)).symm.trans hrules
      rw [Except.ok.inj this]
  · rw [List.mem_flatten]
    constructor
    · rintro ⟨entries, hentries, hentry⟩
      obtain ⟨i, hi, rfl⟩ := List.mem_mapIdx.mp hentries
      obtain ⟨j, opening, closing, ht, he⟩ := mem_templateStates.mp hentry
      cases he
      exact ⟨i, j, opening, closing, ⟨_, List.getElem?_eq_getElem hi, ht⟩, rfl, rfl⟩
    · rintro ⟨i, j, opening, closing, ⟨s, hs, ht⟩, rfl, rfl⟩
      obtain ⟨hi, rfl⟩ := List.getElem?_eq_some_iff.mp hs
      exact ⟨_, List.mem_mapIdx.mpr ⟨i, hi, rfl⟩,
        mem_templateStates.mpr ⟨j, opening, closing, ht, rfl⟩⟩

/-- A lexicon whose delimiters pass the check and whose expressions are well-formed has a table. -/
theorem exists_ofLexicon (hcheck : l.check = .ok ())
    (hsymbols : ∃ r, Regex.parse l.symbols = .ok r) (hnumbers : ∃ r, Regex.parse l.numbers = .ok r)
    (hstrings : ((l.strings.mapIdx fun i s => stringRules i s).mapM id).isOk) :
    ∃ table, ofLexicon l = .ok table := by
  obtain ⟨symbols, hsymbols⟩ := hsymbols
  obtain ⟨numbers, hnumbers⟩ := hnumbers
  cases hbodies : (l.strings.mapIdx fun i s => stringRules i s).mapM id with
  | error e =>
      rw [hbodies] at hstrings
      cases hstrings
  | ok bodies =>
      rw [ofLexicon, rootRules, hcheck, LexRegex.read_eq_ok_iff.mpr hsymbols,
        LexRegex.read_eq_ok_iff.mpr hnumbers, hbodies]
      exact ⟨_, rfl⟩

theorem exists_stringRules {table : RuleTable} (h : ofLexicon l = .ok table) {i : Nat}
    {s : StringForm} (hs : l.strings[i]? = some s) : ∃ rules, stringRules i s = .ok rules := by
  rw [ofLexicon] at h
  obtain ⟨-, h⟩ := unit_bind_eq_ok_iff.mp h
  obtain ⟨_, -, h⟩ := bind_eq_ok_iff.mp h
  obtain ⟨bodies, hbodies, -⟩ := bind_eq_ok_iff.mp h
  obtain ⟨hlength, hbodies⟩ := mapIdx_mapM_eq_ok_iff.mp hbodies
  obtain ⟨hi, rfl⟩ := List.getElem?_eq_some_iff.mp hs
  exact ⟨_, hbodies i hi (hlength ▸ hi)⟩

theorem accepted_of_ofLexicon {table : RuleTable} (h : ofLexicon l = .ok table) : l.Accepted :=
  (mem_states_iff h).1

theorem exists_of_mem_rulesOf {table : RuleTable} {state : LexState} {r : StateRule}
    (h : r ∈ table.rulesOf state) : ∃ rules, (state, rules) ∈ table.states ∧ r ∈ rules := by
  rw [rulesOf] at h
  cases hlook : table.states.lookup state with
  | none =>
      rw [hlook] at h
      cases h
  | some rules =>
      rw [hlook] at h
      obtain ⟨before, after, hstates, -⟩ := List.lookup_eq_some_iff.mp hlook
      exact ⟨rules, hstates ▸ List.mem_append_right before List.mem_cons_self, h⟩

theorem contains_of_mem {table : RuleTable} {state : LexState} {rules : List StateRule}
    (h : (state, rules) ∈ table.states) : table.contains state := by
  rw [contains, List.lookup_isSome_iff]
  exact ⟨_, h, beq_self_eq_true state⟩

/-- A state of a table that was built has no other rules. -/
theorem hasRule_of_mem_states {table : RuleTable} (h : ofLexicon l = .ok table)
    {state : LexState} {rules : List StateRule} (hmem : (state, rules) ∈ table.states)
    {r : StateRule} (hr : r ∈ rules) : l.HasRule state r := by
  obtain ⟨hl, root, hroot, hstates⟩ := mem_states_iff h
  rcases (hstates state rules).mp hmem with
    ⟨rfl, rfl⟩ | ⟨i, s, hs, rfl, hrules⟩ | ⟨i, j, opening, closing, hcode, rfl, rfl⟩
  · exact hasRule_of_mem_rootRules hl hroot hr
  · exact hasRule_of_mem_stringRules hs hrules hr
  · rw [templateRules, Rule.mem_sort] at hr
    rcases mem_replaceLiteral hr with rfl | hr
    · exact .leaveTemplate hcode
    · exact (hasRule_of_mem_rootRules hl hroot hr).template_of_root i j

theorem hasRule_of_mem {table : RuleTable} (h : ofLexicon l = .ok table) {state : LexState}
    {r : StateRule} (hr : r ∈ table.rulesOf state) : l.HasRule state r := by
  obtain ⟨rules, hmem, hin⟩ := exists_of_mem_rulesOf hr
  exact hasRule_of_mem_states h hmem hin

/-- A state that a rule enters is in the table. -/
theorem contains_of_hasRule {table : RuleTable} (h : ofLexicon l = .ok table)
    {state target : LexState} {r : StateRule} (hr : l.HasRule state r)
    (ht : r.action = .push target) : table.contains target := by
  obtain ⟨-, root, -, hstates⟩ := mem_states_iff h
  cases hr with
  | code _ _ ha _ => simp [ha] at ht
  | @enterString _ _ i s _ hs =>
      cases ht
      obtain ⟨rules, hrules⟩ := exists_stringRules h hs
      exact contains_of_mem ((hstates _ _).mpr (.inr (.inl ⟨i, s, hs, rfl, hrules⟩)))
  | leaveTemplate _ => cases ht
  | content _ ha _ => simp [ha] at ht
  | enterTemplate hcode =>
      cases ht
      exact contains_of_mem ((hstates _ _).mpr (.inr (.inr ⟨_, _, _, _, hcode, rfl, rfl⟩)))
  | reference _ _ _ _ ha => simp [ha] at ht
  | leaveString _ => cases ht

theorem contains_of_push {table : RuleTable} (h : ofLexicon l = .ok table)
    {state target : LexState} {r : StateRule} (hr : r ∈ table.rulesOf state)
    (ht : r.action = .push target) : table.contains target :=
  contains_of_hasRule h (hasRule_of_mem h hr) ht

end RuleTable

end Nesting
