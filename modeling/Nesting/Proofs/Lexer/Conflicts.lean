import Nesting.Proofs.Lexer.References
import Nesting.Proofs.Lexer.TemplateCode

/-! # Conflicts between delimiters

A literal rule behind another one for the same text never gets its turn
(`Rule.first?_of_shadowed`), so two such rules that give different tokens, or go on in different
states, are a conflict: one delimiter of the lexicon cannot be reached.  The checks of a lexicon
exclude only some conflicts.  An accepted lexicon has none exactly if it keeps its delimiters apart
(`RuleTable.conflictFree_iff`): operators, openings and closings of brackets share no text, the
code templates of a string open with different texts, what ends such a template closes at most one
bracket, and no reference opens with one of its operators. -/

namespace Nesting

/-! ### Rules for one text -/

namespace Rule

variable {α : Type}

/-- Rules for the same text give the same tokens and go on in the same way. -/
def Unambiguous (rules : List (Rule α)) : Prop :=
  ∀ r ∈ rules, ∀ s ∈ rules, ∀ text, r.literalText? = some text → s.literalText? = some text →
    r.kind = s.kind ∧ r.action = s.action

/-- The texts of the literal rules of a list. -/
def texts (rules : List (Rule α)) : List String := rules.filterMap literalText?

theorem mem_texts {rules : List (Rule α)} {text : String} :
    text ∈ texts rules ↔ ∃ r ∈ rules, r.literalText? = some text :=
  List.mem_filterMap

/-- What stands behind another rule for its text is as good as absent. -/
theorem first?_of_shadowed {before between after : List (Rule α)} {r s : Rule α} {text : String}
    (hr : r.literalText? = some text) (hs : s.literalText? = some text) (p : Place) :
    first? (before ++ r :: between ++ s :: after) p =
      first? (before ++ r :: between ++ after) p := by
  have hsame : s.end? p = r.end? p := by
    rw [end?_of_literalText? hs, end?_of_literalText? hr]
  rw [first?_append, first?_append _ after]
  cases hfirst : first? (before ++ r :: between) p with
  | some found => rfl
  | none =>
      have hnone : ∀ u ∈ [s], u.end? p = none :=
        List.forall_mem_singleton.mpr (hsame.trans (first?_eq_none_iff.mp hfirst r (by simp)))
      rw [← List.singleton_append, first?_append [s], first?_eq_none_iff.mpr hnone]
      rfl

theorem Unambiguous.perm {rules rules' : List (Rule α)} (h : rules.Perm rules') :
    Unambiguous rules ↔ Unambiguous rules' := by
  simp only [Unambiguous, h.mem_iff]

end Rule

namespace RuleTable

/-- A rule of a kind of its own that replaces the first rule for its text makes a conflict exactly
if there is a second rule for this text. -/
theorem unambiguous_replaceLiteral {rules : List StateRule} (h : Rule.Unambiguous rules)
    {r : StateRule} {text : String} (hr : r.literalText? = some text)
    (hkind : ∀ s ∈ rules, s.kind ≠ r.kind) :
    Rule.Unambiguous (replaceLiteral text r rules) ↔ (Rule.texts rules).count text ≤ 1 := by
  have agree {others : List StateRule} (hothers : ∀ s ∈ others, s ∈ rules)
      (hnone : ∀ s ∈ others, s.literalText? ≠ some text) : Rule.Unambiguous (r :: others) := by
    intro s hs u hu t hst hut
    rcases List.mem_cons.mp hs with hsr | hs <;> rcases List.mem_cons.mp hu with hur | hu
    · rw [hsr, hur]
      exact ⟨rfl, rfl⟩
    · rw [hsr, hr] at hst
      exact absurd (hut.trans hst.symm) (hnone u hu)
    · rw [hur, hr] at hut
      exact absurd (hst.trans hut.symm) (hnone s hs)
    · exact h s (hothers s hs) u (hothers u hu) t hst hut
  rcases replaceLiteral_eq text r rules with
    ⟨before, s, behind, rfl, hs, hbefore, heq⟩ | ⟨hnone, heq⟩
  · have hfirst : text ∉ Rule.texts before := by
      rw [Rule.mem_texts]
      rintro ⟨u, hu, hut⟩
      exact hbefore u hu hut
    have hcount : (Rule.texts (before ++ s :: behind)).count text ≤ 1 ↔
        text ∉ Rule.texts behind := by
      rw [Rule.texts, List.filterMap_append, List.filterMap_cons_some hs, List.count_append,
        List.count_cons_self, ← Rule.texts, List.count_eq_zero_of_not_mem hfirst, ← Rule.texts,
        ← List.count_eq_zero]
      omega
    rw [heq, hcount, Rule.Unambiguous.perm List.perm_middle, Rule.mem_texts]
    constructor
    · rintro hrules ⟨u, hu, hut⟩
      have hkinds := (hrules u (by simp [hu]) r List.mem_cons_self text hut hr).1
      exact hkind u (by simp [hu]) hkinds
    · intro hnone
      refine agree (fun u hu => ?_) (fun u hu hut => ?_)
      · rcases List.mem_append.mp hu with hu | hu <;> simp [hu]
      · rcases List.mem_append.mp hu with hu | hu
        · exact hbefore u hu hut
        · exact hnone ⟨u, hu, hut⟩
  · have hzero : (Rule.texts rules).count text = 0 := by
      rw [List.count_eq_zero, Rule.mem_texts]
      rintro ⟨u, hu, hut⟩
      exact hnone u hu hut
    rw [heq, hzero, Rule.Unambiguous.perm (List.perm_append_singleton r rules)]
    exact iff_of_true (agree (fun _ hu => hu) hnone) (Nat.zero_le 1)

end RuleTable

/-! ### Lexicons that keep their delimiters apart -/

namespace Lexicon

/-- The texts that close brackets. -/
def closings (l : Lexicon) : List String := l.brackets.map BracketForm.closing

end Lexicon

/-- The texts that open the code templates of a string. -/
def StringForm.codeOpenings (s : StringForm) : List String :=
  s.templates.filterMap fun
    | .code opening _ => some opening
    | .reference .. => none

/-- A string whose templates get in the way neither of each other nor of brackets. -/
structure StringForm.Separated (l : Lexicon) (s : StringForm) : Prop where
  codeOpenings_nodup : s.codeOpenings.Nodup
  /-- There is at most one rule that the one that ends a template has to replace. -/
  closing : ∀ o e, .code o e ∈ s.templates → l.closings.count e ≤ 1
  reference : ∀ o ss ops, .reference o ss ops ∈ s.templates → o ∉ ops

/-- A lexicon that has no text for two purposes. -/
structure Lexicon.Separated (l : Lexicon) : Prop where
  operators_openings : l.operators.Disjoint l.openings
  operators_closings : l.operators.Disjoint l.closings
  closings_openings : l.closings.Disjoint l.openings
  strings : ∀ s ∈ l.strings, s.Separated l

/-! ### The literals of ordinary code -/

/-- What a literal rule of ordinary code makes of its text. -/
inductive Lexicon.Delimits (l : Lexicon) (text : String) : TokenKind → Transition LexState → Prop
  | operator : text ∈ l.operators → Delimits l text .operator .stay
  | opening : text ∈ l.brackets.map BracketForm.opening → Delimits l text .bracketLeft .stay
  | closing : text ∈ l.closings → Delimits l text .bracketRight .stay
  | string {i} : (l.strings.map StringForm.opening)[i]? = some text →
      Delimits l text .stringStart (.push (.string i))

namespace Lexicon

variable {l : Lexicon} {text : String} {kind kind' : TokenKind}
  {action action' : Transition LexState}

/-- Texts that open something are told apart by the checks of a lexicon. -/
theorem Delimits.eq_of_opens (hl : l.openings.Nodup) (hoperator : text ∉ l.operators)
    (hclosing : text ∉ l.closings) (h : l.Delimits text kind action)
    (h' : l.Delimits text kind' action') : kind = kind' ∧ action = action' := by
  obtain ⟨-, hstrings, hdisjoint⟩ := List.nodup_append.mp hl
  rcases h with h | h | h | @⟨i, h⟩
  · exact absurd h hoperator
  · rcases h' with h' | h' | h' | h'
    · exact absurd h' hoperator
    · exact ⟨rfl, rfl⟩
    · exact absurd h' hclosing
    · exact absurd rfl (hdisjoint text h text (List.mem_of_getElem? h'))
  · exact absurd h hclosing
  · rcases h' with h' | h' | h' | @⟨j, h'⟩
    · exact absurd h' hoperator
    · exact absurd rfl (hdisjoint text h' text (List.mem_of_getElem? h))
    · exact absurd h' hclosing
    · obtain rfl : i = j :=
        (List.getElem?_inj (List.getElem?_eq_some_iff.mp h).1 hstrings).mp (h.trans h'.symm)
      exact ⟨rfl, rfl⟩

theorem Delimits.of_not_opens (hopening : text ∉ l.openings) (h : l.Delimits text kind action) :
    action = .stay ∧ (kind = .operator ∧ text ∈ l.operators ∨
      kind = .bracketRight ∧ text ∈ l.closings) := by
  rcases h with h | h | h | h
  · exact ⟨rfl, .inl ⟨rfl, h⟩⟩
  · exact absurd (List.mem_append_left _ h) hopening
  · exact ⟨rfl, .inr ⟨rfl, h⟩⟩
  · exact absurd (List.mem_append_right _ (List.mem_of_getElem? h)) hopening

theorem exists_delimits_of_mem_openings (h : text ∈ l.openings) :
    ∃ kind action, l.Delimits text kind action ∧ kind ≠ .operator ∧ kind ≠ .bracketRight := by
  rcases List.mem_append.mp h with h | h
  · exact ⟨_, _, .opening h, nofun, nofun⟩
  · obtain ⟨i, hi⟩ := List.mem_iff_getElem?.mp h
    exact ⟨_, _, .string hi, nofun, nofun⟩

end Lexicon

namespace RuleTable

variable {l : Lexicon} {table : RuleTable}

/-- The literal rules of ordinary code. -/
def literalRules (l : Lexicon) : List StateRule :=
  distinctOperatorRules l ++ (bracketRules l ++ stringStartRules l)

/-- All other rules of ordinary code stand for no fixed text. -/
theorem exists_perm_literalRules {root : List StateRule} (h : rootRules l = .ok root) :
    ∃ others, root.Perm (others ++ literalRules l) ∧ ∀ r ∈ others, r.literalText? = none := by
  rw [rootRules] at h
  obtain ⟨symbols, -, h⟩ := bind_eq_ok_iff.mp h
  obtain ⟨numbers, -, h⟩ := bind_eq_ok_iff.mp h
  cases h
  refine ⟨([.pattern "newline" .newline LexRegex.newline .stay,
      .pattern "whitespace" .whitespace (LexRegex.whitespace l.lineJoin) .stay] ++ commentRules l ++
      [.pattern "symbol" .symbol symbols .stay, .pattern "number" .number numbers .stay]) ++
      [.fallback "unknown" .unknown .stay], (Rule.sort_perm _).trans ?_, ?_⟩
  · have hend {ops brackets strings last : List StateRule} :
        (ops ++ (brackets ++ (strings ++ last))).Perm
          (last ++ (ops ++ (brackets ++ strings))) := by
      simpa only [List.append_assoc] using
        (List.perm_append_comm : (ops ++ (brackets ++ strings) ++ last).Perm _)
    simp only [literalRules, List.append_assoc]
    exact ((hend.append_left _).append_left _).append_left _
  · intro r hr
    simp only [List.mem_append] at hr
    rcases hr with ((hr | hr) | hr) | hr
    · rcases List.mem_pair.mp hr with rfl | rfl <;> rfl
    · obtain ⟨i, hi, rfl⟩ := List.mem_mapIdx.mp hr
      rfl
    · rcases List.mem_pair.mp hr with rfl | rfl <;> rfl
    · rw [List.mem_singleton.mp hr]
      rfl

theorem texts_mapIdx {α β : Type} {f : Nat → β → Rule α} {g : β → String}
    (h : ∀ i b, (f i b).literalText? = some (g b)) (bs : List β) :
    Rule.texts (bs.mapIdx f) = bs.map g := by
  induction bs generalizing f with
  | nil => rfl
  | cons b bs ih =>
      rw [List.mapIdx_cons, Rule.texts, List.filterMap_cons_some (h 0 b), ← Rule.texts,
        ih fun i => h (i + 1), List.map_cons]

theorem texts_operatorRules {α : Type} (operators : List String) (action : α) :
    Rule.texts (operatorRules operators action) = operators := by
  have hsnd : (operators.mapIdx fun i op => (i, op)).map Prod.snd = operators :=
    List.ext_getElem (by simp) (by simp)
  conv_rhs => rw [← hsnd]
  rw [Rule.texts, operatorRules, List.filterMap_map, ← List.filterMap_eq_map]
  rfl

/-- The operators keep one rule for each text. -/
theorem texts_distinct {rules : List StateRule} (hrules : ∀ r ∈ rules, r.chunk = r.literalText?)
    (seen : List String) :
    (Rule.texts (distinctOperatorRules.go seen rules)).Nodup ∧
      ∀ text, text ∈ Rule.texts (distinctOperatorRules.go seen rules) ↔
        text ∈ Rule.texts rules ∧ text ∉ seen := by
  induction rules generalizing seen with
  | nil => exact ⟨List.nodup_nil, fun _ => iff_of_false List.not_mem_nil (fun h => nomatch h.1)⟩
  | cons r rest ih =>
      obtain ⟨hr, hrest⟩ := List.forall_mem_cons.mp hrules
      rw [distinctOperatorRules.go, hr]
      cases htext : r.literalText? with
      | none =>
          simp only [Rule.texts, List.filterMap_cons_none htext]
          exact ih hrest seen
      | some op =>
          have hcons (others : List StateRule) :
              Rule.texts (r :: others) = op :: Rule.texts others :=
            List.filterMap_cons_some htext
          dsimp only
          split
          · next hseen =>
            obtain ⟨hnodup, hmem⟩ := ih hrest seen
            refine ⟨hnodup, fun text => ?_⟩
            rw [hmem, hcons, List.mem_cons]
            refine and_congr_left fun hnew => ⟨.inr, fun h => h.resolve_left ?_⟩
            rintro rfl
            exact hnew (List.contains_iff_mem.mp hseen)
          · next hseen =>
            obtain ⟨hnodup, hmem⟩ := ih hrest (op :: seen)
            have hnew : op ∉ seen := fun h => hseen (List.contains_iff_mem.mpr h)
            refine ⟨?_, fun text => ?_⟩
            · rw [hcons, List.nodup_cons, hmem]
              exact ⟨fun h => h.2 List.mem_cons_self, hnodup⟩
            · rw [hcons, hcons, List.mem_cons, List.mem_cons, hmem, List.mem_cons]
              by_cases heq : text = op
              · simp [heq, hnew]
              · simp [heq]

theorem texts_bracketRules (l : Lexicon) :
    (Rule.texts (bracketRules l)).Perm (l.brackets.map BracketForm.opening ++ l.closings) := by
  have hflat {f : Nat → BracketForm → List StateRule}
      (h : ∀ i b, Rule.texts (f i b) = [b.opening] ++ [b.closing]) (bs : List BracketForm) :
      Rule.texts (bs.mapIdx f).flatten = bs.flatMap fun b => [b.opening] ++ [b.closing] := by
    induction bs generalizing f with
    | nil => rfl
    | cons b bs ih =>
        rw [List.mapIdx_cons, List.flatten_cons, Rule.texts, List.filterMap_append, ← Rule.texts,
          h, ← Rule.texts, ih fun i => h (i + 1), List.flatMap_cons]
  rw [bracketRules, hflat fun _ _ => rfl, Lexicon.closings, List.map_eq_flatMap,
    List.map_eq_flatMap]
  exact (List.flatMap_append_perm _ _ _).symm

theorem texts_stringStartRules (l : Lexicon) :
    Rule.texts (stringStartRules l) = l.strings.map StringForm.opening :=
  texts_mapIdx (fun _ _ => rfl) l.strings

theorem texts_distinctOperatorRules (l : Lexicon) :
    (Rule.texts (distinctOperatorRules l)).Nodup ∧
      ∀ text, text ∈ Rule.texts (distinctOperatorRules l) ↔ text ∈ l.operators := by
  have hchunk : ∀ r ∈ operatorRules l.operators (Transition.stay : Transition LexState),
      r.chunk = r.literalText? := by
    intro r hr
    obtain ⟨_, _, _, rfl⟩ := mem_operatorRules hr
    rfl
  obtain ⟨hnodup, hmem⟩ := texts_distinct hchunk []
  refine ⟨hnodup, fun text => (hmem text).trans ?_⟩
  rw [texts_operatorRules]
  exact and_iff_left List.not_mem_nil

/-- How many literal rules of ordinary code there are for a text. -/
theorem count_texts_root {root : List StateRule} (h : rootRules l = .ok root) (text : String) :
    (Rule.texts root).count text =
      (if text ∈ l.operators then 1 else 0) + l.openings.count text + l.closings.count text := by
  obtain ⟨others, hperm, hothers⟩ := exists_perm_literalRules h
  obtain ⟨hnodup, hmem⟩ := texts_distinctOperatorRules l
  have hnil : Rule.texts others = [] := List.filterMap_eq_nil_iff.mpr hothers
  have happend (rules rules' : List StateRule) :
      Rule.texts (rules ++ rules') = Rule.texts rules ++ Rule.texts rules' :=
    List.filterMap_append
  have hcount : (Rule.texts root).count text = (Rule.texts (others ++ literalRules l)).count text :=
    (hperm.filterMap _).count_eq text
  rw [hcount, literalRules, happend, happend, happend, hnil, List.nil_append, List.count_append,
    List.count_append, hnodup.count, (texts_bracketRules l).count_eq, texts_stringStartRules,
    Lexicon.openings, List.count_append, List.count_append]
  simp only [hmem]
  omega

/-- The literal rules of ordinary code are those of the delimiters. -/
theorem delimits_iff {root : List StateRule} (h : rootRules l = .ok root) {text : String}
    {kind : TokenKind} {action : Transition LexState} :
    l.Delimits text kind action ↔
      ∃ r ∈ root, r.literalText? = some text ∧ r.kind = kind ∧ r.action = action := by
  obtain ⟨others, hperm, hothers⟩ := exists_perm_literalRules h
  have mem_root {r : StateRule} (hr : r ∈ literalRules l) : r ∈ root :=
    hperm.mem_iff.mpr (List.mem_append_right others hr)
  have mem_brackets {i : Nat} (hi : i < l.brackets.length) {r : StateRule}
      (hr : r ∈ [Rule.literal ("bracket$" ++ toString i ++ "$start") .bracketLeft
          l.brackets[i].opening .stay,
        .literal ("bracket$" ++ toString i ++ "$end") .bracketRight l.brackets[i].closing .stay]) :
      r ∈ root :=
    mem_root <| List.mem_append_right _ <| List.mem_append_left _ <|
      List.mem_flatten.mpr ⟨_, List.mem_mapIdx.mpr ⟨i, hi, rfl⟩, hr⟩
  constructor
  · rintro (hop | hb | hb | hs)
    · obtain ⟨r, hr, htext⟩ :=
        Rule.mem_texts.mp (((texts_distinctOperatorRules l).2 text).mpr hop)
      obtain ⟨_, _, _, rfl⟩ := mem_operatorRules (mem_of_mem_distinct hr)
      exact ⟨_, mem_root (List.mem_append_left _ hr), htext, rfl, rfl⟩
    · obtain ⟨b, hmem, rfl⟩ := List.mem_map.mp hb
      obtain ⟨i, hi, rfl⟩ := List.mem_iff_getElem.mp hmem
      exact ⟨_, mem_brackets hi List.mem_cons_self, rfl, rfl, rfl⟩
    · obtain ⟨b, hmem, rfl⟩ := List.mem_map.mp hb
      obtain ⟨i, hi, rfl⟩ := List.mem_iff_getElem.mp hmem
      exact ⟨_, mem_brackets hi (List.mem_cons_of_mem _ List.mem_cons_self), rfl, rfl, rfl⟩
    · rw [List.getElem?_map, Option.map_eq_some_iff] at hs
      obtain ⟨s, hs, rfl⟩ := hs
      obtain ⟨hi, rfl⟩ := List.getElem?_eq_some_iff.mp hs
      exact ⟨_, mem_root (List.mem_append_right _ (List.mem_append_right _
        (List.mem_mapIdx.mpr ⟨_, hi, rfl⟩))), rfl, rfl, rfl⟩
  · rintro ⟨r, hr, htext, rfl, rfl⟩
    rw [hperm.mem_iff, literalRules, List.mem_append, List.mem_append, List.mem_append] at hr
    rcases hr with hr | hr | hr | hr
    · rw [hothers r hr] at htext
      cases htext
    · obtain ⟨_, op, hop, rfl⟩ := mem_operatorRules (mem_of_mem_distinct hr)
      cases htext
      exact .operator hop
    · obtain ⟨pair, hpair, hr⟩ := List.mem_flatten.mp hr
      obtain ⟨i, hi, rfl⟩ := List.mem_mapIdx.mp hpair
      rcases List.mem_pair.mp hr with rfl | rfl
      · cases htext
        exact .opening (List.mem_map_of_mem (List.getElem_mem hi))
      · cases htext
        exact .closing (List.mem_map_of_mem (List.getElem_mem hi))
    · obtain ⟨i, hi, rfl⟩ := List.mem_mapIdx.mp hr
      cases htext
      exact .string (by rw [List.getElem?_map, List.getElem?_eq_getElem hi]; rfl)

/-- Ordinary code has no conflicts exactly if operators, openings and closings share no text. -/
theorem unambiguous_root_iff (hl : l.openings.Nodup) {root : List StateRule}
    (h : rootRules l = .ok root) :
    Rule.Unambiguous root ↔ l.operators.Disjoint l.openings ∧ l.operators.Disjoint l.closings ∧
      l.closings.Disjoint l.openings := by
  constructor
  · intro hroot
    have agree {text : String} {kind kind' : TokenKind} {action action' : Transition LexState}
        (hd : l.Delimits text kind action) (hd' : l.Delimits text kind' action') :
        kind = kind' := by
      obtain ⟨r, hr, htext, rfl, -⟩ := (delimits_iff h).mp hd
      obtain ⟨s, hs, htext', rfl, -⟩ := (delimits_iff h).mp hd'
      exact (hroot r hr s hs text htext htext').1
    refine ⟨fun text hop hopening => ?_, fun text hop hclosing => ?_,
      fun text hclosing hopening => ?_⟩
    · obtain ⟨kind, action, hd, hne, -⟩ := Lexicon.exists_delimits_of_mem_openings hopening
      exact hne (agree hd (.operator hop))
    · cases agree (.operator hop) (.closing hclosing)
    · obtain ⟨kind, action, hd, -, hne⟩ := Lexicon.exists_delimits_of_mem_openings hopening
      exact hne (agree hd (.closing hclosing))
  · rintro ⟨hopopening, hopclosing, hclosingopening⟩ r hr s hs text htext htext'
    have hd := (delimits_iff h).mpr ⟨r, hr, htext, rfl, rfl⟩
    have hd' := (delimits_iff h).mpr ⟨s, hs, htext', rfl, rfl⟩
    by_cases hopening : text ∈ l.openings
    · exact hd.eq_of_opens hl (fun hop => hopopening hop hopening)
        (fun hclosing => hclosingopening hclosing hopening) hd'
    · obtain ⟨hstay, hkind⟩ := hd.of_not_opens hopening
      obtain ⟨hstay', hkind'⟩ := hd'.of_not_opens hopening
      refine ⟨?_, hstay.trans hstay'.symm⟩
      rcases hkind with ⟨hkind, hop⟩ | ⟨hkind, hclosing⟩ <;>
        rcases hkind' with ⟨hkind', hop'⟩ | ⟨hkind', hclosing'⟩
      · exact hkind.trans hkind'.symm
      · exact absurd hclosing' (hopclosing hop)
      · exact absurd hclosing (hopclosing hop')
      · exact hkind.trans hkind'.symm

/-! ### The other states -/

/-- The literal rules of the content of a string. -/
theorem literal_mem_stringRules_iff {i : Nat} {s : StringForm} {rules : List StateRule}
    (h : stringRules i s = .ok rules) {text : String} {kind : TokenKind}
    {action : Transition LexState} :
    (∃ r ∈ rules, r.literalText? = some text ∧ r.kind = kind ∧ r.action = action) ↔
      text = s.ending ∧ kind = .stringEnd ∧ action = .pop ∨
      ∃ j closing, s.templates[j]? = some (.code text closing) ∧ kind = .templateStart ∧
        action = .push (.template i j) := by
  simp only [mem_stringRules_iff h]
  constructor
  · rintro ⟨r, rfl | ⟨j, t, ht, hr⟩ | ⟨escape, -, rfl⟩ | rfl, htext, rfl, rfl⟩
    · cases htext
      exact .inl ⟨rfl, rfl, rfl⟩
    · cases t with
      | code opening closing =>
          cases hr
          cases htext
          exact .inr ⟨j, closing, ht, rfl, rfl⟩
      | reference opening symbols operators =>
          obtain ⟨_, -, hr⟩ := bind_eq_ok_iff.mp hr
          obtain ⟨symbol, -, hr⟩ := bind_eq_ok_iff.mp hr
          cases hr
          cases htext
    · cases htext
    · cases htext
  · rintro (⟨rfl, rfl, rfl⟩ | ⟨j, closing, ht, rfl, rfl⟩)
    · exact ⟨_, .inl rfl, rfl, rfl, rfl⟩
    · exact ⟨_, .inr (.inl ⟨j, _, ht, rfl⟩), rfl, rfl, rfl⟩

theorem nodup_codeOpenings_iff {s : StringForm} :
    s.codeOpenings.Nodup ↔ ∀ (j k : Nat) (opening e e' : String),
      s.templates[j]? = some (.code opening e) → s.templates[k]? = some (.code opening e') →
      j = k := by
  rw [StringForm.codeOpenings, List.Nodup, List.pairwise_filterMap, List.pairwise_iff_getElem]
  constructor
  · intro h j k opening e e' hj hk
    obtain ⟨hjlt, hj⟩ := List.getElem?_eq_some_iff.mp hj
    obtain ⟨hklt, hk⟩ := List.getElem?_eq_some_iff.mp hk
    rcases Nat.lt_trichotomy j k with hlt | rfl | hlt
    · exact absurd rfl (h j k hjlt hklt hlt opening (by rw [hj]) opening (by rw [hk]))
    · rfl
    · exact absurd rfl (h k j hklt hjlt hlt opening (by rw [hk]) opening (by rw [hj]))
  · rintro h j k hj hk hlt opening hopening _ hopening' rfl
    split at hopening
    · next o e hcode =>
      cases hopening
      split at hopening'
      · next o' e' hcode' =>
        cases hopening'
        have hcode := List.getElem?_eq_some_iff.mpr ⟨hj, hcode⟩
        have hcode' := List.getElem?_eq_some_iff.mpr ⟨hk, hcode'⟩
        exact hlt.ne (h j k _ e e' hcode hcode')
      · cases hopening'
    · cases hopening

/-- The content of a string has no conflicts exactly if its code templates open differently. -/
theorem unambiguous_stringRules_iff {i : Nat} {s : StringForm} (hs : s.Accepted l)
    {rules : List StateRule} (h : stringRules i s = .ok rules) :
    Rule.Unambiguous rules ↔ s.codeOpenings.Nodup := by
  rw [nodup_codeOpenings_iff]
  constructor
  · intro hrules j k opening e e' hj hk
    obtain ⟨r, hr, htext, -, haction⟩ :=
      (literal_mem_stringRules_iff h).mpr (.inr ⟨j, e, hj, rfl, rfl⟩)
    obtain ⟨u, hu, htext', -, haction'⟩ :=
      (literal_mem_stringRules_iff h).mpr (.inr ⟨k, e', hk, rfl, rfl⟩)
    have := haction.symm.trans ((hrules r hr u hu opening htext htext').2.trans haction')
    cases this
    rfl
  · intro hdistinct r hr u hu text htext htext'
    have hne {j : Nat} {opening e : String} (hj : s.templates[j]? = some (.code opening e)) :
        opening ≠ s.ending := (hs.templates _ (List.mem_of_getElem? hj)).opening_ne_ending
    obtain ⟨rfl, hk, ha⟩ | ⟨j, e, hj, hk, ha⟩ :=
      (literal_mem_stringRules_iff h).mp ⟨r, hr, htext, rfl, rfl⟩ <;>
    obtain ⟨heq, hk', ha'⟩ | ⟨k, e', hj', hk', ha'⟩ :=
      (literal_mem_stringRules_iff h).mp ⟨u, hu, htext', rfl, rfl⟩
    · exact ⟨hk.trans hk'.symm, ha.trans ha'.symm⟩
    · exact absurd rfl (hne hj')
    · exact absurd heq (hne hj)
    · obtain rfl := hdistinct j k text e e' hj hj'
      exact ⟨hk.trans hk'.symm, ha.trans ha'.symm⟩

/-- Where ordinary code has no conflicts, the code of a template has none exactly if the text that
ends the template closes at most one bracket. -/
theorem unambiguous_templateRules_iff {root : List StateRule} (hl : l.Accepted)
    (h : rootRules l = .ok root) (hroot : Rule.Unambiguous root) (state : LexState)
    (closing : String) :
    Rule.Unambiguous (templateRules root state closing) ↔ l.closings.count closing ≤ 1 := by
  obtain ⟨hopopening, hopclosing, hclosingopening⟩ :=
    (unambiguous_root_iff hl.openings_nodup h).mp hroot
  have hkind : ∀ r ∈ root, r.kind ≠ .templateEnd := by
    intro r hr
    cases hasRule_of_mem_rootRules hl h hr with
    | code _ hcode =>
        intro hk
        rw [hk] at hcode
        cases hcode
    | enterString => exact TokenKind.noConfusion
  rw [templateRules, Rule.Unambiguous.perm (Rule.sort_perm _),
    unambiguous_replaceLiteral hroot rfl hkind, count_texts_root h]
  by_cases hclosing : closing ∈ l.closings
  · rw [if_neg fun hop => hopclosing hop hclosing,
      List.count_eq_zero_of_not_mem (hclosingopening hclosing)]
    omega
  · have hopening : l.openings.count closing ≤ 1 :=
      List.nodup_iff_count_le_one.mp hl.openings_nodup closing
    rw [List.count_eq_zero_of_not_mem hclosing]
    split
    · next hop =>
      rw [List.count_eq_zero_of_not_mem (hopopening hop)]
      omega
    · omega

/-- What cuts up a reference has no conflicts exactly if the reference does not open with one of
its operators. -/
theorem unambiguous_referenceRules_iff {opening : String} {operators : List String}
    {symbol : Regex} :
    Rule.Unambiguous (referenceRules opening operators symbol) ↔ opening ∉ operators := by
  constructor
  · intro h hop
    obtain ⟨name, hmem⟩ := literal_mem_operatorRules hop ()
    have hstart : .literal "start" .templateStart opening () ∈
        referenceRules opening operators symbol := mem_referenceRules.mpr (.inl rfl)
    have hoperator : .literal name .operator opening () ∈
        referenceRules opening operators symbol :=
      mem_referenceRules.mpr (.inr (.inr (.inl hmem)))
    cases (h _ hstart _ hoperator opening rfl rfl).1
  · intro hop r hr u hu text htext htext'
    refine ⟨?_, rfl⟩
    rcases mem_referenceRules.mp hr with rfl | rfl | hr | rfl
    · cases htext
      rcases mem_referenceRules.mp hu with rfl | rfl | hu | rfl
      · rfl
      · cases htext'
      · obtain ⟨_, _, hmem, rfl⟩ := mem_operatorRules hu
        cases htext'
        exact absurd hmem hop
      · cases htext'
    · cases htext
    · obtain ⟨_, _, hmem, rfl⟩ := mem_operatorRules hr
      cases htext
      rcases mem_referenceRules.mp hu with rfl | rfl | hu | rfl
      · cases htext'
        exact absurd hmem hop
      · cases htext'
      · obtain ⟨_, _, -, rfl⟩ := mem_operatorRules hu
        rfl
      · cases htext'
    · cases htext

theorem exists_reference {i j : Nat} {s : StringForm} {rules : List StateRule}
    (h : stringRules i s = .ok rules) {opening symbols : String} {operators : List String}
    (ht : s.templates[j]? = some (.reference opening symbols operators)) :
    ∃ r ∈ rules, ∃ symbol, r.action = .split (referenceRules opening operators symbol) := by
  obtain ⟨r, hr, hrule⟩ := exists_templateRule h ht
  obtain ⟨_, -, hrule⟩ := bind_eq_ok_iff.mp hrule
  obtain ⟨symbol, -, hrule⟩ := bind_eq_ok_iff.mp hrule
  cases hrule
  exact ⟨_, hr, symbol, rfl⟩

/-- What cuts up a reference belongs to a template. -/
theorem exists_of_split {state : LexState} {r : StateRule} (h : l.HasRule state r)
    {parts : List PartRule} (hparts : r.action = .split parts) :
    ∃ s ∈ l.strings, ∃ opening symbols operators symbol,
      .reference opening symbols operators ∈ s.templates ∧
      parts = referenceRules opening operators symbol := by
  cases h with
  | @reference i j s _ opening symbols operators symbol hs ht _ _ ha =>
      rw [ha] at hparts
      cases hparts
      exact ⟨s, List.mem_of_getElem? hs, opening, symbols, operators, symbol,
        List.mem_of_getElem? ht, rfl⟩
  | code _ _ ha _ => simp [ha] at hparts
  | content _ ha _ => simp [ha] at hparts
  | enterString _ _ => cases hparts
  | leaveTemplate _ => cases hparts
  | enterTemplate _ => cases hparts
  | leaveString _ => cases hparts

/-! ### Tables without conflicts -/

/-- In every state, and in all that cuts up references, rules for the same text agree. -/
structure ConflictFree (table : RuleTable) : Prop where
  states : ∀ state rules, (state, rules) ∈ table.states → Rule.Unambiguous rules
  parts : ∀ state rules, (state, rules) ∈ table.states → ∀ r ∈ rules, ∀ parts,
    r.action = .split parts → Rule.Unambiguous parts

theorem ConflictFree.separated (h : ofLexicon l = .ok table) (hfree : table.ConflictFree) :
    l.Separated := by
  obtain ⟨hl, root, hroot, hstates⟩ := mem_states_iff h
  have hmemroot := (hstates .root root).mpr (.inl ⟨rfl, rfl⟩)
  have hunambiguous := hfree.states _ _ hmemroot
  obtain ⟨hoo, hoc, hco⟩ := (unambiguous_root_iff hl.openings_nodup hroot).mp hunambiguous
  refine ⟨hoo, hoc, hco, fun s hs => ?_⟩
  obtain ⟨i, hi⟩ := List.mem_iff_getElem?.mp hs
  obtain ⟨rules, hrules⟩ := exists_stringRules h hi
  have hmem := (hstates (.string i) rules).mpr (.inr (.inl ⟨i, s, hi, rfl, hrules⟩))
  refine ⟨(unambiguous_stringRules_iff (hl.strings s hs) hrules).mp (hfree.states _ _ hmem),
    fun o e ht => ?_, fun o ss ops ht => ?_⟩
  · obtain ⟨j, hj⟩ := List.mem_iff_getElem?.mp ht
    have htemplate := (hstates (.template i j) _).mpr
      (.inr (.inr ⟨i, j, o, e, ⟨s, hi, hj⟩, rfl, rfl⟩))
    exact (unambiguous_templateRules_iff hl hroot hunambiguous _ e).mp
      (hfree.states _ _ htemplate)
  · obtain ⟨j, hj⟩ := List.mem_iff_getElem?.mp ht
    obtain ⟨r, hr, symbol, haction⟩ := exists_reference hrules hj
    exact unambiguous_referenceRules_iff.mp (hfree.parts _ _ hmem r hr _ haction)

theorem conflictFree_of_separated (h : ofLexicon l = .ok table) (hsep : l.Separated) :
    table.ConflictFree := by
  obtain ⟨hl, root, hroot, hstates⟩ := mem_states_iff h
  have hunambiguous := (unambiguous_root_iff hl.openings_nodup hroot).mpr
    ⟨hsep.operators_openings, hsep.operators_closings, hsep.closings_openings⟩
  constructor
  · intro state rules hmem
    rcases (hstates state rules).mp hmem with
      ⟨rfl, rfl⟩ | ⟨i, s, hs, rfl, hrules⟩ | ⟨i, j, o, e, ⟨s, hs, ht⟩, rfl, rfl⟩
    · exact hunambiguous
    · have hs := List.mem_of_getElem? hs
      exact (unambiguous_stringRules_iff (hl.strings s hs) hrules).mpr
        (hsep.strings s hs).codeOpenings_nodup
    · exact (unambiguous_templateRules_iff hl hroot hunambiguous _ e).mpr
        ((hsep.strings s (List.mem_of_getElem? hs)).closing o e (List.mem_of_getElem? ht))
  · intro state rules hmem r hr parts haction
    obtain ⟨s, hs, o, ss, ops, symbol, ht, rfl⟩ :=
      exists_of_split (hasRule_of_mem_states h hmem hr) haction
    exact unambiguous_referenceRules_iff.mpr ((hsep.strings s hs).reference o ss ops ht)

/-- **Conflicts between delimiters.**  The table of a lexicon has no two literal rules for one text
that give different tokens or go on differently, exactly if the lexicon keeps its delimiters
apart. -/
theorem conflictFree_iff (h : ofLexicon l = .ok table) : table.ConflictFree ↔ l.Separated :=
  ⟨fun hfree => hfree.separated h, conflictFree_of_separated h⟩

end RuleTable

/-- A small language whose strings open with the text that closes its brackets. -/
def Lexicon.angles : Lexicon where
  symbols := "[a-z]+"
  numbers := "[0-9]+"
  brackets := [{ opening := "<", closing := ">" }]
  strings := [{ opening := ">" }]

namespace RuleTable

/-- Both lexicons are accepted; the strings of the second one can never be entered. -/
theorem conflictFree_iff_interpolating_angles :
    (∃ table, ofLexicon .interpolating = .ok table ∧ table.ConflictFree) ∧
      ∃ table, ofLexicon .angles = .ok table ∧ ¬ table.ConflictFree := by
  have accepted : (fun _ => ()) <$> ofLexicon .interpolating = .ok () := by decide +kernel
  have accepted' : (fun _ => ()) <$> ofLexicon .angles = .ok () := by decide +kernel
  obtain ⟨table, h, -⟩ := map_eq_ok_iff.mp accepted
  obtain ⟨table', h', -⟩ := map_eq_ok_iff.mp accepted'
  refine ⟨⟨table, h, (conflictFree_iff h).mpr ⟨?_, ?_, ?_, ?_⟩⟩, table', h', fun hfree => ?_⟩
  · exact List.disjoint_left.mpr (by decide)
  · exact List.disjoint_left.mpr (by decide)
  · exact List.disjoint_left.mpr (by decide)
  · refine List.forall_mem_singleton.mpr ⟨by decide, fun o e ht => ?_, fun o ss ops ht => ?_⟩
    · obtain h | ht := List.mem_cons.mp ht
      · cases h
      · cases List.mem_singleton.mp ht
        decide
    · obtain h | ht := List.mem_cons.mp ht
      · cases h
        decide
      · cases List.mem_singleton.mp ht
  · have hseparated := (conflictFree_iff h').mp hfree
    exact hseparated.closings_openings List.mem_cons_self (by decide)

end RuleTable

end Nesting
