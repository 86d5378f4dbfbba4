import Nesting.Proofs.Lexer.Table
import Nesting.Proofs.Query.Traces
import Nesting.Proofs.Text.Palette
import Nesting.Tree.Dump

/-! # Colours in dumps, rule tables and traces

Every renderer puts colours around names, quoted texts and numbers only, and none of them holds
the escape character: the names of kinds, states, rules and steps are made of letters and numbers,
and both ways to quote spell the escape character out.  So what is rendered in colour decorates
what is rendered without (`Palette.Decorates`), piece by piece. -/

namespace Nesting

open Palette

/-! ### Names -/

theorem TokenKind.unescaped_name (k : TokenKind) : Unescaped k.name := by cases k <;> decide

theorem TreeKind.unescaped_name (k : TreeKind) : Unescaped k.name := by cases k <;> decide

theorem LexState.unescaped_name (s : LexState) : Unescaped s.name := by
  cases s with
  | root => decide
  | string i => exact .append (by decide) (unescaped_toString i)
  | template i j =>
      refine .append (.append (.append ?_ (unescaped_toString i)) ?_) (unescaped_toString j) <;>
        decide

theorem StepName.unescaped {name : String} (h : StepName name) : Unescaped name := by
  cases h with
  | token kind => cases kind <;> decide
  | levelStart | levelEnd | tree | string => decide

theorem Node.unescaped_kindName (n : Node) : Unescaped n.kindName := by
  cases n with
  | token t => exact t.kind.unescaped_name
  | tree kind => exact kind.unescaped_name

/-! ### Dumps -/

namespace DumpStyle

variable (spans : Bool)

theorem decorates_quoted (text : String) :
    Decorates (quoted { spans, palette := .on } text) (quoted { spans, palette := .off } text) :=
  .text (Quoting.unescaped_plain text)

theorem decorates_position (t : Token) :
    Decorates (" " ++ on.detail (toString t.pos.line ++ ":" ++ toString t.pos.col))
      (" " ++ off.detail (toString t.pos.line ++ ":" ++ toString t.pos.col)) := by
  have hunescaped : Unescaped (toString t.pos.line ++ ":" ++ toString t.pos.col) :=
    .append (.append (unescaped_toString _) (by decide)) (unescaped_toString _)
  exact .append (.of_unescaped (by decide)) (.detail hunescaped)

theorem decorates_tokenLine (level : ℕ) (t : Token) :
    Decorates (tokenLine { spans, palette := .on } level t)
      (tokenLine { spans, palette := .off } level t) := by
  unfold tokenLine
  refine .append (.append (.append (.of_unescaped (unescaped_blanks _)) ?_) ?_)
    (.of_unescaped (by decide))
  · split
    · exact .detail t.kind.unescaped_name
    · exact .append (.of_unescaped (.append t.kind.unescaped_name (by decide)))
        (decorates_quoted spans t.value)
  · dsimp only
    split
    · exact decorates_position t
    · exact .nil

theorem decorates_treeLine (level : ℕ) (kind : TreeKind) (opening closing : Option Token) :
    Decorates (treeLine { spans, palette := .on } level kind opening closing)
      (treeLine { spans, palette := .off } level kind opening closing) := by
  have hquoted (t : Token) := Decorates.append (.of_unescaped (by decide : Unescaped " "))
    (decorates_quoted spans t.value)
  unfold treeLine
  refine .append (.append (.append (.append (.of_unescaped (unescaped_blanks _)) ?_) ?_) ?_)
    (.of_unescaped (by decide))
  · exact .kind kind.unescaped_name
  · cases opening with
    | none => exact .nil
    | some t => exact hquoted t
  · cases closing with
    | none => exact .nil
    | some t =>
        dsimp only
        split
        · exact .nil
        · exact hquoted t

mutual

theorem decorates_nodeLines : ∀ (level : ℕ) (n : Node),
    List.Forall₂ Decorates (nodeLines { spans, palette := .on } level n)
      (nodeLines { spans, palette := .off } level n)
  | level, .token t => .cons (decorates_tokenLine spans level t) .nil
  | level, .tree kind opening closing children =>
    .cons (decorates_treeLine spans level kind opening closing)
      (decorates_childLines (level + 1) children)

theorem decorates_childLines : ∀ (level : ℕ) (ns : List Node),
    List.Forall₂ Decorates (childLines { spans, palette := .on } level ns)
      (childLines { spans, palette := .off } level ns)
  | _, [] => .nil
  | level, n :: ns => List.rel_append (decorates_nodeLines level n) (decorates_childLines level ns)

end

theorem decorates_dump (n : Node) :
    Decorates (dump { spans, palette := .on } n) (dump { spans, palette := .off } n) :=
  .join (decorates_nodeLines spans 0 n)

theorem decorates_dumpTokens (ts : List Token) :
    Decorates (dumpTokens { spans, palette := .on } ts)
      (dumpTokens { spans, palette := .off } ts) := by
  refine .join ?_
  rw [List.forall₂_map_left_iff, List.forall₂_map_right_iff, List.forall₂_same]
  exact fun t _ => decorates_tokenLine spans 0 t

end DumpStyle

/-! ### Traces -/

namespace TraceStyle

theorem decorates_describe (v : Verbosity) (withText : Bool) (n : Node) :
    Decorates (describe { verbosity := v, palette := .on } withText n)
      (describe { verbosity := v, palette := .off } withText n) := by
  have hkind : Decorates (on.kind n.kindName) (off.kind n.kindName) := .kind n.unescaped_kindName
  have hquoted (text : String) :
      Decorates (on.kind n.kindName ++ " " ++ on.text (Quoting.full.quote text))
        (off.kind n.kindName ++ " " ++ off.text (Quoting.full.quote text)) :=
    .append (.append hkind (.of_unescaped (by decide))) (.text (Quoting.unescaped_full text))
  unfold describe
  dsimp only
  split
  · exact hkind
  · cases n with
    | token t =>
        dsimp only
        split
        · exact hkind
        · refine .append (hquoted t.value) ?_
          split
          · exact DumpStyle.decorates_position t
          · exact .nil
    | tree kind opening closing children =>
        cases opening with
        | none => exact hkind
        | some opening => exact hquoted opening.value

theorem decorates_line? (v : Verbosity) {e : Event} (he : e.IsNamed) :
    Option.Rel Decorates (line? { verbosity := v, palette := .on } e)
      (line? { verbosity := v, palette := .off } e) := by
  have hplain {s : String} (h : Unescaped s) : Option.Rel Decorates (some s) (some s) :=
    .some (.of_unescaped h)
  have hstep {mark step s t : String} (hmark : Unescaped mark) (hstep : StepName step)
      (h : Decorates s t) : Decorates (mark ++ step ++ " " ++ s) (mark ++ step ++ " " ++ t) :=
    .append (.of_unescaped (.append (.append hmark hstep.unescaped) (by decide))) h
  cases e with
  | enter step node =>
      unfold line?
      dsimp only
      split
      · exact .some (hstep (by decide) he (decorates_describe v true node))
      · exact .none
  | success step node => exact .some (hstep (by decide) he (decorates_describe v _ node))
  | failure step node =>
      unfold line?
      dsimp only
      split
      · exact .none
      · cases node with
        | none => exact .some (hstep (by decide) he (.detail (by decide)))
        | some node => exact .some (hstep (by decide) he (decorates_describe v true node))
  | backtrack step => exact hplain (.append (by decide) (unescaped_toString step))
  | searchEnter kind =>
      exact .some (.append (.of_unescaped (by decide)) (.kind kind.unescaped_name))
  | searchVisit depth node =>
      unfold line?
      dsimp only
      split
      · refine .some (.append (.of_unescaped (.append (.append ?_ ?_) ?_))
          (decorates_describe v true node))
        · decide
        · exact unescaped_toString depth
        · decide
      · exact .none
  | searchMatch count => exact hplain (.append (by decide) (unescaped_toString count))
  | searchExit count =>
      exact hplain (.append (.append (by decide) (unescaped_toString count)) (by decide))

theorem decorates_lines (v : Verbosity) (depth : ℕ) {es : List Event} (h : ∀ e ∈ es, e.IsNamed) :
    List.Forall₂ Decorates (lines { verbosity := v, palette := .on } depth es)
      (lines { verbosity := v, palette := .off } depth es) := by
  induction es generalizing depth with
  | nil => exact .nil
  | cons e es ih =>
      obtain ⟨he, hes⟩ := List.forall_mem_cons.mp h
      have hline := decorates_line? v he
      rw [lines, lines]
      generalize line? { verbosity := v, palette := .on } e = coloured at hline ⊢
      generalize line? { verbosity := v, palette := .off } e = plain at hline ⊢
      cases hline with
      | none => exact ih _ hes
      | some hline =>
          exact .cons (.append (.of_unescaped (unescaped_blanks _)) hline) (ih _ hes)

theorem map_event_placed (depth : ℕ) (es : List Event) : (placed depth es).map (·.event) = es := by
  induction es generalizing depth with
  | nil => rfl
  | cons e es ih => exact congrArg (e :: ·) (ih _)

end TraceStyle

theorem Matcher.Built.decorates_runTraced {κ : Type} {m : Matcher κ} (h : m.Built)
    (v : Verbosity) (root : Cursor) (context : κ) :
    List.Forall₂ Decorates (m.runTraced { verbosity := v, palette := .on } root context).2
      (m.runTraced { verbosity := v, palette := .off } root context).2 := by
  have hnested := ((h.reports (.start root context)).firstLog 0 0).2
  refine TraceStyle.decorates_lines v 0 fun e he => ?_
  rw [← TraceStyle.map_event_placed 0 (m (.start root context)).firstLog] at he
  obtain ⟨l, hl, rfl⟩ := List.mem_map.mp he
  exact hnested.isNamed l hl

/-! ### Rule tables -/

/-- The rules that cut up the text a rule takes. -/
def Transition.parts {S : Type} : Transition S → List PartRule
  | .split ps => ps
  | .stay | .push _ | .pop => []

/-- The rule's name, and the names of the rules that cut up its text, hold no escape character. -/
structure Rule.IsUnescaped (r : StateRule) : Prop where
  name : Unescaped r.name
  parts : ∀ p ∈ r.action.parts, Unescaped p.name

namespace RuleTable

theorem unescaped_describe {α : Type} {r : Rule α} (h : Unescaped r.name) :
    Unescaped r.describe := by
  refine .append (.append (.append (.append h (by decide)) r.kind.unescaped_name) (by decide)) ?_
  unfold Rule.recognizerText
  split
  · exact Quoting.unescaped_full _
  · exact .append (.append (by decide) (Quoting.unescaped_full _)) (by decide)
  · decide
  · decide

theorem unescaped_describeRule {r : StateRule} (h : r.IsUnescaped) :
    Unescaped (describeRule r) := by
  refine .append (unescaped_describe h.name) ?_
  cases r.action with
  | push state => exact .append (by decide) state.unescaped_name
  | split => exact (by decide : Unescaped " (sub-lexer)")
  | stay | pop => decide

theorem decorates_ruleLines {r : StateRule} (h : r.IsUnescaped) :
    List.Forall₂ Decorates (ruleLines .on r) (ruleLines .off r) := by
  refine .cons (.of_unescaped (.append (by decide) (unescaped_describeRule h))) ?_
  split
  · next parts hparts =>
    refine .cons (.append (.of_unescaped (by decide)) (.kind (by decide))) ?_
    rw [List.forall₂_map_left_iff, List.forall₂_map_right_iff, List.forall₂_same]
    have hname (p : PartRule) (hp : p ∈ parts) : Unescaped p.name :=
      h.parts p (by rw [hparts]; exact hp)
    exact fun p hp => .of_unescaped (.append (by decide) (unescaped_describe (hname p hp)))
  · exact .nil

theorem forall₂_flatMap {α β : Type} {R : β → β → Prop} {as : List α} {f g : α → List β}
    (h : ∀ a ∈ as, List.Forall₂ R (f a) (g a)) : List.Forall₂ R (as.flatMap f) (as.flatMap g) := by
  refine List.rel_flatten ?_
  rw [List.forall₂_map_left_iff, List.forall₂_map_right_iff, List.forall₂_same]
  exact h

theorem decorates_render {t : RuleTable} (h : ∀ entry ∈ t.states, ∀ r ∈ entry.2, r.IsUnescaped) :
    Decorates (t.render .on) (t.render .off) := by
  refine .join (forall₂_flatMap fun ⟨state, rules⟩ hentry => ?_)
  have hname : Unescaped ("state " ++ state.name) := .append (by decide) state.unescaped_name
  have hrules := forall₂_flatMap fun r hr => decorates_ruleLines (h _ hentry r hr)
  rw [List.forall₂_map_left_iff, List.forall₂_map_right_iff]
  exact (List.Forall₂.cons (Decorates.kind hname) hrules).imp fun _ _ hline =>
    hline.append (.of_unescaped (by decide))

/-! ### The names of a table's rules -/

variable {l : Lexicon}

theorem isUnescaped_of_name {r : StateRule} (hname : Unescaped r.name)
    (haction : r.action.parts = []) : r.IsUnescaped :=
  ⟨hname, fun _ hp => absurd (haction ▸ hp) List.not_mem_nil⟩

theorem unescaped_of_mem_operatorRules {α : Type} {operators : List String} {action : α}
    {r : Rule α} (h : r ∈ operatorRules operators action) :
    Unescaped r.name ∧ r.action = action := by
  obtain ⟨⟨i, op⟩, -, rfl⟩ := List.mem_map.mp h
  exact ⟨.append (by decide) (unescaped_toString i), rfl⟩

theorem unescaped_of_mem_referenceRules {opening : String} {operators : List String}
    {symbol : Regex} {r : PartRule} (h : r ∈ referenceRules opening operators symbol) :
    Unescaped r.name := by
  rcases mem_referenceRules.mp h with rfl | rfl | h | rfl
  · exact (by decide : Unescaped "start")
  · exact (by decide : Unescaped "symbol")
  · exact (unescaped_of_mem_operatorRules h).1
  · exact (by decide : Unescaped "unknown")

theorem isUnescaped_of_mem_rootRules {rules : List StateRule} (h : rootRules l = .ok rules)
    {r : StateRule} (hr : r ∈ rules) : r.IsUnescaped := by
  rw [rootRules] at h
  obtain ⟨symbols, -, h⟩ := bind_eq_ok_iff.mp h
  obtain ⟨numbers, -, h⟩ := bind_eq_ok_iff.mp h
  cases h
  rw [Rule.mem_sort] at hr
  simp only [List.mem_append] at hr
  rcases hr with (((((h | h) | h) | h) | h) | h) | h
  · rcases List.mem_pair.mp h with rfl | rfl
    · exact isUnescaped_of_name (by decide : Unescaped "newline") rfl
    · exact isUnescaped_of_name (by decide : Unescaped "whitespace") rfl
  · obtain ⟨i, _, rfl⟩ := List.mem_mapIdx.mp h
    exact isUnescaped_of_name (.append (by decide) (unescaped_toString i)) rfl
  · rcases List.mem_pair.mp h with rfl | rfl
    · exact isUnescaped_of_name (by decide : Unescaped "symbol") rfl
    · exact isUnescaped_of_name (by decide : Unescaped "number") rfl
  · obtain ⟨hname, haction⟩ := unescaped_of_mem_operatorRules (mem_of_mem_distinct h)
    exact isUnescaped_of_name hname (by rw [haction]; rfl)
  · obtain ⟨pair, hpair, hr⟩ := List.mem_flatten.mp h
    obtain ⟨i, _, rfl⟩ := List.mem_mapIdx.mp hpair
    have hname : Unescaped ("bracket$" ++ toString i) := .append (by decide) (unescaped_toString i)
    rcases List.mem_pair.mp hr with rfl | rfl
    · exact isUnescaped_of_name (hname.append (by decide)) rfl
    · exact isUnescaped_of_name (hname.append (by decide)) rfl
  · obtain ⟨i, _, rfl⟩ := List.mem_mapIdx.mp h
    exact isUnescaped_of_name (.append (LexState.unescaped_name _) (by decide)) rfl
  · rw [List.mem_singleton.mp h]
    exact isUnescaped_of_name (by decide : Unescaped "unknown") rfl

theorem isUnescaped_of_mem_stringRules {i : ℕ} {s : StringForm} {rules : List StateRule}
    (h : stringRules i s = .ok rules) {r : StateRule} (hr : r ∈ rules) : r.IsUnescaped := by
  have hname {state : LexState} {ending : String} (h : Unescaped ending) :
      Unescaped (state.name ++ ending) := state.unescaped_name.append h
  rcases (mem_stringRules_iff h).mp hr with rfl | ⟨j, t, -, hrule⟩ | ⟨text, -, rfl⟩ | rfl
  · exact isUnescaped_of_name (hname (by decide)) rfl
  · cases t with
    | code opening closing =>
        cases hrule
        exact isUnescaped_of_name (hname (by decide)) rfl
    | reference opening symbols operators =>
        obtain ⟨_, -, hrule⟩ := bind_eq_ok_iff.mp hrule
        obtain ⟨symbol, -, hrule⟩ := bind_eq_ok_iff.mp hrule
        cases hrule
        exact ⟨LexState.unescaped_name _, fun _ => unescaped_of_mem_referenceRules⟩
  · exact isUnescaped_of_name (hname (by decide)) rfl
  · exact isUnescaped_of_name (hname (by decide)) rfl

/-- The names in a table that was built for a lexicon hold no escape character. -/
theorem isUnescaped_of_mem_states {table : RuleTable} (h : ofLexicon l = .ok table) :
    ∀ entry ∈ table.states, ∀ r ∈ entry.2, r.IsUnescaped := by
  rintro ⟨state, rules⟩ hentry r hr
  obtain ⟨-, root, hroot, hstates⟩ := mem_states_iff h
  rcases (hstates state rules).mp hentry with
    ⟨rfl, rfl⟩ | ⟨i, s, -, rfl, hrules⟩ | ⟨i, j, opening, closing, -, rfl, rfl⟩
  · exact isUnescaped_of_mem_rootRules hroot hr
  · exact isUnescaped_of_mem_stringRules hrules hr
  · rw [templateRules, Rule.mem_sort] at hr
    rcases mem_replaceLiteral hr with rfl | hr
    · exact isUnescaped_of_name ((LexState.unescaped_name _).append (by decide)) rfl
    · exact isUnescaped_of_mem_rootRules hroot hr

/-! ### The table as a text -/

theorem join_flatMap {α : Type} (as : List α) (f : α → List String) :
    String.join (as.flatMap f) = String.join (as.map fun a => String.join (f a)) := by
  induction as with
  | nil => rfl
  | cons a as ih =>
      rw [List.flatMap_cons, List.map_cons, String.join_append, String.join_cons, ih]

theorem join_ruleLines (r : StateRule) :
    String.join ((ruleLines .off r).map (· ++ "\n")) =
      "  " ++ describeRule r ++ "\n" ++ describeParts 0 r := by
  have pad_parts : String.ofList (List.replicate (2 * (0 + 2)) ' ') = "    " := rfl
  have pad_rule : ("    " : String) ++ "  " = "      " := rfl
  rw [ruleLines, List.map_cons, String.join_cons, describeParts]
  congr 1
  cases r.action with
  | split parts =>
      dsimp only
      rw [List.map_cons, String.join_cons, List.map_map, describeState, pad_parts]
      simp only [pad_rule, String.append_empty, String.append_assoc, Function.comp_def]
      rfl
  | stay | push | pop => rfl

/-- Without colours, the table line by line is the table as a text. -/
theorem render_off (t : RuleTable) : t.render .off = t.describe := by
  rw [render, describe, join_flatMap]
  congr 1
  refine List.map_congr_left fun ⟨state, rules⟩ _ => ?_
  dsimp only
  rw [List.map_cons, String.join_cons, List.map_flatMap, join_flatMap]
  simp only [join_ruleLines]
  have pad : String.ofList (List.replicate (2 * 0) ' ') = "" := rfl
  rw [describeState, pad]
  simp only [String.empty_append]
  rfl

end RuleTable

/-- **Colours are decoration.**  Deleting the escape sequences from what is shown in colour gives
what is shown without: a node, tokens, the table of a lexicon, and the trace of a query's run.
The table without colours is the table as a text. -/
theorem colours_are_decoration :
    (∀ (spans : Bool) (n : Node),
      erase (DumpStyle.dump { spans, palette := .on } n) =
        DumpStyle.dump { spans, palette := .off } n) ∧
    (∀ (spans : Bool) (ts : List Token),
      erase (DumpStyle.dumpTokens { spans, palette := .on } ts) =
        DumpStyle.dumpTokens { spans, palette := .off } ts) ∧
    (∀ (l : Lexicon) (table : RuleTable), RuleTable.ofLexicon l = .ok table →
      erase (table.render .on) = table.render .off) ∧
    (∀ table : RuleTable, table.render .off = table.describe) ∧
    ∀ (κ : Type) (q : Query κ) (m : Matcher κ), q.compile = .ok m →
      ∀ (v : Verbosity) (root : Cursor) (context : κ),
        (m.runTraced { verbosity := v, palette := .on } root context).2.map erase =
          (m.runTraced { verbosity := v, palette := .off } root context).2 := by
  refine ⟨fun spans n => (DumpStyle.decorates_dump spans n).erase_eq,
    fun spans ts => (DumpStyle.decorates_dumpTokens spans ts).erase_eq,
    fun l table h => ?_, RuleTable.render_off, fun κ q m h v root context => ?_⟩
  · exact (RuleTable.decorates_render (RuleTable.isUnescaped_of_mem_states h)).erase_eq
  · have hlines := (Query.built_of_compile h).decorates_runTraced v root context
    rw [← List.forall₂_eq_eq_eq, List.forall₂_map_left_iff]
    exact hlines.imp fun _ _ hline => hline.erase_eq

/-- A symbol whose text looks like an escape sequence. -/
def colouredSymbol : Node :=
  .tree .root none none [.token (.make .symbol "\x1b[34m" {})]

/-- The escape sequence of the source is spelled out, so it is not taken for a colour. -/
theorem colours_are_decoration_colouredSymbol :
    erase (DumpStyle.dump { palette := .on } colouredSymbol) =
      "root-tree\n  symbol \"\\u\x7b001b\x7d[34m\"\n" ∧
    (∃ table, RuleTable.ofLexicon .interpolating = .ok table ∧
      erase (table.render .on) = table.describe) ∧
    ∃ m : Matcher Unit,
      Query.compile [.tree { kind := some .root } { depth := 0, count := 0 }
        (some [.token .symbol .any none]) {}] = .ok m ∧
      (m.runTraced { verbosity := .verbose, palette := .on } (.top colouredSymbol 0) ()).2.map
        erase =
        ["▶ search root-tree", "  ● sym symbol \"\\u\x7b1b\x7d[34m\"", "  ✓ match #1",
          "◀ 1 matches", "● tree root-tree"] := by
  obtain ⟨hdump, -, hrender, hdescribe, htrace⟩ := colours_are_decoration
  have build : (fun table => table.states.length) <$> RuleTable.ofLexicon .interpolating =
      .ok 3 := by decide +kernel
  obtain ⟨table, htable, -⟩ := map_eq_ok_iff.mp build
  obtain ⟨m, hm, hlines⟩ : ∃ m : Matcher Unit,
      Query.compile [.tree { kind := some .root } { depth := 0, count := 0 }
        (some [.token .symbol .any none]) {}] = .ok m ∧
      (m.runTraced { verbosity := .verbose, palette := .off } (.top colouredSymbol 0) ()).2 =
        ["▶ search root-tree", "  ● sym symbol \"\\u\x7b1b\x7d[34m\"", "  ✓ match #1",
          "◀ 1 matches", "● tree root-tree"] :=
    ⟨_, rfl, by decide +kernel⟩
  refine ⟨?_, ⟨table, htable, ?_⟩, m, hm, ?_⟩
  · rw [hdump]
    decide +kernel
  · rw [hrender _ _ htable, hdescribe]
  · rw [htrace _ _ m hm, hlines]

end Nesting
