import Nesting.Language.Basic
import Nesting.Proofs.Lexer.References

/-! # How references are cut

The expression of a reference and the rules that cut its matches need not agree
(`StateRule.CutsReference.cut_iff`): where a name may have a dollar sign and opens with one, the
second sign of `$$x` belongs to the symbol for the expression, and opens another reference for the
rules.  Nothing that is checked about a lexicon keeps its texts apart.

They do agree for every match if the opening text and the operators are separate (`Separate`): no
symbol begins with a character that one of them begins with, none of them goes on from another one
with such a character, and the opening text is no operator.  Then the text in front of a symbol is
the longest one that stands there, and nothing but the symbol stands behind it
(`Separate.cutAs_cons`); the symbols must not look at what is around them, since a match is cut
apart from its source (`Regex.Local`).  In the built-in languages this is so
(`separate_of_builtin`). -/

namespace Nesting

/-! ### Where both agree -/

/-- Texts that cannot be mistaken for one another in front of a symbol, nor for the beginning of
one; and the opening text is no operator. -/
structure Separate (opening : String) (operators : List String) (first : Char → Bool) : Prop where
  begins : ∀ x ∈ opening :: operators, ∀ c cs, x.toList = c :: cs → first c = false
  goesOn : ∀ x ∈ opening :: operators, ∀ y ∈ opening :: operators, ∀ c cs,
    y.toList = x.toList ++ c :: cs → first c = false
  notMem : opening ∉ operators

section agreeing

variable {opening : String} {operators : List String} {symbol : Regex} {first : Char → Bool}

/-- A text in front of a symbol is the longest one there. -/
theorem Separate.longest (h : Separate opening operators first) {x : String}
    (hx : x ∈ opening :: operators) {p : Place} {c : Char} {cs : List Char}
    (hp : p.after = x.toList ++ c :: cs) (hc : first c = true) :
    Longest (opening :: operators) p x where
  mem := hx
  begins := ⟨c :: cs, hp.symm⟩
  longest y hy hpre := by
    rw [hp] at hpre
    rcases List.prefix_or_prefix_of_prefix hpre (List.prefix_append _ _) with hle | ⟨ds, hds⟩
    · exact hle
    · cases ds with
      | nil =>
          rw [List.append_nil] at hds
          exact hds ▸ List.prefix_rfl
      | cons d ds =>
          rw [← hds, List.prefix_append_right_inj, List.cons_prefix_cons] at hpre
          have := h.goesOn x hx y hy d ds hds.symm
          rw [hpre.1, hc] at this
          cases this

/-- Where a symbol begins, none of the texts stands. -/
theorem Separate.not_prefix (h : Separate opening operators first) (ho : opening ≠ "")
    (hops : ∀ op ∈ operators, op ≠ "") {p : Place} {c : Char} {cs : List Char}
    (hp : p.after = c :: cs) (hc : first c = true) :
    ∀ x ∈ opening :: operators, ¬ x.toList <+: p.after := by
  intro x hx hpre
  have hne : x ≠ "" := by
    rcases List.mem_cons.mp hx with rfl | hx
    · exact ho
    · exact hops x hx
  obtain ⟨d, ds, hds⟩ := List.exists_cons_of_ne_nil fun he => hne (String.toList_eq_nil_iff.mp he)
  rw [hp, hds, List.cons_prefix_cons] at hpre
  have := h.begins x hx d ds hds
  rw [hpre.1, hc] at this
  cases this

theorem of_joint? {p m n : Place} {op : String} (h : joint? operators symbol p = some (op, m, n)) :
    op ∈ operators ∧ p.skip? op.toList = some m ∧ symbol.firstEnd? m = some n := by
  obtain ⟨op', hop, h⟩ := List.exists_of_findSome?_eq_some h
  obtain ⟨m', hm, h⟩ := Option.bind_eq_some_iff.mp h
  obtain ⟨n', hn, h⟩ := Option.map_eq_some_iff.mp h
  cases h
  exact ⟨hop, hm, hn⟩

theorem Joined.ahead {p q : Place} {pieces : List (TokenKind × String)}
    (h : Joined operators symbol p pieces q) : p.Ahead q := by
  induction h with
  | done _ => exact .refl _
  | more hjoint _ ih =>
      obtain ⟨-, hm, hn⟩ := of_joint? hjoint
      exact (Place.Ahead.trans ⟨_, hm⟩ (Regex.ahead_of_firstEnd? hn)).trans ih

/-- A text and the symbol behind it are cut as they are matched, if what follows is. -/
theorem Separate.cutAs_cons (h : Separate opening operators first) (hlocal : symbol.Local first)
    (ho : opening ≠ "") (hops : ∀ op ∈ operators, op ≠ "") {x : String} {k : TokenKind}
    (hx : x ∈ opening :: operators)
    (htakes : ∀ {p m}, Longest (opening :: operators) p x → p.skip? x.toList = some m →
      Takes opening operators symbol p k m)
    {p m n q : Place} {pieces : List (TokenKind × String)} (hm : p.skip? x.toList = some m)
    (hn : symbol.firstEnd? m = some n) (hq : n.Ahead q)
    (hpieces : ∀ n', n.skip? n'.after = some q → CutAs opening operators symbol n' pieces)
    {p' : Place} (hp' : p.skip? p'.after = some q) :
    CutAs opening operators symbol p'
      ((k, x) :: (.symbol, String.ofList (m.textUntil n)) :: pieces) := by
  obtain ⟨c, cs, htext, hc⟩ := hlocal.begins m n hn
  have hsymbol : m.skip? (c :: cs) = some n := by
    obtain ⟨ds, hds⟩ := Regex.ahead_of_firstEnd? hn
    rwa [← htext, Place.textUntil_eq hds]
  obtain ⟨rest, hrest⟩ := hq
  have hafter : p'.after = x.toList ++ (c :: cs ++ rest) := by
    have hwhole : p.skip? (x.toList ++ (c :: cs ++ rest)) = some q := by
      rw [Place.skip?_append, hm, Option.bind_some, Place.skip?_append, hsymbol]
      exact hrest
    rw [← Place.textUntil_eq hp', Place.textUntil_eq hwhole]
  obtain ⟨m', hm', hmafter⟩ := Place.exists_skip?_of_after hafter
  obtain ⟨n', hn', hnafter⟩ := Place.exists_skip?_of_after hmafter
  have hagain : symbol.firstEnd? m' = some n' := by
    rw [hlocal.again m n m' hn, htext, hn']
    · exact ⟨rest, by rw [htext, hmafter]⟩
    · refine ⟨q.after, ?_⟩
      rw [hmafter, Place.after_of_skip? hsymbol, Place.after_of_skip? hrest, List.append_assoc]
  have hlt : m'.index < n'.index := by
    rw [Place.index_of_skip? hn', List.length_cons]
    omega
  have hcut : CutAs opening operators symbol p'
      ((k, String.ofList (p'.textUntil m')) ::
        (.symbol, String.ofList (m'.textUntil n')) :: pieces) :=
    .more (htakes (h.longest hx hafter hc) hm') <|
      .more (.symbol (h.not_prefix ho hops hmafter hc) hagain hlt) <|
        hpieces n' (hnafter ▸ hrest)
  rwa [Place.textUntil_eq hm', String.ofList_toList, Place.textUntil_eq hn', ← htext] at hcut

theorem Separate.cutAs_of_joined (h : Separate opening operators first)
    (hlocal : symbol.Local first) (ho : opening ≠ "") (hops : ∀ op ∈ operators, op ≠ "")
    {p q : Place} {pieces : List (TokenKind × String)}
    (hjoined : Joined operators symbol p pieces q) (p' : Place)
    (hp' : p.skip? p'.after = some q) : CutAs opening operators symbol p' pieces := by
  induction hjoined generalizing p' with
  | done _ =>
      have hindex := Place.index_of_skip? hp'
      exact .done (List.length_eq_zero_iff.mp (by omega))
  | more hjoint hrest ih =>
      obtain ⟨hop, hm, hn⟩ := of_joint? hjoint
      refine h.cutAs_cons hlocal ho hops (List.mem_cons_of_mem opening hop) ?_ hm hn hrest.ahead ih
        hp'
      exact fun hx hm => .operator hx (fun he => h.notMem (he ▸ hop)) hm

/-- Separate texts are cut as they are matched. -/
theorem Separate.cutAs (h : Separate opening operators first) (hlocal : symbol.Local first)
    (ho : opening ≠ "") (hops : ∀ op ∈ operators, op ≠ "") {p q : Place}
    {pieces : List (TokenKind × String)} (hmatched : Matched opening operators symbol p pieces q) :
    CutAs opening operators symbol (.start (p.textUntil q)) pieces := by
  cases hmatched with
  | intro hm hn hjoined =>
      obtain ⟨cs, hcs⟩ :=
        (Place.Ahead.trans ⟨_, hm⟩ (Regex.ahead_of_firstEnd? hn)).trans hjoined.ahead
      refine h.cutAs_cons hlocal ho hops List.mem_cons_self .opening hm hn hjoined.ahead
        (h.cutAs_of_joined hlocal ho hops hjoined) ?_
      rw [Place.start, Place.textUntil_eq hcs]
      exact hcs

end agreeing

/-! ### Names behind a dollar sign -/

/-- What a name can begin with. -/
def CharSet.nameStart : CharSet := ⟨[(65, 90), (95, 95), (97, 122)]⟩

/-- What a name can go on with. -/
def CharSet.nameRest : CharSet := ⟨[(48, 57), (65, 90), (95, 95), (97, 122)]⟩

theorem parse_name : Regex.parse "[a-zA-Z_][a-zA-Z0-9_]*" =
    .ok ((Regex.one CharSet.nameStart).seq (Regex.one CharSet.nameRest).star) := by
  decide +kernel

/-- A dollar sign and points are separate from names. -/
theorem separate_dollar {operators : List String} (h : ∀ op ∈ operators, op = ".") :
    Separate "$" operators CharSet.nameStart.mem := by
  have hmem {x : String} (hx : x ∈ "$" :: operators) : x = "$" ∨ x = "." :=
    (List.mem_cons.mp hx).imp_right (h x)
  refine ⟨fun x hx c cs hcs => ?_, fun x hx y hy c cs hcs => ?_, fun hop => ?_⟩
  · rcases hmem hx with rfl | rfl <;>
      · obtain ⟨rfl, -⟩ := List.cons.inj hcs
        rfl
  · rcases hmem hx with rfl | rfl <;> rcases hmem hy with rfl | rfl <;>
      cases (List.cons.inj hcs).2
  · exact absurd (h "$" hop) (by decide)

/-- In the built-in languages, all references are of this kind. -/
theorem separate_of_builtin {language : LanguageEntry} (h : language ∈ LanguageEntry.all)
    {s : StringForm} (hs : s ∈ language.grammar.lexicon.strings) {opening symbols : String}
    {operators : List String} (ht : .reference opening symbols operators ∈ s.templates) :
    ∃ symbol first, Regex.parse symbols = .ok symbol ∧ symbol.Local first ∧
      Separate opening operators first := by
  have hall : ∀ language ∈ LanguageEntry.all, ∀ s ∈ language.grammar.lexicon.strings,
      ∀ t ∈ s.templates, t ∈ Builtin.dollarTemplates ["."] ++ Builtin.dollarTemplates [] ∨
        t = .code "\x7b" "\x7d" := by
    decide +kernel
  rcases hall language h s hs _ ht with ht | ht
  · have hdollar : (opening = "$" ∧ symbols = "[a-zA-Z_][a-zA-Z0-9_]*" ∧ operators = ["."]) ∨
        (opening = "$" ∧ symbols = "[a-zA-Z_][a-zA-Z0-9_]*" ∧ operators = []) := by
      simpa [Builtin.dollarTemplates] using ht
    rcases hdollar with ⟨rfl, rfl, rfl⟩ | ⟨rfl, rfl, rfl⟩ <;>
      exact ⟨_, _, parse_name, Regex.local_word _ _, separate_dollar (by simp)⟩
  · cases ht

/-! ### References of a table -/

/-- Behind the opening text and the first symbol, operators and symbols take turns. -/
theorem Matched.kinds {opening : String} {operators : List String} {symbol : Regex} {p q : Place}
    {pieces : List (TokenKind × String)} (h : Matched opening operators symbol p pieces q) :
    ∃ n, pieces.map (·.1) =
      .templateStart :: .symbol :: (List.replicate n [.operator, .symbol]).flatten := by
  have joined {p q : Place} {pieces : List (TokenKind × String)}
      (h : Joined operators symbol p pieces q) :
      ∃ n, pieces.map (·.1) = (List.replicate n [.operator, .symbol]).flatten := by
    induction h with
    | done _ => exact ⟨0, rfl⟩
    | more _ _ ih =>
        obtain ⟨n, hn⟩ := ih
        exact ⟨n + 1, by simp [List.replicate_succ, hn]⟩
  cases h with
  | intro _ _ hjoined =>
      obtain ⟨n, hn⟩ := joined hjoined
      exact ⟨n, by rw [List.map_cons, List.map_cons, hn]⟩

/-- A rule of a string for a reference: what it matches, and how its matches are cut. -/
structure StateRule.CutsReference (r : StateRule) (opening : String) (operators : List String)
    (symbol : Regex) : Prop where
  recognizer : r.recognizer = .pattern (LexRegex.reference opening operators symbol)
  action : r.action = .split (RuleTable.referenceRules opening operators symbol)
  /-- A match is the opening text and a symbol, and any number of operators with a symbol. -/
  matched : ∀ p q, r.end? p = some q → ∃ n pieces, Matched opening operators symbol p pieces q ∧
    pieces.map (·.1) = .templateStart :: .symbol :: (List.replicate n [.operator, .symbol]).flatten
  /-- The tokens of a match are some pieces and the mark of its end exactly if at each of them the
  rules take it. -/
  cut_iff : ∀ p q pos pieces,
    (r.action.tokens (tokenBetween r.kind p q pos)).map Token.piece =
        pieces ++ [(.templateEnd, "")] ↔
      CutAs opening operators symbol (.start (p.textUntil q)) pieces
  /-- If its texts are separate, the tokens of a match are the pieces that were matched. -/
  separate : ∀ first, symbol.Local first → Separate opening operators first →
    ∀ p q pos pieces, Matched opening operators symbol p pieces q →
      (r.action.tokens (tokenBetween r.kind p q pos)).map Token.piece =
        pieces ++ [(.templateEnd, "")]

namespace RuleTable

theorem map_piece_tokens (parts : List PartRule) (k : TokenKind) (p q : Place) (pos : Position) :
    ((Transition.split parts : Transition LexState).tokens
        (tokenBetween k p q pos)).map Token.piece =
      (cutParts parts (p.textUntil q).length (.start (p.textUntil q)) pos).map Token.piece ++
        [(.templateEnd, "")] := by
  have hvalue : (tokenBetween k p q pos).value.toList = p.textUntil q := String.toList_ofList
  rw [Transition.tokens, Token.cut, hvalue, List.map_append]
  rfl

theorem cutsReference_of_action {opening : String} {operators : List String} (symbol : Regex)
    (ho : opening ≠ "") (hops : ∀ op ∈ operators, op ≠ "") {r : StateRule}
    (hrecognizer : r.recognizer = .pattern (LexRegex.reference opening operators symbol))
    (haction : r.action = .split (referenceRules opening operators symbol)) :
    r.CutsReference opening operators symbol := by
  have hcut (p q : Place) (pos : Position) (pieces : List (TokenKind × String)) :
      (r.action.tokens (tokenBetween r.kind p q pos)).map Token.piece =
          pieces ++ [(.templateEnd, "")] ↔
        CutAs opening operators symbol (.start (p.textUntil q)) pieces := by
    rw [haction, map_piece_tokens, List.append_left_inj]
    exact map_piece_cutParts_iff ho hops _ pos le_rfl
  refine ⟨hrecognizer, haction, fun p q hend => ?_, hcut, ?_⟩
  · obtain ⟨pieces, hmatched⟩ := exists_matched hops ((Rule.end?_of_pattern hrecognizer).mp hend).1
    obtain ⟨n, hkinds⟩ := hmatched.kinds
    exact ⟨n, pieces, hmatched, hkinds⟩
  · exact fun first hlocal hseparate p q pos pieces hmatched =>
      (hcut p q pos pieces).mpr (hseparate.cutAs hlocal ho hops hmatched)

variable {l : Lexicon} {table : RuleTable}

theorem rulesOf_string (h : ofLexicon l = .ok table) {i : Nat} {s : StringForm}
    (hs : l.strings[i]? = some s) : stringRules i s = .ok (table.rulesOf (.string i)) := by
  obtain ⟨-, root, -, hstates⟩ := mem_states_iff h
  obtain ⟨rules, hrules⟩ := exists_stringRules h hs
  have hmem := (hstates (.string i) rules).mpr (.inr (.inl ⟨i, s, hs, rfl, hrules⟩))
  obtain ⟨hne, -⟩ | ⟨i', s', hs', hsame, hrules'⟩ | ⟨_, _, _, _, _, hne, -⟩ :=
    (hstates _ _).mp (mem_states_of_contains (contains_of_mem hmem))
  · cases hne
  · cases hsame
    cases hs.symm.trans hs'
    exact hrules'
  · cases hne

end RuleTable

/-- A small language with two forms of strings.  In both, names stand behind a dollar sign; in the
first one a name may have dollar signs itself. -/
def Lexicon.dollars : Lexicon where
  symbols := "[a-z]+"
  numbers := "[0-9]+"
  operators := ["."]
  strings :=
    [{ opening := "\"", templates := [.reference "$" "[a-z$]+" ["."]] },
     { opening := "'", templates := [.reference "$" "[a-zA-Z_][a-zA-Z0-9_]*" ["."]] }]

namespace RuleTable

variable {l : Lexicon} {table : RuleTable}

/-- **The two readings of a reference.**  What the rule for a reference matches is its opening text,
a symbol, and operators with a symbol behind each.  A match is cut into these pieces exactly if each
of them is what the rules take at its place; and it is if the texts are separate. -/
theorem cutsReference_of_ofLexicon (h : ofLexicon l = .ok table) {i j : Nat} {s : StringForm}
    (hs : l.strings[i]? = some s) {opening symbols : String} {operators : List String}
    (ht : s.templates[j]? = some (.reference opening symbols operators)) :
    ∃ symbol, Regex.parse symbols = .ok symbol ∧
      ∃ r ∈ table.rulesOf (.string i), r.name = (LexState.template i j).name ∧
        r.CutsReference opening operators symbol := by
  have hl := accepted_of_ofLexicon h
  have haccepted := hl.template_of_getElem? hs ht
  have ho : opening ≠ "" := haccepted.opening_ne
  have hops : ∀ op ∈ operators, op ≠ "" :=
    fun op hop => hl.operators_ne op (haccepted.declared _ _ _ rfl op hop)
  have hrules := rulesOf_string h hs
  rw [stringRules] at hrules
  obtain ⟨templates, htemplates, hrules⟩ := bind_eq_ok_iff.mp hrules
  obtain ⟨hlength, htemplates⟩ := mapIdx_mapM_eq_ok_iff.mp htemplates
  obtain ⟨hj, ht⟩ := List.getElem?_eq_some_iff.mp ht
  have hrule := htemplates j hj (hlength ▸ hj)
  rw [ht] at hrule
  obtain ⟨_, -, hrule⟩ := bind_eq_ok_iff.mp hrule
  obtain ⟨symbol, hsymbol, hrule⟩ := bind_eq_ok_iff.mp hrule
  have hr := Except.ok.inj hrule
  have hparse := LexRegex.read_eq_ok_iff.mp hsymbol
  have hmem : templates[j] ∈ table.rulesOf (.string i) := by
    rw [← Except.ok.inj hrules, Rule.mem_sort]
    simp
  refine ⟨symbol, hparse, templates[j], hmem, ?_, cutsReference_of_action symbol ho hops ?_ ?_⟩
  all_goals
    rw [← hr]
    rfl

/-- Where a name may have dollar signs, the first of them is cut off as a second opening text. -/
theorem cutsReference_of_ofLexicon_dollars :
    ∃ table, ofLexicon .dollars = .ok table ∧
      (["'$x.y'", "\"$$x\""].map fun source => (table.tokenize source).map Token.piece) =
        [[(.stringStart, "'"), (.templateStart, "$"), (.symbol, "x"), (.operator, "."),
          (.symbol, "y"), (.templateEnd, ""), (.stringEnd, "'")],
         [(.stringStart, "\""), (.templateStart, "$"), (.templateStart, "$"), (.symbol, "x"),
          (.templateEnd, ""), (.stringEnd, "\"")]] ∧
      (∃ symbol, Regex.parse "[a-z$]+" = .ok symbol ∧
        ∃ r ∈ table.rulesOf (.string 0), r.name = "str$0$tpl$0" ∧
          r.CutsReference "$" ["."] symbol) ∧
      ∃ symbol, Regex.parse "[a-zA-Z_][a-zA-Z0-9_]*" = .ok symbol ∧
        (∃ first, symbol.Local first ∧ Separate "$" ["."] first) ∧
        ∃ r ∈ table.rulesOf (.string 1), r.name = "str$1$tpl$0" ∧
          r.CutsReference "$" ["."] symbol := by
  have run : (fun table : RuleTable => ["'$x.y'", "\"$$x\""].map fun source =>
        (table.tokenize source).map Token.piece) <$> ofLexicon .dollars =
      .ok [[(.stringStart, "'"), (.templateStart, "$"), (.symbol, "x"), (.operator, "."),
          (.symbol, "y"), (.templateEnd, ""), (.stringEnd, "'")],
         [(.stringStart, "\""), (.templateStart, "$"), (.templateStart, "$"), (.symbol, "x"),
          (.templateEnd, ""), (.stringEnd, "\"")]] := by
    decide +kernel
  obtain ⟨table, h, hpieces⟩ := map_eq_ok_iff.mp run
  obtain ⟨symbol, hsymbol, hrule⟩ := cutsReference_of_ofLexicon h (i := 1) (j := 0) rfl rfl
  obtain rfl := Except.ok.inj (parse_name.symm.trans hsymbol)
  exact ⟨table, h, hpieces, cutsReference_of_ofLexicon h (i := 0) (j := 0) rfl rfl, _, hsymbol,
    ⟨_, Regex.local_word _ _, separate_dollar (by decide)⟩, hrule⟩

end RuleTable

end Nesting
