import Nesting.Proofs.Lexer.EndOfLine
import Nesting.Proofs.Lexer.Sorting
import Nesting.Proofs.Lexer.TemplateCode

/-! # Rules and line endings

A lexicon is of one line if its delimiters and its expressions are (`Lexicon.OneLined`).  The rules
of its table then take line endings in few ways (`Lexicon.CodeRule`, `Lexicon.ContentRule`), and in
both spellings of a text the same rule matches first (`RuleTable.exists_first?`).  It takes the same
text up to its spelling, but for two exceptions (`Rule.Carries`): in code, blanks in front of a line
ending take its carriage return, and in a string, a piece of content that ends with a line ending
stops in the middle of it. -/

namespace Nesting

/-! ### Lexicons of one line -/

/-- The delimiters of a comment. -/
def CommentForm.delimiters : CommentForm → List String
  | line opening => [opening]
  | multiline opening closing => [opening, closing]

/-- The delimiters of a template. -/
def TemplateForm.delimiters : TemplateForm → List String
  | code opening closing => [opening, closing]
  | reference opening _ operators => opening :: operators

/-- The expressions of a template. -/
def TemplateForm.expressions : TemplateForm → List String
  | code _ _ => []
  | reference _ symbols _ => [symbols]

/-- The delimiters of a string and of its templates. -/
def StringForm.delimiters (s : StringForm) : List String :=
  [s.opening, s.ending] ++ s.escape.toList ++ s.templates.flatMap TemplateForm.delimiters

namespace Lexicon

/-- The texts that a lexicon gives as they stand. -/
def delimiters (l : Lexicon) : List String :=
  l.lineJoin.toList ++ l.comments.flatMap CommentForm.delimiters ++ l.operators ++
    l.brackets.flatMap (fun b => [b.opening, b.closing]) ++
    l.strings.flatMap StringForm.delimiters

/-- The texts that a lexicon gives as expressions. -/
def expressions (l : Lexicon) : List String :=
  [l.symbols, l.numbers] ++
    l.strings.flatMap fun s => s.templates.flatMap TemplateForm.expressions

/-- A lexicon for texts of one line, blanks and comments apart. -/
structure OneLined (l : Lexicon) : Prop where
  delimiters : ∀ text ∈ l.delimiters, OnOneLine text.toList
  expressions : ∀ text ∈ l.expressions, ∀ r, Regex.parse text = .ok r →
    r.OnLine ∧ r.isNullable = false

section

variable {l : Lexicon} (h : l.OneLined)
include h

theorem OneLined.lineJoin {marker : String} (hm : l.lineJoin = some marker) :
    OnOneLine marker.toList :=
  h.delimiters marker (by simp [Lexicon.delimiters, hm])

theorem OneLined.comment {c : CommentForm} (hc : c ∈ l.comments) {text : String}
    (ht : text ∈ c.delimiters) : OnOneLine text.toList := by
  refine h.delimiters text ?_
  simp only [Lexicon.delimiters, List.mem_append, List.mem_flatMap]
  exact .inl (.inl (.inl (.inr ⟨c, hc, ht⟩)))

theorem OneLined.operator {op : String} (hop : op ∈ l.operators) : OnOneLine op.toList :=
  h.delimiters op (by simp [Lexicon.delimiters, hop])

theorem OneLined.bracket {b : BracketForm} (hb : b ∈ l.brackets) :
    OnOneLine b.opening.toList ∧ OnOneLine b.closing.toList := by
  constructor <;> refine h.delimiters _ ?_ <;>
    simp only [Lexicon.delimiters, List.mem_append, List.mem_flatMap] <;>
    exact .inl (.inr ⟨b, hb, by simp⟩)

theorem OneLined.string {i : Nat} {s : StringForm} (hs : l.strings[i]? = some s) {text : String}
    (ht : text ∈ s.delimiters) : OnOneLine text.toList := by
  refine h.delimiters text ?_
  simp only [Lexicon.delimiters, List.mem_append, List.mem_flatMap]
  exact .inr ⟨s, List.mem_of_getElem? hs, ht⟩

theorem OneLined.template {i j : Nat} {s : StringForm} {t : TemplateForm}
    (hs : l.strings[i]? = some s) (ht : s.templates[j]? = some t) {text : String}
    (htext : text ∈ t.delimiters) : OnOneLine text.toList :=
  h.string hs (List.mem_append_right _
    (List.mem_flatMap.mpr ⟨t, List.mem_of_getElem? ht, htext⟩))

theorem OneLined.symbol {i j : Nat} {s : StringForm} {opening symbols : String}
    {operators : List String} (hs : l.strings[i]? = some s)
    (ht : s.templates[j]? = some (.reference opening symbols operators)) {r : Regex}
    (hr : Regex.parse symbols = .ok r) : r.OnLine ∧ r.isNullable = false :=
  h.expressions symbols (List.mem_append_right _ (List.mem_flatMap.mpr
    ⟨s, List.mem_of_getElem? hs, List.mem_flatMap.mpr
      ⟨_, List.mem_of_getElem? ht, List.mem_singleton_self symbols⟩⟩)) r hr

end

end Lexicon

/-! ### Rules of one line -/

/-- A rule for texts of one line. -/
inductive Rule.OnLine {α : Type} (r : Rule α) : Prop
  | literal {text} : r.recognizer = .literal text → OnOneLine text.toList → text ≠ "" → OnLine r
  | pattern {regex} : r.recognizer = .pattern regex → regex.OnLine → regex.isNullable = false →
      OnLine r

/-- A rule that takes a text and one more character. -/
def Rule.TakesBehind {α : Type} (r : Rule α) (text : List Char) : Prop :=
  ∀ p q, r.end? p = some q ↔ ∃ c, p.skip? (text ++ [c]) = some q

namespace Rule

variable {α : Type} {r : Rule α}

theorem OnLine.end?_withReturns (h : r.OnLine) (n : Nat) (p : Place) :
    r.end? (p.withReturns n) = (r.end? p).map (Place.withReturns n) := by
  cases h with
  | literal hr htext _ =>
      rw [end?, end?, hr]
      exact Place.skip?_withReturns_of_onOneLine htext n p
  | pattern hr honline hnullable =>
      have hend := end?_eq_firstEnd? honline.isPlain hnullable hr
      rw [hend, hend]
      exact honline.firstEnd?_withReturns n p

theorem OnLine.exists_skip? (h : r.OnLine) {p q : Place} (hend : r.end? p = some q) :
    ∃ w, OnOneLine w ∧ w ≠ [] ∧ p.skip? w = some q := by
  cases h with
  | @literal text hr htext hne =>
      rw [end?, hr] at hend
      exact ⟨text.toList, htext, fun h => hne (String.toList_eq_nil_iff.mp h), hend⟩
  | pattern hr honline hnullable =>
      have hadvances : r.Advances := fun he => by rw [hr] at he; cases he
      obtain ⟨cs, hne, hcs⟩ := skip?_of_end? hadvances hend
      rw [end?_eq_firstEnd? honline.isPlain hnullable hr] at hend
      obtain ⟨w, hw, hskip⟩ := honline.exists_skip? (List.mem_of_head? hend)
      have hafter := (Place.after_of_skip? hskip).symm.trans (Place.after_of_skip? hcs)
      exact ⟨w, hw, List.append_cancel_right hafter ▸ hne, hskip⟩

theorem takesBehind_fallback (hr : r.recognizer = .fallback) : r.TakesBehind [] := by
  intro p q
  rw [end?, hr]
  constructor
  · intro h
    obtain ⟨⟨c, q'⟩, hnext, rfl⟩ := Option.map_eq_some_iff.mp h
    exact ⟨c, Place.skip?_of_next? hnext⟩
  · rintro ⟨c, hc⟩
    have hnext := Place.next?_of_after (Place.after_of_skip? hc)
    have hskip := Place.skip?_of_next? hnext
    rw [hnext, Option.map_some, ← hc, List.nil_append, hskip]

theorem OnLine.end?_eq_none (h : r.OnLine) {p : Place} (hp : EndsLine p.after) :
    r.end? p = none := by
  cases hend : r.end? p with
  | none => rfl
  | some q =>
      obtain ⟨w, hw, hne, hskip⟩ := h.exists_skip? hend
      exact absurd (hp.eq_nil_of_isPrefix hw ⟨q.after, (Place.after_of_skip? hskip).symm⟩) hne

end Rule

/-! ### Expressions of one line -/

namespace Regex

theorem onLine_text {cs : List Char} (h : OnOneLine cs) : (text cs).OnLine :=
  .of_mentions rfl ⟨by simpa [mentions] using h.1, by simpa [mentions] using h.2⟩

theorem OnLine.seq {r s : Regex} (hr : r.OnLine) (hs : s.OnLine) : (seq r s).OnLine := by
  have hr' := hr.mentions_eq
  have hs' := hs.mentions_eq
  refine .of_mentions (by simp [Regex.isPlain, hr.isPlain, hs.isPlain]) ?_
  rw [mentions, mentions, hr'.1, hr'.2, hs'.1, hs'.2]
  exact ⟨rfl, rfl⟩

theorem OnLine.alt {r s : Regex} (hr : r.OnLine) (hs : s.OnLine) : (alt r s).OnLine := by
  have hr' := hr.mentions_eq
  have hs' := hs.mentions_eq
  refine .of_mentions (by simp [Regex.isPlain, hr.isPlain, hs.isPlain]) ?_
  rw [mentions, mentions, hr'.1, hr'.2, hs'.1, hs'.2]
  exact ⟨rfl, rfl⟩

theorem OnLine.star {r : Regex} (hr : r.OnLine) (hnullable : r.isNullable = false) :
    r.star.OnLine :=
  .of_mentions (by simp [Regex.star, Regex.isPlain, hr.isPlain, hnullable]) hr.mentions_eq

theorem onLine_alts {rs : List Regex} (h : ∀ r ∈ rs, r.OnLine) : (alts rs).OnLine := by
  induction rs with
  | nil => exact .of_mentions rfl ⟨rfl, rfl⟩
  | cons r rs ih =>
      rw [List.forall_mem_cons] at h
      cases rs with
      | nil => exact h.1
      | cons s rs => exact h.1.alt (ih h.2)

end Regex

namespace LexRegex

open Regex

theorem onLine_comment {opening : String} (h : OnOneLine opening.toList) :
    (comment (.line opening)).OnLine :=
  (onLine_text h).seq (.of_mentions rfl (by decide))

theorem isNullable_comment {c : CommentForm} (h : c.opening ≠ "") :
    (comment c).isNullable = false := by
  cases c with
  | line opening =>
      have h : opening ≠ "" := h
      exact Bool.and_eq_false_iff.mpr (.inl (by simpa [ofText, isNullable] using h))
  | multiline opening closing =>
      have h : opening ≠ "" := h
      exact Bool.and_eq_false_iff.mpr (.inl (by simpa [ofText, isNullable] using h))

theorem onLine_reference {opening : String} {operators : List String} {symbol : Regex}
    (hopening : OnOneLine opening.toList) (hops : ∀ op ∈ operators, OnOneLine op.toList)
    (hsymbol : symbol.OnLine) (hnullable : symbol.isNullable = false) :
    (reference opening operators symbol).OnLine := by
  have halts : (alts (operators.map .ofText)).OnLine := by
    refine onLine_alts fun r hr => ?_
    obtain ⟨op, hop, rfl⟩ := List.mem_map.mp hr
    exact onLine_text (hops op hop)
  rw [reference]
  split
  · exact (onLine_text hopening).seq hsymbol
  · refine (onLine_text hopening).seq (hsymbol.seq ((halts.seq hsymbol).star ?_))
    rw [isNullable, hnullable, Bool.and_false]

end LexRegex

/-! ### Rules of a table -/

/-- The rule for line endings. -/
def newlineRule : StateRule := .pattern "newline" .newline LexRegex.newline .stay

theorem end?_newlineRule (p : Place) : newlineRule.end? p = LexRegex.newline.firstEnd? p :=
  Rule.end?_eq_firstEnd? rfl rfl rfl p

namespace Lexicon

/-- The rules that read code, by how they take line endings. -/
inductive CodeRule (l : Lexicon) : StateRule → Prop
  | onLine {r} : r.OnLine → CodeRule l r
  | multiline {r opening closing} : .multiline opening closing ∈ l.comments →
      r.recognizer = .pattern (LexRegex.comment (.multiline opening closing)) → CodeRule l r
  | newline : CodeRule l newlineRule
  | blanks : CodeRule l (.pattern "whitespace" .whitespace (LexRegex.whitespace l.lineJoin) .stay)
  | unknown {r} : r.TakesBehind [] → r.rank = 3 → CodeRule l r

/-- The rules of the content of a string, by how they take line endings. -/
inductive ContentRule : StateRule → Prop
  | onLine {r} : r.OnLine → ContentRule r
  | value {r text} : OnOneLine text → r.TakesBehind text → r.kind = .stringValue →
      r.action = .stay → ContentRule r

variable {l : Lexicon}

theorem onLine_literal {text : String} (h : OnOneLine text.toList) (hne : text ≠ "") (name : String)
    (kind : TokenKind) (action : Transition LexState) :
    (Rule.literal name kind text action).OnLine :=
  .literal rfl h hne

theorem OneLined.codeRule_of_mem_rootRules (h : l.OneLined) (hl : l.Accepted)
    {rules : List StateRule} (hrules : RuleTable.rootRules l = .ok rules) {r : StateRule}
    (hr : r ∈ rules) : l.CodeRule r := by
  have expression {part : GrammarPart} {text : String} {regex : Regex}
      (hread : LexRegex.read part text = .ok regex) (htext : text ∈ l.expressions) (name : String)
      (kind : TokenKind) : l.CodeRule (.pattern name kind regex .stay) := by
    obtain ⟨honline, hnullable⟩ :=
      h.expressions text htext regex (LexRegex.read_eq_ok_iff.mp hread)
    exact .onLine (.pattern rfl honline hnullable)
  rw [RuleTable.rootRules] at hrules
  obtain ⟨symbols, hsymbols, hrules⟩ := bind_eq_ok_iff.mp hrules
  obtain ⟨numbers, hnumbers, hrules⟩ := bind_eq_ok_iff.mp hrules
  cases hrules
  rw [Rule.mem_sort] at hr
  simp only [List.mem_append] at hr
  rcases hr with (((((hr | hr) | hr) | hr) | hr) | hr) | hr
  · rcases List.mem_pair.mp hr with rfl | rfl
    · exact .newline
    · exact .blanks
  · obtain ⟨i, hi, rfl⟩ := List.mem_mapIdx.mp hr
    have hmem := List.getElem_mem hi
    generalize l.comments[i] = c at hmem
    cases c with
    | line opening =>
        have honline := LexRegex.onLine_comment (h.comment hmem (List.mem_singleton_self opening))
        exact .onLine (.pattern rfl honline
          (LexRegex.isNullable_comment (hl.comments _ hmem).opening_ne))
    | multiline opening closing => exact .multiline hmem rfl
  · rcases List.mem_pair.mp hr with rfl | rfl
    · exact expression hsymbols (by simp [Lexicon.expressions]) _ _
    · exact expression hnumbers (by simp [Lexicon.expressions]) _ _
  · obtain ⟨_, op, hop, rfl⟩ := RuleTable.mem_operatorRules (RuleTable.mem_of_mem_distinct hr)
    exact .onLine (onLine_literal (h.operator hop) (hl.operators_ne op hop) _ _ _)
  · obtain ⟨pair, hpair, hr⟩ := List.mem_flatten.mp hr
    obtain ⟨i, hi, rfl⟩ := List.mem_mapIdx.mp hpair
    obtain ⟨ho, hc⟩ := hl.brackets_ne _ (List.getElem_mem hi)
    obtain ⟨ho', hc'⟩ := h.bracket (List.getElem_mem hi)
    rcases List.mem_pair.mp hr with rfl | rfl
    · exact .onLine (onLine_literal ho' ho _ _ _)
    · exact .onLine (onLine_literal hc' hc _ _ _)
  · obtain ⟨i, hi, rfl⟩ := List.mem_mapIdx.mp hr
    have hs := List.getElem?_eq_getElem hi
    exact .onLine (onLine_literal (h.string hs (by simp [StringForm.delimiters]))
      (hl.string_of_getElem? hs).opening_ne _ _ _)
  · rw [List.mem_singleton.mp hr]
    exact .unknown (Rule.takesBehind_fallback rfl) rfl

theorem OneLined.contentRule_of_mem_stringRules (h : l.OneLined) (hl : l.Accepted) {i : Nat}
    {s : StringForm} (hs : l.strings[i]? = some s) {rules : List StateRule}
    (hrules : RuleTable.stringRules i s = .ok rules) {r : StateRule} (hr : r ∈ rules) :
    ContentRule r := by
  rcases (RuleTable.mem_stringRules_iff hrules).mp hr with
    rfl | ⟨j, t, ht, hrule⟩ | ⟨text, htext, rfl⟩ | rfl
  · exact .onLine (onLine_literal (h.string hs (by simp [StringForm.delimiters]))
      (hl.string_of_getElem? hs).ending_ne _ _ _)
  · have haccepted := hl.template_of_getElem? hs ht
    cases t with
    | code opening closing =>
        cases hrule
        exact .onLine (onLine_literal (h.template hs ht List.mem_cons_self)
          haccepted.opening_ne _ _ _)
    | reference opening symbols operators =>
        obtain ⟨_, -, hrule⟩ := bind_eq_ok_iff.mp hrule
        obtain ⟨symbol, hsymbol, hrule⟩ := bind_eq_ok_iff.mp hrule
        cases hrule
        obtain ⟨honline, hnullable⟩ := h.symbol hs ht (LexRegex.read_eq_ok_iff.mp hsymbol)
        refine .onLine (.pattern rfl (LexRegex.onLine_reference
          (h.template hs ht List.mem_cons_self)
          (fun op hop => h.template hs ht (List.mem_cons_of_mem _ hop)) honline
          hnullable) ?_)
        have hne : opening ≠ "" := haccepted.opening_ne
        have hopening : (Regex.ofText opening).isNullable = false := by
          simpa [Regex.ofText, Regex.isNullable] using hne
        rw [LexRegex.reference]
        split <;> exact Bool.and_eq_false_iff.mpr (.inl hopening)
  · exact .value (h.string hs (by simp [StringForm.delimiters, htext]))
      (fun _ _ => Rule.end?_escape rfl) rfl rfl
  · exact .value (by decide) (Rule.takesBehind_fallback rfl) rfl rfl

end Lexicon

/-! ### Matches in both spellings -/

/-- Where a match ends in the other spelling, if it ends at a place in the one. -/
inductive Rule.Carries (n : Nat) (state : LexState) (r : StateRule) (p q : Place) : Place → Prop
  | same : Carries n state r p q (q.withReturns n)
  /-- Blanks take the carriage return of a line ending. -/
  | blanks : state.readsCode → r.kind = .whitespace → r.action = .stay →
      q.after.head? = some '\n' → Carries n state r p q (q.midway n)
  /-- A piece of content stops in the middle of a line ending. -/
  | half {cs m} : state.readsCode = false → r.kind = .stringValue → r.action = .stay →
      p.skip? cs = some m → m.skip? ['\n'] = some q → Carries n state r p q (m.midway n)

/-- A rule matches in both spellings or in none. -/
def Rule.Follows (r : StateRule) (n : Nat) (state : LexState) (p : Place) : Prop :=
  Option.Rel (r.Carries n state p) (r.end? p) (r.end? (p.withReturns n))

namespace Rule

variable {n : Nat} {state : LexState} {p : Place} {r : StateRule}

theorem follows_of_map (h : r.end? (p.withReturns n) = (r.end? p).map (Place.withReturns n)) :
    r.Follows n state p := by
  rw [Follows, h]
  cases r.end? p with
  | none => exact .none
  | some q => exact .some .same

/-- A rule for one more character stops in the middle of a line ending, or matches as it does in the
other spelling. -/
theorem TakesBehind.cases {text : List Char} (h : r.TakesBehind text) (htext : OnOneLine text)
    (hp : p.Feeds n) :
    r.end? (p.withReturns n) = (r.end? p).map (Place.withReturns n) ∨
      ∃ m q, p.skip? text = some m ∧ m.skip? ['\n'] = some q ∧ r.end? p = some q ∧
        r.end? (p.withReturns n) = some (m.midway n) := by
  have hskip := Place.skip?_withReturns_of_onOneLine htext n p
  have hnone {a : Place} (ha : ∀ c q, a.skip? (text ++ [c]) ≠ some q) : r.end? a = none := by
    rw [Option.eq_none_iff_forall_ne_some]
    exact fun q hq => let ⟨c, hc⟩ := (h a q).mp hq; ha c q hc
  cases hm : p.skip? text with
  | none =>
      rw [hm] at hskip
      rw [hnone fun c q hq => ?_, hnone fun c q hq => ?_]
      · exact .inl rfl
      · rw [Place.skip?_append, hm] at hq
        cases hq
      · rw [Place.skip?_append, hskip] at hq
        cases hq
  | some m =>
      rw [hm] at hskip
      cases hafter : m.after with
      | nil =>
          have hafter' : (m.withReturns n).after = [] := congrArg crlf hafter
          rw [hnone fun c q hq => ?_, hnone fun c q hq => ?_]
          · exact .inl rfl
          · rw [Place.skip?_append, hm] at hq
            exact nomatch hafter.symm.trans (Place.after_of_skip? hq)
          · rw [Place.skip?_append, hskip] at hq
            exact nomatch hafter'.symm.trans (Place.after_of_skip? hq)
      | cons c rest =>
          have hmfeeds := hp.of_skip? hm
          obtain ⟨q, hq, -⟩ := Place.exists_skip?_of_cons hafter
          have hend : r.end? p = some q :=
            (h p q).mpr ⟨c, by rw [Place.skip?_append, hm]; exact hq⟩
          by_cases hc : c = '\n'
          · subst hc
            refine .inr ⟨m, q, rfl, hq, hend, (h _ _).mpr ⟨'\r', ?_⟩⟩
            rw [Place.skip?_append, hskip]
            exact (Place.skip?_midway hq hmfeeds).1
          · refine .inl ?_
            rw [hend, Option.map_some, h]
            refine ⟨c, ?_⟩
            have hq' := Place.skip?_withReturns hq hmfeeds.count
            rw [crlf_cons_of_ne hc, crlf_nil] at hq'
            rw [Place.skip?_append, hskip]
            exact hq'

end Rule

namespace Lexicon

variable {l : Lexicon} {n : Nat} {state : LexState} {p : Place} {r : StateRule}

/-- A rule for code follows where no line ends. -/
theorem CodeRule.follows (hr : l.CodeRule r) (h : l.OneLined) (hl : l.Accepted)
    (hstate : state.readsCode) (hp : p.Feeds n) (hhead : p.after.head? ≠ some '\n') :
    r.Follows n state p := by
  cases hr with
  | onLine honline => exact Rule.follows_of_map (honline.end?_withReturns n p)
  | @multiline _ opening closing hmem hrec =>
      have haccepted := hl.comments _ hmem
      have hclosing : closing.toList ≠ [] :=
        fun he => haccepted.closing_ne _ _ rfl (String.toList_eq_nil_iff.mp he)
      have hnullable := LexRegex.isNullable_comment haccepted.opening_ne
      refine Rule.follows_of_map ?_
      rw [Rule.end?_eq_firstEnd? rfl hnullable hrec, Rule.end?_eq_firstEnd? rfl hnullable hrec]
      exact LexRegex.firstEnd?_multiline_withReturns
        (h.comment hmem (by simp [CommentForm.delimiters]))
        (h.comment hmem (by simp [CommentForm.delimiters])) hclosing hp
  | newline =>
      refine Rule.follows_of_map ?_
      rw [end?_newlineRule, end?_newlineRule]
      exact LexRegex.firstEnd?_newline_withReturns hp
  | blanks =>
      have hplain : (LexRegex.whitespace l.lineJoin).isPlain = true := by
        rw [LexRegex.whitespace_eq, Regex.plus, Regex.isPlain, LexRegex.isPlain_space,
          LexRegex.isNullable_space]
        rfl
      have hnullable : (LexRegex.whitespace l.lineJoin).isNullable = false := by
        rw [LexRegex.whitespace_eq, Regex.plus, Regex.isNullable, LexRegex.isNullable_space]
        rfl
      have hjoin : ∀ marker ∈ l.lineJoin, OnOneLine marker.toList ∧ marker.toList ≠ [] :=
        fun marker hmarker => ⟨h.lineJoin hmarker,
          fun he => hl.lineJoin_ne marker hmarker (String.toList_eq_nil_iff.mp he)⟩
      rw [Rule.Follows, Rule.end?_eq_firstEnd? hplain hnullable rfl,
        Rule.end?_eq_firstEnd? hplain hnullable rfl,
        LexRegex.firstEnd?_whitespace_withReturns hjoin hp hhead]
      cases (LexRegex.whitespace l.lineJoin).firstEnd? p with
      | none => exact .none
      | some q =>
          refine .some ?_
          rw [Place.pastReturn]
          split
          · next hnewline => exact .blanks hstate rfl rfl hnewline
          · exact .same
  | unknown htakes hrank =>
      rcases htakes.cases (by decide) hp with hmap | ⟨m, q, hm, hq, -⟩
      · exact Rule.follows_of_map hmap
      · cases hm
        rw [Place.after_of_skip? hq] at hhead
        exact absurd rfl hhead

theorem ContentRule.follows (hr : ContentRule r) (hstate : state.readsCode = false)
    (hp : p.Feeds n) : r.Follows n state p := by
  cases hr with
  | onLine honline => exact Rule.follows_of_map (honline.end?_withReturns n p)
  | value htext htakes hk ha =>
      rcases htakes.cases htext hp with hmap | ⟨m, q, hm, hq, hend, hend'⟩
      · exact Rule.follows_of_map hmap
      · rw [Rule.Follows, hend, hend']
        exact .some (.half hstate hk ha hm hq)

/-- At the end of a line, only the rule for line endings matches of those that are tried before the
other patterns. -/
theorem CodeRule.end?_eq_none (hr : l.CodeRule r) (h : l.OneLined) (hl : l.Accepted)
    (hp : EndsLine p.after) (hrank : r.rank < 2) : r.end? p = none := by
  cases hr with
  | onLine honline => exact honline.end?_eq_none hp
  | @multiline _ opening closing hmem hrec =>
      have hopening := (hl.comments _ hmem).opening_ne
      rw [Rule.end?_eq_firstEnd? rfl (LexRegex.isNullable_comment hopening) hrec,
        LexRegex.firstEnd?_multiline, Option.bind_eq_none_iff]
      intro m hm
      have hnil := hp.eq_nil_of_isPrefix (h.comment hmem (by simp [CommentForm.delimiters]))
        ⟨m.after, (Place.after_of_skip? hm).symm⟩
      exact absurd (String.toList_eq_nil_iff.mp hnil) hopening
  | newline => exact absurd hrank (by decide)
  | blanks => exact absurd hrank (Nat.lt_irrefl 2)
  | unknown _ hthree => omega

end Lexicon

/-! ### The first rule that matches -/

/-- The first rule that matches is the same one in both spellings. -/
theorem Rule.first?_of_follows {n : Nat} {state : LexState} {rules : List StateRule} {p q : Place}
    {r : StateRule} (h : ∀ r ∈ rules, r.Follows n state p)
    (hfirst : first? rules p = some (r, q)) :
    ∃ q', first? rules (p.withReturns n) = some (r, q') ∧ r.Carries n state p q q' := by
  obtain ⟨earlier, later, rfl, hend, hearlier⟩ := first?_eq_some_iff.mp hfirst
  have hr := h r (List.mem_append_right _ List.mem_cons_self)
  rw [Follows, hend] at hr
  generalize hend' : r.end? (p.withReturns n) = found at hr
  cases hr with
  | @some _ q' hcarries =>
      refine ⟨q', first?_eq_some_iff.mpr ⟨earlier, later, rfl, hend', fun s hs => ?_⟩, hcarries⟩
      have hs' := h s (List.mem_append_left _ hs)
      rw [Follows, hearlier s hs] at hs'
      generalize s.end? (p.withReturns n) = found' at hs'
      cases hs' with
      | none => rfl

namespace RuleTable

variable {l : Lexicon} {table : RuleTable} (hlines : l.OneLined) (h : ofLexicon l = .ok table)
include hlines h

theorem codeRule_of_mem {state : LexState} (hstate : state.readsCode) {r : StateRule}
    (hr : r ∈ table.rulesOf state) : l.CodeRule r := by
  obtain ⟨rules, hmem, hin⟩ := exists_of_mem_rulesOf hr
  obtain ⟨hl, root, hroot, hstates⟩ := mem_states_iff h
  obtain ⟨rfl, rfl⟩ | ⟨_, _, _, rfl, -⟩ | ⟨i, j, opening, closing, ⟨s, hs, ht⟩, rfl, rfl⟩ :=
    (hstates _ _).mp hmem
  · exact hlines.codeRule_of_mem_rootRules hl hroot hin
  · cases hstate
  · rw [templateRules, Rule.mem_sort] at hin
    rcases mem_replaceLiteral hin with rfl | hin
    · exact .onLine (Lexicon.onLine_literal
        (hlines.template hs ht (by simp [TemplateForm.delimiters]))
        ((hl.template_of_getElem? hs ht).closing_ne _ _ rfl) _ _ _)
    · exact hlines.codeRule_of_mem_rootRules hl hroot hin

theorem contentRule_of_mem {state : LexState} (hstate : state.readsCode = false) {r : StateRule}
    (hr : r ∈ table.rulesOf state) : Lexicon.ContentRule r := by
  obtain ⟨rules, hmem, hin⟩ := exists_of_mem_rulesOf hr
  obtain ⟨hl, root, hroot, hstates⟩ := mem_states_iff h
  obtain ⟨rfl, -⟩ | ⟨i, s, hs, rfl, hrules⟩ | ⟨_, _, _, _, _, rfl, -⟩ := (hstates _ _).mp hmem
  · cases hstate
  · exact hlines.contentRule_of_mem_stringRules hl hs hrules hin
  · cases hstate

variable {n : Nat} {p q : Place}

/-- In ordinary code, a line ending is a newline. -/
theorem first?_root_of_newline (hend : LexRegex.newline.firstEnd? p = some q)
    (hp : EndsLine p.after) : Rule.first? table.root p = some (newlineRule, q) := by
  have hroot := rootRules_of_ofLexicon h
  have hsorted := sorted_of_mem h (mem_states_of_contains (contains_root h))
  have hranks := Rule.eq_filter_ranks (hsorted.pairwise.imp fun h => h.rank_le)
  -- Of the rules that are tried with it, the rule for line endings was given first.
  have hsecond : ∃ later, table.root.filter (·.rank = 2) = newlineRule :: later := by
    have hchunks := ((sortsByChunk l).root _ hroot).chunkRanked
    rw [rootRules] at hroot
    obtain ⟨symbols, -, hroot⟩ := bind_eq_ok_iff.mp hroot
    obtain ⟨numbers, -, hroot⟩ := bind_eq_ok_iff.mp hroot
    rw [← Except.ok.inj hroot] at hchunks ⊢
    rw [Rule.filter_rank_sort (fun r hr => hchunks r (Rule.mem_sort.mpr hr)) (by decide)]
    exact ⟨_, List.filter_cons_of_pos rfl⟩
  obtain ⟨later, hlater⟩ := hsecond
  rw [← root, hlater, List.append_assoc] at hranks
  refine Rule.first?_eq_some_iff.mpr ⟨_, _, hranks, ?_, fun r hr => ?_⟩
  · rw [end?_newlineRule]
    exact hend
  · have hmem : r ∈ table.root ∧ r.rank < 2 := by
      rcases List.mem_append.mp hr with hr | hr <;>
        obtain ⟨hr, hrank⟩ := List.mem_filter.mp hr <;>
        exact ⟨hr, by rw [of_decide_eq_true hrank]; decide⟩
    exact (codeRule_of_mem hlines h rfl hmem.1).end?_eq_none hlines (accepted_of_ofLexicon h) hp
      hmem.2

/-- In code, a line ending is a newline. -/
theorem first?_of_newline {state : LexState} (hstate : table.contains state)
    (hcode : state.readsCode) (hend : LexRegex.newline.firstEnd? p = some q)
    (hp : EndsLine p.after) : Rule.first? (table.rulesOf state) p = some (newlineRule, q) := by
  have hroot := first?_root_of_newline hlines h hend hp
  obtain ⟨hl, root, -, hstates⟩ := mem_states_iff h
  obtain ⟨rfl, -⟩ | ⟨_, _, _, rfl, -⟩ | ⟨i, j, opening, closing, hhas, rfl, -⟩ :=
    (hstates _ _).mp (mem_states_of_contains hstate)
  · exact hroot
  · cases hcode
  · rw [(readsAsRoot_template h hhas).elsewhere p, hroot]
    obtain ⟨s, hs, ht⟩ := hhas
    intro hpre
    have hnil := hp.eq_nil_of_isPrefix
      (hlines.template hs ht (by simp [TemplateForm.delimiters])) hpre
    exact (hl.template_of_getElem? hs ht).closing_ne _ _ rfl (String.toList_eq_nil_iff.mp hnil)

/-- In a string, the second half of a line ending is a piece of content. -/
theorem first?_midway {state : LexState} (hstate : table.contains state)
    (hcontent : state.readsCode = false) {m : Place} (hm : p.skip? ['\n'] = some m)
    (hp : p.Feeds n) :
    ∃ r, Rule.first? (table.rulesOf state) (p.midway n) = some (r, m.withReturns n) ∧
      r.kind = .stringValue ∧ r.action = .stay := by
  obtain ⟨-, hskip⟩ := Place.skip?_midway hm hp
  have hafter := Place.after_of_skip? hskip
  have hends : EndsLine (p.midway n).after := hafter ▸ endsLine_newline _
  have hcomplete := (sorted_of_mem h (mem_states_of_contains hstate)).isComplete
  obtain ⟨r, hr, q, hfirst⟩ := hcomplete.exists_first? (p := p.midway n) (by simp [hafter])
  have hend := (Rule.mem_of_first? hfirst).2
  cases contentRule_of_mem hlines h hcontent hr with
  | onLine honline => rw [honline.end?_eq_none hends] at hend; cases hend
  | @value text htext htakes hk ha =>
      obtain ⟨c, hc⟩ := (htakes _ _).mp hend
      have hprefix : text <+: (p.midway n).after :=
        ⟨[c] ++ q.after, by rw [Place.after_of_skip? hc, List.append_assoc]⟩
      obtain rfl := hends.eq_nil_of_isPrefix htext hprefix
      have hchar := hafter.symm.trans (Place.after_of_skip? hc)
      obtain ⟨rfl, -⟩ := List.cons.inj hchar
      have hq : q = m.withReturns n := Option.some.inj (hc.symm.trans hskip)
      exact ⟨r, hq ▸ hfirst, hk, ha⟩

/-- The same rule matches first in both spellings. -/
theorem exists_first? {state : LexState} (hstate : table.contains state) (hp : p.Feeds n)
    (hne : p.after ≠ []) :
    ∃ r q q', Rule.first? (table.rulesOf state) p = some (r, q) ∧
      Rule.first? (table.rulesOf state) (p.withReturns n) = some (r, q') ∧
      r.Carries n state p q q' := by
  have hcomplete := (sorted_of_mem h (mem_states_of_contains hstate)).isComplete
  obtain ⟨r, -, q, hfirst⟩ := hcomplete.exists_first? hne
  have carried (hfollows : ∀ r ∈ table.rulesOf state, r.Follows n state p) :
      ∃ r q q', Rule.first? (table.rulesOf state) p = some (r, q) ∧
        Rule.first? (table.rulesOf state) (p.withReturns n) = some (r, q') ∧
        r.Carries n state p q q' := by
    obtain ⟨q', hfirst', hcarries⟩ := Rule.first?_of_follows hfollows hfirst
    exact ⟨r, q, q', hfirst, hfirst', hcarries⟩
  cases hcode : state.readsCode with
  | false =>
      exact carried fun r hr => (contentRule_of_mem hlines h hcode hr).follows hcode hp
  | true =>
      by_cases hhead : p.after.head? = some '\n'
      · obtain ⟨cs, hafter⟩ := List.head?_eq_some_iff.mp hhead
        obtain ⟨m, hm, -⟩ := Place.exists_skip?_of_cons hafter
        have hend := LexRegex.firstEnd?_newline.mpr (.inl hm)
        have hend' := (LexRegex.firstEnd?_newline_withReturns hp).trans (by rw [hend])
        refine ⟨newlineRule, m, m.withReturns n,
          first?_of_newline hlines h hstate hcode hend (hafter ▸ endsLine_newline cs),
          first?_of_newline hlines h hstate hcode hend' ?_, .same⟩
        rw [Place.withReturns, Place.respelled, hafter]
        exact endsLine_crlf_newline cs
      · exact carried fun r hr =>
          (codeRule_of_mem hlines h hcode hr).follows hlines (accepted_of_ofLexicon h) hcode hp
            hhead

end RuleTable

end Nesting
