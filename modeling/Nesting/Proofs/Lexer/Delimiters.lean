import Nesting.Proofs.Lexer.Runs
import Nesting.Proofs.Lexer.Strings

/-! # Delimiters nest

The states that a run has entered alternate: a string stands in code, and a template stands right
inside the string whose form declares it (`Lexicon.Alternates`).  So the tokens that delimit strings
and templates of code are the beginning of a well-nested word, in which the two delimiters of each
pair are the texts of one form (`RuleTable.nested_of_run`).

`Lexicon.Opens` says which words a list of entered states can come from: for each state, the token
that entered it, and then a well-nested word.  A token that enters a state adds one to both, a
token that leaves the innermost state closes the last pair (`Lexicon.Opens.closeString`,
`Lexicon.Opens.closeTemplate`), and whatever is open can be closed (`Lexicon.Opens.exists_rest`). -/

namespace Nesting

/-! ### Delimiters -/

/-- The kinds of the tokens that delimit strings. -/
def TokenKind.delimitsString : TokenKind → Bool
  | stringStart | stringEnd => true
  | _ => false

/-- The kinds of the tokens that delimit templates. -/
def TokenKind.delimitsTemplate : TokenKind → Bool
  | templateStart | templateEnd => true
  | _ => false

theorem TokenKind.not_delimits_of_isCode {k : TokenKind} (h : k.isCode) :
    k.delimitsString = false ∧ k.delimitsTemplate = false := by
  cases k <;> first | exact ⟨rfl, rfl⟩ | cases h

/-- A token of a kind and with a text. -/
structure Token.Is (t : Token) (kind : TokenKind) (text : String) : Prop where
  kind_eq : t.kind = kind
  value_eq : t.value = text

theorem Token.is_make (kind : TokenKind) (text : String) (pos : Position) :
    (Token.make kind text pos).Is kind text := ⟨rfl, rfl⟩

/-- Whether a transition cuts up the text of its rule. -/
def Transition.isSplit {S : Type} : Transition S → Bool
  | split _ => true
  | _ => false

theorem Transition.tokens_eq {S : Type} {action : Transition S} (h : action.isSplit = false)
    (t : Token) : action.tokens t = [t] := by
  cases action with
  | split parts => cases h
  | _ => rfl

namespace RuleTable

/-- Whether the next token is cut up, as a reference is. -/
def cutsReference (table : RuleTable) (s : Scan) : Bool :=
  (Rule.first? (table.rulesOf s.state) s.place).any (·.1.action.isSplit)

/-- The tokens of a step that delimit a string or a template of code.  The start and the end of a
reference do not count. -/
def delimiters (table : RuleTable) (r : Reading) : List Token :=
  r.tokens.filter fun t =>
    t.kind.delimitsString || (t.kind.delimitsTemplate && !table.cutsReference r.scan)

end RuleTable

namespace Lexicon

variable {l : Lexicon}

/-- Entered states, the innermost first: strings in code, and each template right inside the string
whose form declares it. -/
inductive Alternates (l : Lexicon) : List LexState → Prop
  | root : Alternates l []
  | string {entered i s} : Alternates l entered → (entered.headD .root).readsCode →
      l.strings[i]? = some s → Alternates l (.string i :: entered)
  | template {entered i j opening closing} : Alternates l (.string i :: entered) →
      l.HasCode i j opening closing → Alternates l (.template i j :: .string i :: entered)

/-- The well-nested words of delimiters in a state: strings in code, and templates in a string.  The
two delimiters of a pair have the texts of one form. -/
inductive WellNested (l : Lexicon) : LexState → List Token → Prop
  | nil {state} : WellNested l state []
  | string {state i s start inner stop rest} : state.readsCode → l.strings[i]? = some s →
      start.Is .stringStart s.opening → WellNested l (.string i) inner →
      stop.Is .stringEnd s.ending → WellNested l state rest →
      WellNested l state (start :: inner ++ stop :: rest)
  | template {i j opening closing start inner stop rest} : l.HasCode i j opening closing →
      start.Is .templateStart opening → WellNested l (.template i j) inner →
      stop.Is .templateEnd closing → WellNested l (.string i) rest →
      WellNested l (.string i) (start :: inner ++ stop :: rest)

theorem WellNested.append {state : LexState} {ts us : List Token} (hts : l.WellNested state ts)
    (hus : l.WellNested state us) : l.WellNested state (ts ++ us) := by
  induction hts with
  | nil => exact hus
  | string hcode hs hstart hinner hstop _ _ ih =>
      rw [List.append_assoc]
      exact .string hcode hs hstart hinner hstop (ih hus)
  | template hcode hstart hinner hstop _ _ ih =>
      rw [List.append_assoc]
      exact .template hcode hstart hinner hstop (ih hus)

/-! ### Words that leave states open -/

/-- Entered states, the innermost first, and the delimiters that led to them: for each state the
token that entered it, then a well-nested word. -/
inductive Opens (l : Lexicon) : List LexState → List Token → Prop
  | root {ts} : l.WellNested .root ts → Opens l [] ts
  | string {entered ts i s start inner} : Opens l entered ts → (entered.headD .root).readsCode →
      l.strings[i]? = some s → start.Is .stringStart s.opening → l.WellNested (.string i) inner →
      Opens l (.string i :: entered) (ts ++ start :: inner)
  | template {entered ts i j opening closing start inner} : Opens l (.string i :: entered) ts →
      l.HasCode i j opening closing → start.Is .templateStart opening →
      l.WellNested (.template i j) inner →
      Opens l (.template i j :: .string i :: entered) (ts ++ start :: inner)

theorem Opens.alternates {entered : List LexState} {ts : List Token} (h : l.Opens entered ts) :
    l.Alternates entered := by
  induction h with
  | root _ => exact .root
  | string _ hcode hs _ _ ih => exact .string ih hcode hs
  | template _ hcode _ _ ih => exact .template ih hcode

/-- A well-nested word leaves open what was open. -/
theorem Opens.append {entered : List LexState} {ts us : List Token} (h : l.Opens entered ts)
    (hus : l.WellNested (entered.headD .root) us) : l.Opens entered (ts ++ us) := by
  cases h with
  | root hts => exact .root (hts.append hus)
  | string h hcode hs hstart hinner =>
      rw [List.append_assoc]
      exact .string h hcode hs hstart (hinner.append hus)
  | template h hcode hstart hinner =>
      rw [List.append_assoc]
      exact .template h hcode hstart (hinner.append hus)

/-- The end of the innermost string closes it. -/
theorem Opens.closeString {entered : List LexState} {ts : List Token} {i : Nat} {s : StringForm}
    {stop : Token} (h : l.Opens (.string i :: entered) ts) (hs : l.strings[i]? = some s)
    (hstop : stop.Is .stringEnd s.ending) : l.Opens entered (ts ++ [stop]) := by
  cases h with
  | @string _ ts _ s' start inner h hcode hs' hstart hinner =>
      obtain rfl : s' = s := Option.some.inj (hs'.symm.trans hs)
      have hpair : l.WellNested (entered.headD .root) (start :: inner ++ [stop]) :=
        .string hcode hs hstart hinner hstop .nil
      have hopens := h.append hpair
      rwa [← List.append_assoc] at hopens

/-- The end of the innermost template closes it. -/
theorem Opens.closeTemplate {outer : List LexState} {ts : List Token} {i j : Nat}
    {opening closing : String} {stop : Token} (h : l.Opens (.template i j :: outer) ts)
    (hcode : l.HasCode i j opening closing) (hstop : stop.Is .templateEnd closing) :
    l.Opens outer (ts ++ [stop]) := by
  cases h with
  | @template _ ts _ _ opening' closing' start inner h hcode' hstart hinner =>
      obtain ⟨s, hs, ht⟩ := hcode
      obtain ⟨s', hs', ht'⟩ := hcode'
      obtain rfl : s = s' := Option.some.inj (hs.symm.trans hs')
      obtain ⟨rfl, rfl⟩ := TemplateForm.code.inj (Option.some.inj (ht.symm.trans ht'))
      have hpair : l.WellNested (.string i) (start :: inner ++ [stop]) :=
        .template ⟨s, hs, ht⟩ hstart hinner hstop .nil
      have hopens := h.append hpair
      rwa [← List.append_assoc] at hopens

/-- Whatever is open can be closed. -/
theorem Opens.exists_rest {entered : List LexState} {ts : List Token} (h : l.Opens entered ts) :
    ∃ rest, l.WellNested .root (ts ++ rest) := by
  induction entered generalizing ts with
  | nil =>
      cases h with
      | root hts => exact ⟨[], by rwa [List.append_nil]⟩
  | cons state outer ih =>
      have close {stop : Token} (hclosed : l.Opens outer (ts ++ [stop])) :
          ∃ rest, l.WellNested .root (ts ++ rest) := by
        obtain ⟨rest, hrest⟩ := ih hclosed
        rw [List.append_assoc] at hrest
        exact ⟨_, hrest⟩
      have hopens := h
      cases h with
      | string _ _ hs _ _ => exact close (hopens.closeString hs (Token.is_make _ _ {}))
      | template _ hcode _ _ => exact close (hopens.closeTemplate hcode (Token.is_make _ _ {}))

end Lexicon

namespace RuleTable

variable {l : Lexicon} {table : RuleTable}

/-! ### Steps -/

/-- A step is made by the first rule that matches. -/
theorem eq_of_step? {s s' : Scan} {ts : List Token} (hstep : table.step? s = some (ts, s'))
    {r : StateRule} {q : Place}
    (hfirst : Rule.first? (table.rulesOf s.state) s.place = some (r, q)) :
    ts = r.action.tokens (tokenBetween r.kind s.place q s.pos) ∧
      s'.entered = table.follow s.entered r.action := by
  rw [step?] at hstep
  split at hstep
  · cases hstep
  · rw [Rule.next?, hfirst] at hstep
    cases hstep
    exact ⟨rfl, rfl⟩

/-- Without a rule that matches, a step takes unknown text. -/
theorem unknown_of_step? {s s' : Scan} {ts : List Token} (hstep : table.step? s = some (ts, s'))
    (hfirst : Rule.first? (table.rulesOf s.state) s.place = none) :
    (∃ t, ts = [t] ∧ t.kind = .unknown) ∧ s'.entered = s.entered := by
  rw [step?] at hstep
  split at hstep
  · cases hstep
  · rw [Rule.next?, hfirst] at hstep
    cases hnext : s.place.next? with
    | none =>
        rw [hnext] at hstep
        cases hstep
    | some found =>
        rw [hnext] at hstep
        cases hstep
        exact ⟨⟨_, rfl, rfl⟩, rfl⟩

theorem is_tokenBetween {name : String} {kind : TokenKind} {text : String}
    {action : Transition LexState} {p q : Place}
    (hend : (Rule.literal name kind text action).end? p = some q) (pos : Position) :
    (tokenBetween kind p q pos).Is kind text := by
  have hskip : p.skip? text.toList = some q := hend
  refine ⟨rfl, ?_⟩
  rw [tokenBetween, Place.textUntil_eq hskip, String.ofList_toList]
  rfl

theorem delimiters_eq_nil {s : Scan} {t : Token} (hstring : t.kind.delimitsString = false)
    (htemplate : t.kind.delimitsTemplate = false) : table.delimiters ⟨s, [t]⟩ = [] := by
  simp [delimiters, hstring, htemplate]

theorem delimiters_tokens {s : Scan} {r : StateRule} {q : Place}
    (hfirst : Rule.first? (table.rulesOf s.state) s.place = some (r, q))
    (hsplit : r.action.isSplit = false) {t : Token}
    (ht : t.kind.delimitsString ∨ t.kind.delimitsTemplate) :
    table.delimiters ⟨s, r.action.tokens t⟩ = [t] := by
  have hcuts : table.cutsReference s = false := by
    simp [cutsReference, hfirst, hsplit]
  rw [Transition.tokens_eq hsplit]
  simp [delimiters, hcuts, ht]

/-- A reference has no delimiters. -/
theorem delimiters_cut {s : Scan} {r : StateRule} {q : Place}
    (hfirst : Rule.first? (table.rulesOf s.state) s.place = some (r, q))
    {opening : String} {operators : List String} {symbol : Regex}
    (ha : r.action = .split (referenceRules opening operators symbol)) (t : Token) :
    table.delimiters ⟨s, t.cut (referenceRules opening operators symbol)⟩ = [] := by
  have hcuts : table.cutsReference s := by
    simp [cutsReference, hfirst, ha, Transition.isSplit]
  obtain ⟨ts, mark, hcut, hts, hmark⟩ :=
    exists_mark_of_cut (fun _ => kind_of_mem_referenceRules) t
  rw [delimiters, List.filter_eq_nil_iff]
  intro u hu
  obtain ⟨⟨hstart, hend⟩, -⟩ := ne_of_mem_reference hts hmark u (hcut ▸ hu)
  cases hk : u.kind <;> simp_all [TokenKind.delimitsString]

/-- The state of a scan is the innermost one that was entered, unless it is the root. -/
theorem exists_entered_eq {s : Scan} {state : LexState} (hstate : s.state = state)
    (hroot : state ≠ .root) : ∃ outer, s.entered = state :: outer := by
  unfold Scan.state at hstate
  cases he : s.entered with
  | nil =>
      rw [he] at hstate
      exact absurd hstate.symm hroot
  | cons state' outer =>
      rw [he] at hstate
      exact ⟨outer, congrArg (· :: outer) hstate⟩

/-- The states after the rule that matches come from the delimiters with those of the rule. -/
theorem opens_of_rule (h : ofLexicon l = .ok table) {s : Scan} {r : StateRule} {q : Place}
    {ds : List Token} (hopens : l.Opens s.entered ds)
    (hfirst : Rule.first? (table.rulesOf s.state) s.place = some (r, q)) :
    l.Opens (table.follow s.entered r.action)
      (ds ++ table.delimiters ⟨s, r.action.tokens (tokenBetween r.kind s.place q s.pos)⟩) := by
  obtain ⟨hmem, hend⟩ := Rule.mem_of_first? hfirst
  have follow_push {state : LexState} (ha : r.action = .push state) :
      table.follow s.entered r.action = state :: s.entered := by
    rw [ha, follow, if_pos (contains_of_push h hmem ha)]
  have kept (ha : r.action = .stay) (hstring : r.kind.delimitsString = false)
      (htemplate : r.kind.delimitsTemplate = false) :
      l.Opens (table.follow s.entered r.action)
        (ds ++ table.delimiters ⟨s, r.action.tokens (tokenBetween r.kind s.place q s.pos)⟩) := by
    have hsplit : r.action.isSplit = false := by rw [ha]; rfl
    rw [Transition.tokens_eq hsplit, delimiters_eq_nil hstring htemplate, List.append_nil, ha]
    exact hopens
  have hrule := hasRule_of_mem h hmem
  generalize hstate : s.state = state at hrule
  cases hrule with
  | code _ hk ha _ =>
      obtain ⟨hstring, htemplate⟩ := TokenKind.not_delimits_of_isCode hk
      exact kept ha hstring htemplate
  | content hk ha _ => exact kept ha (by rw [hk]; rfl) (by rw [hk]; rfl)
  | enterString hcode hs =>
      have hcode : (s.entered.headD .root).readsCode := by
        rw [← hstate] at hcode
        exact hcode
      rw [follow_push rfl, delimiters_tokens hfirst rfl (.inl rfl)]
      exact .string hopens hcode hs (is_tokenBetween hend s.pos) .nil
  | leaveString hs =>
      obtain ⟨outer, houter⟩ := exists_entered_eq hstate LexState.noConfusion
      rw [delimiters_tokens hfirst rfl (.inl rfl), houter]
      rw [houter] at hopens
      exact hopens.closeString hs (is_tokenBetween hend s.pos)
  | enterTemplate hcode =>
      obtain ⟨outer, houter⟩ := exists_entered_eq hstate LexState.noConfusion
      rw [follow_push rfl, delimiters_tokens hfirst rfl (.inr rfl), houter]
      rw [houter] at hopens
      exact .template hopens hcode (is_tokenBetween hend s.pos) .nil
  | leaveTemplate hcode =>
      obtain ⟨outer, houter⟩ := exists_entered_eq hstate LexState.noConfusion
      rw [delimiters_tokens hfirst rfl (.inr rfl), houter]
      rw [houter] at hopens
      exact hopens.closeTemplate hcode (is_tokenBetween hend s.pos)
  | reference _ _ _ _ ha =>
      have hnone := delimiters_cut hfirst ha (tokenBetween r.kind s.place q s.pos)
      rw [ha, Transition.tokens, hnone, List.append_nil]
      exact hopens

/-- A step keeps account of its delimiters. -/
theorem opens_of_step? (h : ofLexicon l = .ok table) {s s' : Scan} {ts ds : List Token}
    (hopens : l.Opens s.entered ds) (hstep : table.step? s = some (ts, s')) :
    l.Opens s'.entered (ds ++ table.delimiters ⟨s, ts⟩) := by
  cases hfirst : Rule.first? (table.rulesOf s.state) s.place with
  | none =>
      obtain ⟨⟨t, rfl, ht⟩, hentered⟩ := unknown_of_step? hstep hfirst
      rw [delimiters_eq_nil (by rw [ht]; rfl) (by rw [ht]; rfl), List.append_nil, hentered]
      exact hopens
  | some found =>
      obtain ⟨htokens, hentered⟩ := eq_of_step? hstep hfirst
      rw [htokens, hentered]
      exact opens_of_rule h hopens hfirst

/-! ### Runs -/

theorem Run.opens (h : ofLexicon l = .ok table) {source : List Char} {readings : List Reading}
    {s : Scan} (hrun : table.Run (.start source) readings s) :
    l.Opens s.entered (readings.flatMap table.delimiters) := by
  induction hrun with
  | start => exact .root .nil
  | step _ hstep ih =>
      rw [List.flatMap_append, List.flatMap_singleton]
      exact opens_of_step? h ih hstep

theorem entered_ne_nil_of_pop (h : ofLexicon l = .ok table) {s : Scan} {r : StateRule}
    (hr : r ∈ table.rulesOf s.state) (ha : r.action = .pop) : s.entered ≠ [] := by
  intro he
  have hroot : s.state = .root := by rw [Scan.state, he]; rfl
  have hrule := hasRule_of_mem h hr
  rw [hroot] at hrule
  cases hrule with
  | code _ _ hstay _ => simp [ha] at hstay
  | enterString _ _ => cases ha

/-- **Delimiters nest.**  At every point of a run the entered states alternate, and a rule that
leaves a state has one to leave.  The delimiters so far are the beginning of a well-nested word. -/
theorem nested_of_run (h : ofLexicon l = .ok table) {source : String} {readings : List Reading}
    {s : Scan} (hrun : table.Run (.start source.toList) readings s) :
    l.Alternates s.entered ∧
      (∀ r q, Rule.first? (table.rulesOf s.state) s.place = some (r, q) → r.action = .pop →
        s.entered ≠ []) ∧
      ∃ rest, l.WellNested .root (readings.flatMap table.delimiters ++ rest) := by
  have hopens := hrun.opens h
  refine ⟨hopens.alternates, fun r q hfirst ha => ?_, hopens.exists_rest⟩
  exact entered_ne_nil_of_pop h (Rule.mem_of_first? hfirst).1 ha

/-- A string in a template of a string, with a reference in it. -/
theorem nested_of_run_interpolating :
    ∃ table, ofLexicon .interpolating = .ok table ∧
      (table.tokenize "\"\x7b\"$a").map Token.kind =
        [.stringStart, .templateStart, .stringStart, .templateStart, .symbol, .templateEnd] ∧
      ∃ readings s, table.Run (.start "\"\x7b\"$a".toList) readings s ∧
        Reading.all readings = table.tokenize "\"\x7b\"$a" ∧
        Lexicon.interpolating.Alternates s.entered ∧
        (∀ r q, Rule.first? (table.rulesOf s.state) s.place = some (r, q) → r.action = .pop →
          s.entered ≠ []) ∧
        ∃ rest, Lexicon.interpolating.WellNested .root
          (readings.flatMap table.delimiters ++ rest) := by
  have run : (fun table => (table.tokenize "\"\x7b\"$a").map Token.kind) <$>
      ofLexicon .interpolating =
      .ok [.stringStart, .templateStart, .stringStart, .templateStart, .symbol, .templateEnd] := by
    decide +kernel
  obtain ⟨table, h, hkinds⟩ := map_eq_ok_iff.mp run
  obtain ⟨readings, s, hrun, -, htokens⟩ := exists_run_tokenize h "\"\x7b\"$a"
  exact ⟨table, h, hkinds, readings, s, hrun, htokens, nested_of_run h hrun⟩

end RuleTable

end Nesting
