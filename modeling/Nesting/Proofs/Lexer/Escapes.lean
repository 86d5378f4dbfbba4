import Nesting.Language.Basic
import Nesting.Proofs.Lexer.ReferenceCuts
import Nesting.Proofs.Lexer.Runs

/-! # Escapes

In the content of a string, an escape and the character behind it are one piece of content, whatever
the character is, unless what ends the string or opens one of its templates begins with the escape
(`StringForm.Escapes`).  So the content of a string without templates is cut from left to right
(`cutContent`), and the first ending text that is met ends it (`RuleTable.reads_escapes`).

Of the rules that match at a place, one with a longer chunk comes first, so the rule of the escape
comes first where it matches (`RuleTable.first?_escape`); without templates, what ends the string
comes next, and the fallback last. -/

namespace Nesting

/-! ### The content of a string -/

/-- A string whose escapes have precedence: nothing else that its content can stop at begins with
the escape. -/
structure StringForm.Escapes (s : StringForm) (escape : String) : Prop where
  escape_eq : s.escape = some escape
  ending : ¬ escape.toList <+: s.ending.toList
  opening : ∀ t ∈ s.templates, ¬ escape.toList <+: t.opening.toList

/-- The pieces of the content of a string, from left to right, and the text behind what ends it, if
anything does.  An escape and the character behind it are one piece, as is every character apart
from these. -/
def cutContent (escape ending cs : List Char) : List (List Char) × Option (List Char) :=
  if escape <+: cs ∧ escape.length < cs.length then
    (cutContent escape ending (cs.drop (escape.length + 1))).map
      (cs.take (escape.length + 1) :: ·) id
  else if ending <+: cs then ([], some (cs.drop ending.length))
  else
    match cs with
    | [] => ([], none)
    | c :: cs => (cutContent escape ending cs).map ([c] :: ·) id
termination_by cs.length

/-- Pieces of content as tokens, one behind the other. -/
def contentTokens : Position → List (List Char) → List Token
  | _, [] => []
  | pos, cs :: pieces =>
    .make .stringValue (String.ofList cs) pos :: contentTokens (pos.advance cs) pieces

theorem pair_iff {escape cs : List Char} :
    escape <+: cs ∧ escape.length < cs.length ↔ ∃ c rest, cs = escape ++ c :: rest := by
  constructor
  · rintro ⟨⟨rest, rfl⟩, hlength⟩
    cases rest with
    | nil => simp at hlength
    | cons c rest => exact ⟨c, rest, rfl⟩
  · rintro ⟨c, rest, rfl⟩
    exact ⟨List.prefix_append _ _, by simp⟩

/-! ### The rules of the content of a string -/

theorem CharSet.mem_any (c : Char) : any.mem c := by
  have hle : c.toNat ≤ lastCode := by
    rcases c.valid with h | h
    · exact Nat.le_of_lt (Nat.lt_trans h (by decide))
    · exact Nat.le_of_lt_succ h.2
  simp [mem, any, CharClass.inRanges, hle]

theorem Regex.firstEnd?_any (p : Place) : (one .any).firstEnd? p = p.next?.map (·.2) := by
  rw [firstEnd?, ends]
  cases p.next? with
  | none => rfl
  | some found => simp [CharSet.mem_any]

/-- An escape matches with the character behind it. -/
theorem Rule.end?_escape {α : Type} {r : Rule α} {escape : String}
    (hr : r.recognizer = .pattern (LexRegex.escape escape)) {p q : Place} :
    r.end? p = some q ↔ ∃ c, p.skip? (escape.toList ++ [c]) = some q := by
  have hfirst : (LexRegex.escape escape).firstEnd? p = some q ↔
      ∃ c, p.skip? (escape.toList ++ [c]) = some q := by
    rw [LexRegex.escape, Regex.ofText, Regex.firstEnd?_seq_text]
    cases hm : p.skip? escape.toList with
    | none => simp [Place.skip?_append, hm]
    | some m =>
        simp only [Place.skip?_append, hm, Option.bind_some, Regex.firstEnd?_any]
        constructor
        · intro h
          obtain ⟨⟨c, q'⟩, hc, rfl⟩ := Option.map_eq_some_iff.mp h
          exact ⟨c, Place.skip?_of_next? hc⟩
        · rintro ⟨c, hc⟩
          have hafter : m.after = c :: q.after := Place.after_of_skip? hc
          rw [Place.next?_of_after hafter]
          have hnext := Place.skip?_of_next? (Place.next?_of_after hafter)
          rw [hc] at hnext
          exact congrArg some (Option.some.inj hnext).symm
  rw [end?_of_pattern hr, hfirst, and_iff_left_iff_imp]
  rintro ⟨c, hc⟩
  rw [Place.index_of_skip? hc, List.length_append, List.length_singleton]
  omega

namespace RuleTable

variable {l : Lexicon} {table : RuleTable}

theorem chunk_of_templateRule {i j : Nat} {t : TemplateForm} {r : StateRule}
    (h : templateRule i j t = .ok r) : r.chunk = some t.opening := by
  cases t with
  | code opening closing =>
      cases h
      rfl
  | reference opening symbols operators =>
      obtain ⟨_, -, h⟩ := bind_eq_ok_iff.mp h
      obtain ⟨symbol, -, h⟩ := bind_eq_ok_iff.mp h
      cases h
      rfl

section string

variable {i : Nat} {f : StringForm} {escape : String} {p : Place}

/-- Where a rule of a string with a chunk matches, the first rule that matches has a chunk that goes
on from it. -/
theorem exists_first?_string (h : ofLexicon l = .ok table) {r : StateRule}
    (hr : r ∈ table.rulesOf (.string i)) {x : String} (hx : r.chunk = some x)
    (hend : (r.end? p).isSome) :
    ∃ s ∈ table.rulesOf (.string i), ∃ q, Rule.first? (table.rulesOf (.string i)) p = some (s, q) ∧
      s.end? p = some q ∧ ∃ y, s.chunk = some y ∧ x.toList <+: y.toList := by
  obtain ⟨rules, hmem, -⟩ := exists_of_mem_rulesOf hr
  have hmem := mem_states_of_contains (contains_of_mem hmem)
  have hlongest := (sorted_of_mem h hmem).longestFirst fun s hs => (hasRule_of_mem h hs).formed
  obtain ⟨s, q, hfirst, hchunk⟩ := hlongest p ⟨r, hr, by simp [hx], hend⟩
  obtain ⟨hs, hq⟩ := Rule.mem_of_first? hfirst
  refine ⟨s, hs, q, hfirst, hq, ?_⟩
  rcases hchunk with hnumber | ⟨y, hy, hlonger⟩
  · cases hasRule_of_mem h hs with
    | code hcode => cases hcode
    | enterString hcode => cases hcode
    | content hk => exact absurd (hk.symm.trans hnumber) nofun
    | enterTemplate => cases hnumber
    | reference _ _ hk => exact absurd (hk.symm.trans hnumber) nofun
    | leaveString => cases hnumber
  · exact ⟨y, hy, hlonger r hr x hx hend⟩

/-- An escape with a character behind it is read as content. -/
theorem first?_of_pair (h : ofLexicon l = .ok table) (hf : l.strings[i]? = some f)
    (he : f.Escapes escape) {c : Char} {rest : List Char}
    (hp : p.after = escape.toList ++ c :: rest) :
    ∃ r q, Rule.first? (table.rulesOf (.string i)) p = some (r, q) ∧ r.kind = .stringValue ∧
      r.action = .stay ∧ p.skip? (escape.toList ++ [c]) = some q := by
  have hrules := rulesOf_string h hf
  have hpair : p.after = escape.toList ++ [c] ++ rest := hp.trans (List.append_cons _ _ _)
  obtain ⟨q, hq, -⟩ := Place.exists_skip?_of_after hpair
  obtain ⟨s, hs, hchunk, hrecognizer⟩ : ∃ s ∈ table.rulesOf (.string i),
      s.chunk = some escape ∧ s.recognizer = .pattern (LexRegex.escape escape) :=
    ⟨_, (mem_stringRules_iff hrules).mpr (.inr (.inr (.inl ⟨escape, he.escape_eq, rfl⟩))), rfl, rfl⟩
  have hend := (Rule.end?_escape hrecognizer).mpr ⟨c, hq⟩
  obtain ⟨r, hr, q', hfirst, hq', x, hx, hlonger⟩ :=
    exists_first?_string h hs hchunk (p := p) (by rw [hend]; rfl)
  rcases (mem_stringRules_iff hrules).mp hr with rfl | ⟨j, t, ht, hrule⟩ | ⟨text, htext, rfl⟩ | rfl
  · obtain rfl := Option.some.inj hx
    exact absurd hlonger he.ending
  · obtain rfl := Option.some.inj ((chunk_of_templateRule hrule).symm.trans hx)
    exact absurd hlonger (he.opening t (List.mem_of_getElem? ht))
  · obtain rfl := Option.some.inj (htext.symm.trans he.escape_eq)
    obtain ⟨d, hd⟩ := (Rule.end?_escape rfl).mp hq'
    have hafter := hp.symm.trans (Place.after_of_skip? hd)
    rw [List.append_assoc, List.append_cancel_left_eq] at hafter
    obtain ⟨rfl, -⟩ := List.cons.inj hafter
    exact ⟨_, _, hfirst, rfl, rfl, hd⟩
  · cases hx

/-- Without templates, what ends a string is read where no escape has a character behind it. -/
theorem first?_of_ending (h : ofLexicon l = .ok table) (hf : l.strings[i]? = some f)
    (he : f.escape = some escape) (ht : f.templates = [])
    (hpair : ∀ c rest, p.after ≠ escape.toList ++ c :: rest) {rest : List Char}
    (hp : p.after = f.ending.toList ++ rest) :
    ∃ r q, Rule.first? (table.rulesOf (.string i)) p = some (r, q) ∧ r.kind = .stringEnd ∧
      r.action = .pop ∧ p.skip? f.ending.toList = some q := by
  have hrules := rulesOf_string h hf
  obtain ⟨q, hq, -⟩ := Place.exists_skip?_of_after hp
  have hmem := (mem_stringRules_iff hrules).mpr (.inl rfl)
  obtain ⟨r, hr, q', hfirst, hq', x, hx, -⟩ :=
    exists_first?_string h hmem rfl (p := p) (by
      show (p.skip? f.ending.toList).isSome
      rw [hq]
      rfl)
  rcases (mem_stringRules_iff hrules).mp hr with rfl | ⟨j, t, hj, -⟩ | ⟨text, htext, rfl⟩ | rfl
  · exact ⟨_, _, hfirst, rfl, rfl, hq'⟩
  · rw [ht] at hj
    cases hj
  · obtain rfl := Option.some.inj (htext.symm.trans he)
    obtain ⟨c, hc⟩ := (Rule.end?_escape rfl).mp hq'
    refine absurd ?_ (hpair c q'.after)
    rw [Place.after_of_skip? hc, List.append_assoc, List.singleton_append]
  · cases hx

/-- Without templates, everything else is read as content, character by character. -/
theorem first?_of_content (h : ofLexicon l = .ok table) (hf : l.strings[i]? = some f)
    (he : f.escape = some escape) (ht : f.templates = [])
    (hpair : ∀ c rest, p.after ≠ escape.toList ++ c :: rest)
    (hending : ¬ f.ending.toList <+: p.after) {c : Char} {rest : List Char}
    (hp : p.after = c :: rest) :
    ∃ r q, Rule.first? (table.rulesOf (.string i)) p = some (r, q) ∧ r.kind = .stringValue ∧
      r.action = .stay ∧ p.skip? [c] = some q := by
  have hrules := rulesOf_string h hf
  have hnext := Place.next?_of_after hp
  have hmem := (mem_stringRules_iff hrules).mpr (.inr (.inr (.inr rfl)))
  cases hfirst : Rule.first? (table.rulesOf (.string i)) p with
  | none =>
      have hnone := Rule.first?_eq_none_iff.mp hfirst _ hmem
      rw [show Rule.end? _ p = p.next?.map (·.2) from rfl, hnext] at hnone
      cases hnone
  | some found =>
      obtain ⟨r, q⟩ := found
      obtain ⟨hr, hq⟩ := Rule.mem_of_first? hfirst
      rcases (mem_stringRules_iff hrules).mp hr with rfl | ⟨j, t, hj, -⟩ | ⟨text, htext, rfl⟩ | rfl
      · exact absurd ⟨q.after, (Place.after_of_skip? hq).symm⟩ hending
      · rw [ht] at hj
        cases hj
      · obtain rfl := Option.some.inj (htext.symm.trans he)
        obtain ⟨c, hc⟩ := (Rule.end?_escape rfl).mp hq
        refine absurd ?_ (hpair c q.after)
        rw [Place.after_of_skip? hc, List.append_assoc, List.singleton_append]
      · rw [show Rule.end? _ p = p.next?.map (·.2) from rfl, hnext] at hq
        refine ⟨_, _, rfl, rfl, rfl, ?_⟩
        rw [← Option.some.inj hq]
        exact Place.skip?_of_next? hnext

end string

/-! ### Reading the content of a string -/

/-- From a scan in a string, the lexer reads some pieces of content; then it reads what ends the
string and leaves it, or there is no text left. -/
inductive ReadsContent (table : RuleTable) (ending : String) (s : Scan) :
    List (List Char) × Option (List Char) → Prop
  | ended {pieces readings s'} : table.Run s readings s' →
      Reading.all readings = contentTokens s.pos pieces ++
        [.make .stringEnd ending (s.pos.advance pieces.flatten)] →
      s'.entered = s.entered.tail → ReadsContent table ending s (pieces, some s'.place.after)
  | unended {pieces readings s'} : table.Run s readings s' →
      Reading.all readings = contentTokens s.pos pieces → s'.entered = s.entered →
      s'.place.after = [] → ReadsContent table ending s (pieces, none)

/-- One more piece in front. -/
theorem ReadsContent.cons {ending : String} {s : Scan} {cs : List Char} {q : Place}
    {found : List (List Char) × Option (List Char)}
    (hstep : table.step? s = some ([.make .stringValue (String.ofList cs) s.pos],
      { place := q, pos := s.pos.advance cs, entered := s.entered }))
    (h : table.ReadsContent ending
      { place := q, pos := s.pos.advance cs, entered := s.entered } found) :
    table.ReadsContent ending s (found.map (cs :: ·) id) := by
  cases h with
  | ended hrun htokens hentered =>
      refine .ended (.cons hstep hrun) ?_ hentered
      rw [← List.singleton_append, Reading.all_append, htokens, List.flatten_cons,
        Position.advance_append]
      rfl
  | unended hrun htokens hentered hafter =>
      refine .unended (.cons hstep hrun) ?_ hentered hafter
      rw [← List.singleton_append, Reading.all_append, htokens]
      rfl

section string

variable {i : Nat} {f : StringForm} {escape : String}

theorem step?_of_value {s : Scan} {r : StateRule} {cs : List Char} {q : Place}
    (hfirst : Rule.first? (table.rulesOf s.state) s.place = some (r, q))
    (hkind : r.kind = .stringValue) (haction : r.action = .stay) (hne : cs ≠ [])
    (hcs : s.place.skip? cs = some q) :
    table.step? s = some ([.make .stringValue (String.ofList cs) s.pos],
      { place := q, pos := s.pos.advance cs, entered := s.entered }) := by
  rw [step?_of_first? hfirst hne hcs, haction, hkind]
  rfl

/-- Without templates, the lexer reads the content of a string as it is cut. -/
theorem readsContent (h : ofLexicon l = .ok table) (hf : l.strings[i]? = some f)
    (he : f.Escapes escape) (ht : f.templates = []) {cs : List Char} {s : Scan}
    (hs : s.state = .string i) (hcs : s.place.after = cs) :
    table.ReadsContent f.ending s (cutContent escape.toList f.ending.toList cs) := by
  have hne : f.ending.toList ≠ [] := fun hnil =>
    ((accepted_of_ofLexicon h).string_of_getElem? hf).ending_ne (String.toList_eq_nil_iff.mp hnil)
  fun_induction cutContent escape.toList f.ending.toList cs generalizing s with
  | case1 cs hpair ih =>
      obtain ⟨c, rest, hsplit⟩ := pair_iff.mp hpair
      have htake : cs.take (escape.toList.length + 1) = escape.toList ++ [c] := by
        rw [hsplit, List.append_cons]
        exact List.take_left' (by simp)
      obtain ⟨r, q, hfirst, hk, ha, hq⟩ := first?_of_pair h hf he (hcs.trans hsplit)
      have hq' : q.after = cs.drop (escape.toList.length + 1) := by
        rw [← hcs, Place.after_of_skip? hq]
        exact (List.drop_left' (by simp)).symm
      rw [← hs] at hfirst
      rw [htake]
      exact .cons (step?_of_value hfirst hk ha (by simp) hq) (ih hs hq')
  | case2 cs hpair hending =>
      obtain ⟨rest, rfl⟩ := hending
      obtain ⟨r, q, hfirst, hk, ha, hq⟩ := first?_of_ending h hf he.escape_eq ht
        (fun c rest hp => hpair (pair_iff.mpr ⟨c, rest, hcs.symm.trans hp⟩)) hcs
      rw [← hs] at hfirst
      have hrun := Run.cons (step?_of_first? hfirst hne hq) .start
      rw [List.drop_left, ← List.append_cancel_left ((Place.after_of_skip? hq).symm.trans hcs)]
      refine .ended hrun ?_ ?_
      · rw [Reading.all_singleton, ha, hk, String.ofList_toList]
        rfl
      · rw [ha]
        rfl
  | case3 hpair hending => exact .unended .start rfl rfl hcs
  | case4 c rest hpair hending ih =>
      obtain ⟨r, q, hfirst, hk, ha, hq⟩ := first?_of_content h hf he.escape_eq ht
        (fun d rest hp => hpair (pair_iff.mpr ⟨d, rest, hcs.symm.trans hp⟩))
        (hcs ▸ hending) hcs
      rw [← hs] at hfirst
      have hq' : q.after = rest := by
        have hafter := (Place.after_of_skip? hq).symm.trans hcs
        exact (List.cons.inj hafter).2
      exact .cons (step?_of_value hfirst hk ha (by simp) hq) (ih hs hq')

end string

end RuleTable

/-- In the built-in languages, all escapes have precedence. -/
theorem StringForm.escapes_of_builtin {language : LanguageEntry} (h : language ∈ LanguageEntry.all)
    {f : StringForm} (hf : f ∈ language.grammar.lexicon.strings) {escape : String}
    (he : f.escape = some escape) : f.Escapes escape := by
  have hall : ∀ language ∈ LanguageEntry.all, ∀ f ∈ language.grammar.lexicon.strings,
      ∀ escape ∈ f.escape, ¬ escape.toList <+: f.ending.toList ∧
        ∀ t ∈ f.templates, ¬ escape.toList <+: t.opening.toList := by
    decide +kernel
  obtain ⟨hending, hopening⟩ := hall language h f hf escape he
  exact ⟨he, hending, hopening⟩

/-- A small language with two forms of strings: in one, an escape of two characters begins with what
ends the string; in the other one, three characters end it. -/
def Lexicon.escaping : Lexicon where
  symbols := "[a-z]+"
  numbers := "[0-9]+"
  strings :=
    [{ opening := "'", escape := some "'!" }, { opening := "\"\"\"", escape := some "\\" }]

namespace RuleTable

/-- **Escaped characters are content.**  Where the content of a string goes on with its escape and
another character, these are one token of content, and the string goes on.  So the content of a
string without templates ends where its ending text is first met from left to right, escapes and the
characters behind them apart, and is read to the end of the source if it is not met.  The escapes of
the built-in languages are such. -/
theorem reads_escapes :
    (∀ language ∈ LanguageEntry.all, ∀ f ∈ language.grammar.lexicon.strings,
      ∀ escape, f.escape = some escape → f.Escapes escape) ∧
    ∀ l table, ofLexicon l = .ok table → ∀ i f escape, l.strings[i]? = some f →
      f.Escapes escape → ∀ s : Scan, s.state = .string i →
        (∀ c rest, s.place.after = escape.toList ++ c :: rest → ∃ s',
          table.step? s = some ([.make .stringValue (escape.push c) s.pos], s') ∧
            s'.entered = s.entered ∧ s'.place.after = rest) ∧
        (f.templates = [] → table.ReadsContent f.ending s
          (cutContent escape.toList f.ending.toList s.place.after)) := by
  refine ⟨fun _ h _ hf _ he => StringForm.escapes_of_builtin h hf he, ?_⟩
  intro l table h i f escape hf he s hs
  refine ⟨fun c rest hp => ?_, fun ht => readsContent h hf he ht hs rfl⟩
  obtain ⟨r, q, hfirst, hk, ha, hq⟩ := first?_of_pair h hf he hp
  rw [← hs] at hfirst
  have hstep := step?_of_value hfirst hk ha (by simp) hq
  rw [← String.toList_push, String.ofList_toList] at hstep
  have hafter := (Place.after_of_skip? hq).symm.trans hp
  rw [List.append_assoc, List.append_cancel_left_eq] at hafter
  exact ⟨_, hstep, rfl, (List.cons.inj hafter).2⟩

/-- In `a'!''b` the second quote ends the string, and the first one does not; in `\\"x` nothing ends
the string. -/
theorem reads_escapes_escaping :
    ∃ table, ofLexicon .escaping = .ok table ∧
      cutContent "'!".toList "'".toList "a'!''b".toList =
        (["a", "'!'"].map String.toList, some "b".toList) ∧
      table.ReadsContent "'" ⟨.start "a'!''b".toList, {}, [.string 0]⟩
        (["a", "'!'"].map String.toList, some "b".toList) ∧
      table.ReadsContent "\"\"\"" ⟨.start "\\\"x".toList, {}, [.string 1]⟩
        (["\\\"", "x"].map String.toList, none) := by
  have accepted : (fun _ => ()) <$> ofLexicon .escaping = .ok () := by decide +kernel
  obtain ⟨table, h, -⟩ := map_eq_ok_iff.mp accepted
  have hcut : cutContent "'!".toList "'".toList "a'!''b".toList =
      (["a", "'!'"].map String.toList, some "b".toList) := by decide +kernel
  have hcut' : cutContent "\\".toList "\"\"\"".toList "\\\"x".toList =
      (["\\\"", "x"].map String.toList, none) := by decide +kernel
  have hreads := (reads_escapes.2 .escaping table h 0 _ "'!" rfl ⟨rfl, by decide, nofun⟩
    ⟨.start "a'!''b".toList, {}, [.string 0]⟩ rfl).2 rfl
  have hreads' := (reads_escapes.2 .escaping table h 1 _ "\\" rfl ⟨rfl, by decide, nofun⟩
    ⟨.start "\\\"x".toList, {}, [.string 1]⟩ rfl).2 rfl
  exact ⟨table, h, hcut, hcut ▸ hreads, hcut' ▸ hreads'⟩

end RuleTable

end Nesting
