import Nesting.Proofs.Lexer.LineRules
import Nesting.Proofs.Lexer.Tiling

/-! # Tokens and line endings

A lexicon of one line makes the same tokens of both spellings of a text, up to their own spelling,
but for blanks in front of a line ending and for line endings in strings
(`RuleTable.respells_tokenize`).

The lexer is followed along both texts at once (`Scan.Respelled`): where it takes one step in the
one text, it takes one or two in the other, and after them it is at the same place again
(`RuleTable.rejoins`). -/

namespace Nesting

/-! ### References -/

/-- The pieces of a text of one line are the same wherever it stands. -/
theorem respells_cutParts {rules : List PartRule} (hrules : ∀ r ∈ rules, r.Advances) (fuel : Nat)
    {p : Place} {pos pos' : Position} (hp : OnOneLine p.after) (hpos : pos.Beside pos') :
    Respells (cutParts rules fuel p pos) (cutParts rules fuel p pos') := by
  induction fuel generalizing p pos pos' with
  | zero => exact .nil
  | succ fuel ih =>
      rw [cutParts, cutParts]
      split
      · exact .nil
      · have piece {kind : TokenKind} {cs : List Char} {q : Place} (hcs : p.skip? cs = some q) :
            Respells (tokenBetween kind p q pos ::
                cutParts rules fuel q (tokenBetween kind p q pos).endPosition)
              (tokenBetween kind p q pos' ::
                cutParts rules fuel q (tokenBetween kind p q pos').endPosition) := by
          have hafter := Place.after_of_skip? hcs
          rw [hafter, OnOneLine, List.mem_append, List.mem_append, not_or, not_or] at hp
          rw [tokenBetween, tokenBetween, Place.textUntil_eq hcs, Token.endPosition_make,
            Token.endPosition_make]
          have htoken : (Token.make kind (String.ofList cs) pos).Respelled
              (Token.make kind (String.ofList (crlf cs)) pos') := respelled_make hp.1.1 hpos
          rw [crlf_eq_self hp.2.1] at htoken
          exact .token htoken (ih ⟨hp.1.2, hp.2.2⟩ (hpos.advance cs))
        unfold Rule.next?
        cases hfirst : Rule.first? rules p with
        | some found =>
            obtain ⟨r, q⟩ := found
            obtain ⟨hr, hend⟩ := Rule.mem_of_first? hfirst
            obtain ⟨cs, -, hcs⟩ := Rule.skip?_of_end? (hrules r hr) hend
            exact piece hcs
        | none =>
            cases hnext : p.next? with
            | none => exact .nil
            | some found => exact piece (Place.skip?_of_next? hnext)

theorem respells_cut {rules : List PartRule} (hrules : ∀ r ∈ rules, r.Advances)
    {kind : TokenKind} {cs : List Char} (hcs : OnOneLine cs) {pos pos' : Position}
    (hpos : pos.Beside pos') :
    Respells ((Token.make kind (String.ofList cs) pos).cut rules)
      ((Token.make kind (String.ofList cs) pos').cut rules) := by
  have hmarker : (Token.marker .templateEnd (pos.advance cs)).Respelled
      (Token.marker .templateEnd (pos'.advance cs)) :=
    @respelled_make .templateEnd [] List.not_mem_nil _ _ (hpos.advance cs)
  have hvalue (pos : Position) :
      (Token.make kind (String.ofList cs) pos).value.toList = cs := by
    rw [Token.make, String.toList_ofList]
  rw [Token.cut, Token.cut, hvalue, hvalue, Token.markerAfter, Token.markerAfter,
    Token.endPosition_make, Token.endPosition_make]
  exact (respells_cutParts hrules cs.length hcs hpos).append (.token hmarker .nil)

/-! ### Steps -/

theorem Token.merge_make (kind : TokenKind) (cs ds : List Char) (pos : Position) (pos' : Position) :
    (Token.make kind (String.ofList cs) pos).merge (.make kind (String.ofList ds) pos') =
      .make kind (String.ofList (cs ++ ds)) pos := by
  simp only [merge, make, String.toList_ofList, String.ofList_append, String.toList_append,
    List.count_append]

/-- The lexer is at the same place in both spellings. -/
structure Scan.Respelled (n : Nat) (s s' : Scan) : Prop where
  place : s'.place = s.place.withReturns n
  feeds : s.place.Feeds n
  pos : s.pos.Beside s'.pos
  entered : s'.entered = s.entered

theorem Scan.respelled_start {source : List Char} (h : '\r' ∉ source) :
    (Scan.start source).Respelled (source.count '\n') (.start (crlf source)) where
  place := (Place.withReturns_start source).symm
  feeds := ⟨h, Nat.le_refl _⟩
  pos := ⟨rfl, rfl⟩
  entered := rfl

namespace RuleTable

/-- From the same place in both spellings, the lexer makes the same tokens up to the next place that
is the same. -/
def Rejoins (table : RuleTable) (n : Nat) (s s' : Scan) : Prop :=
  ∃ readings readings' u u', table.Run s readings u ∧ table.Run s' readings' u' ∧
    Respells (Reading.all readings) (Reading.all readings') ∧ u.Respelled n u' ∧
    u.place.after.length < s.place.after.length

variable {l : Lexicon} {table : RuleTable} (hlines : l.OneLined) (h : ofLexicon l = .ok table)
  {n : Nat}
include hlines h

/-- The tokens of one match, which ends at the same place in both spellings. -/
theorem respells_tokens {state : LexState} {r : StateRule} (hr : r ∈ table.rulesOf state)
    {p q : Place} {cs : List Char} (hend : r.end? p = some q) (hcs : p.skip? cs = some q)
    (hp : p.Feeds n) {pos pos' : Position} (hpos : pos.Beside pos') :
    Respells (r.action.tokens (.make r.kind (String.ofList cs) pos))
      (r.action.tokens (.make r.kind (String.ofList (crlf cs)) pos')) := by
  have hafter := Place.after_of_skip? hcs
  have hfree := hp.free_of_skip? hcs
  have single (ha : ∀ t, r.action.tokens t = [t]) :
      Respells (r.action.tokens (.make r.kind (String.ofList cs) pos))
        (r.action.tokens (.make r.kind (String.ofList (crlf cs)) pos')) := by
    rw [ha, ha]
    exact .token (respelled_make hfree hpos) .nil
  cases hasRule_of_mem h hr with
  | code _ _ ha _ => exact single fun _ => by rw [ha]; rfl
  | content _ ha _ => exact single fun _ => by rw [ha]; rfl
  | enterString _ _ => exact single fun _ => rfl
  | leaveTemplate _ => exact single fun _ => rfl
  | enterTemplate _ => exact single fun _ => rfl
  | leaveString _ => exact single fun _ => rfl
  | @reference i j s r opening symbols operators symbol hs ht _ _ ha =>
      have hl := accepted_of_ofLexicon h
      have ht := hl.template_of_getElem? hs ht
      have hops := fun op hop => hl.operators_ne op (ht.declared _ _ _ rfl op hop)
      cases contentRule_of_mem hlines h rfl hr with
      | value _ _ _ hstay => rw [ha] at hstay; cases hstay
      | onLine honline =>
          -- A reference is a text of one line, so its pieces are the same.
          obtain ⟨w, hw, -, hskip⟩ := honline.exists_skip? hend
          obtain rfl := List.append_cancel_right
            ((Place.after_of_skip? hskip).symm.trans hafter)
          rw [crlf_eq_self hw.2, ha]
          exact respells_cut (fun _ => advances_of_mem_referenceRules ht.opening_ne hops) hw hpos

section step

variable {p q : Place} {pos pos' : Position} {entered : List LexState} {r : StateRule}
  {cs : List Char} (hstates : ∀ state ∈ entered, table.contains state) (hp : p.Feeds n)
  (hpos : pos.Beside pos')
  (hfirst : Rule.first? (table.rulesOf (Scan.state ⟨p, pos, entered⟩)) p = some (r, q))
  (hcs : p.skip? cs = some q) (hne : cs ≠ [])
include hp hpos hfirst hcs hne

/-- One match in both spellings. -/
theorem rejoins_same (hfirst' : Rule.first? (table.rulesOf (Scan.state ⟨p, pos, entered⟩))
      (p.withReturns n) = some (r, q.withReturns n)) :
    table.Rejoins n ⟨p, pos, entered⟩ ⟨p.withReturns n, pos', entered⟩ := by
  obtain ⟨hr, hend⟩ := Rule.mem_of_first? hfirst
  have hne' : crlf cs ≠ [] := fun he => hne <| by
    have hle := length_le_crlf cs
    rw [he] at hle
    exact List.length_eq_zero_iff.mp (Nat.le_zero.mp hle)
  have hstep := step?_of_first? (s := ⟨p, pos, entered⟩) hfirst hne hcs
  have hstep' := step?_of_first? (s := ⟨p.withReturns n, pos', entered⟩) hfirst' hne'
    (Place.skip?_withReturns hcs hp.count)
  refine ⟨_, _, _, _, .step .start hstep, .step .start hstep', ?_,
    ⟨rfl, hp.of_skip? hcs, Position.advance_crlf hpos cs, rfl⟩, (reads_of_step? h hstep).length_lt⟩
  simp only [List.nil_append, Reading.all_singleton]
  exact respells_tokens hlines h hr hend hcs hp hpos

include hstates

/-- Blanks and the newline behind them: in the other spelling, the blanks take its carriage
return. -/
theorem rejoins_blanks (hcode : (Scan.state ⟨p, pos, entered⟩).readsCode)
    (hk : r.kind = .whitespace) (ha : r.action = .stay) (hhead : q.after.head? = some '\n')
    (hfirst' : Rule.first? (table.rulesOf (Scan.state ⟨p, pos, entered⟩)) (p.withReturns n) =
      some (r, q.midway n)) :
    table.Rejoins n ⟨p, pos, entered⟩ ⟨p.withReturns n, pos', entered⟩ := by
  have hstate := contains_state h (s := ⟨p, pos, entered⟩) hstates
  have hq := hp.of_skip? hcs
  have hfree := hp.free_of_skip? hcs
  obtain ⟨rest, hafter⟩ := List.head?_eq_some_iff.mp hhead
  obtain ⟨m, hm, -⟩ := Place.exists_skip?_of_cons hafter
  obtain ⟨hreturn, hnewline⟩ := Place.skip?_midway hm hq
  have hblanks : (p.withReturns n).skip? (crlf cs ++ ['\r']) = some (q.midway n) := by
    rw [Place.skip?_append, Place.skip?_withReturns hcs hp.count]
    exact hreturn
  have hstep := step?_of_first? (s := ⟨p, pos, entered⟩) hfirst hne hcs
  have hstep' := step?_of_first? (s := ⟨p.withReturns n, pos', entered⟩) hfirst'
    (List.append_ne_nil_of_right_ne_nil _ (List.cons_ne_nil _ _)) hblanks
  rw [ha] at hstep hstep'
  have hlast := step?_of_first? (s := ⟨q, pos.advance cs, entered⟩)
    (first?_of_newline hlines h hstate hcode (LexRegex.firstEnd?_newline.mpr (.inl hm))
      (hafter ▸ endsLine_newline rest)) (List.cons_ne_nil _ _) hm
  have hlast' := step?_of_first? (s := ⟨q.midway n, pos'.advance (crlf cs ++ ['\r']), entered⟩)
    (first?_of_newline hlines h hstate hcode (LexRegex.firstEnd?_newline.mpr (.inl hnewline))
      (Place.after_midway hafter ▸ endsLine_newline _)) (List.cons_ne_nil _ _) hnewline
  refine ⟨_, _, _, _, .step (.step .start hstep) hlast, .step (.step .start hstep') hlast', ?_,
    ⟨rfl, hq.of_skip? hm, ?_, rfl⟩,
    (reads_of_step? h hlast).length_lt.trans (reads_of_step? h hstep).length_lt⟩
  · have hline : (pos'.advance (crlf cs ++ ['\r'])).line = (pos.advance cs).line := by
      rw [Position.advance_append]
      exact (Position.advance_crlf hpos cs).1
    have hfilter : (crlf cs ++ ['\r']).filter (· ≠ '\r') = cs := by
      rw [List.filter_append, filter_crlf hfree]
      exact List.append_nil cs
    exact .blank hk (withoutReturns_make hfilter hpos.1) rfl
      (@withoutReturns_make _ ['\n'] _ _ _ (by decide) hline) .nil
  · have hbeside := Position.advance_crlf hpos (cs ++ ['\n'])
    rw [crlf_append, Position.advance_append, show crlf ['\n'] = ['\r'] ++ ['\n'] from rfl,
      ← List.append_assoc, Position.advance_append] at hbeside
    exact hbeside

/-- A piece of content that ends with a line ending: in the other spelling, it stops in the middle
of it, and another piece is left. -/
theorem rejoins_half {ds : List Char} {m : Place}
    (hcontent : (Scan.state ⟨p, pos, entered⟩).readsCode = false) (hk : r.kind = .stringValue)
    (ha : r.action = .stay) (hds : p.skip? ds = some m) (hm : m.skip? ['\n'] = some q)
    (hfirst' : Rule.first? (table.rulesOf (Scan.state ⟨p, pos, entered⟩)) (p.withReturns n) =
      some (r, m.midway n)) :
    table.Rejoins n ⟨p, pos, entered⟩ ⟨p.withReturns n, pos', entered⟩ := by
  have hstate := contains_state h (s := ⟨p, pos, entered⟩) hstates
  have hmfeeds := hp.of_skip? hds
  have hsplit : ds ++ ['\n'] = cs := by
    have hafter := Place.after_of_skip? hds
    rw [Place.after_of_skip? hm, ← List.append_assoc] at hafter
    exact List.append_cancel_right (hafter.symm.trans (Place.after_of_skip? hcs))
  have hcrlf : crlf cs = crlf ds ++ ['\r'] ++ ['\n'] := by
    rw [← hsplit, crlf_append, List.append_assoc]
    rfl
  obtain ⟨hreturn, hnewline⟩ := Place.skip?_midway hm hmfeeds
  have hpiece : (p.withReturns n).skip? (crlf ds ++ ['\r']) = some (m.midway n) := by
    rw [Place.skip?_append, Place.skip?_withReturns hds hp.count]
    exact hreturn
  obtain ⟨r', hfirst₂, hk', ha'⟩ := first?_midway hlines h hstate hcontent hm hmfeeds
  have hstep := step?_of_first? (s := ⟨p, pos, entered⟩) hfirst hne hcs
  have hstep' := step?_of_first? (s := ⟨p.withReturns n, pos', entered⟩) hfirst'
    (List.append_ne_nil_of_right_ne_nil _ (List.cons_ne_nil _ _)) hpiece
  have hlast' := step?_of_first? (s := ⟨m.midway n, pos'.advance (crlf ds ++ ['\r']), entered⟩)
    hfirst₂ (List.cons_ne_nil _ _) hnewline
  rw [ha] at hstep hstep'
  rw [ha'] at hlast'
  refine ⟨_, _, _, _, .step .start hstep, .step (.step .start hstep') hlast', ?_,
    ⟨rfl, hp.of_skip? hcs, ?_, rfl⟩, (reads_of_step? h hstep).length_lt⟩
  · refine .value hk hk' ?_ .nil
    rw [hk, hk', Token.merge_make, ← hcrlf]
    exact respelled_make (hp.free_of_skip? hcs) hpos
  · have hbeside := Position.advance_crlf hpos cs
    rw [hcrlf, Position.advance_append] at hbeside
    exact hbeside

end step

/-- One step in the one spelling, and one or two in the other, but for two in both where blanks
stand in front of a line ending. -/
theorem rejoins {s s' : Scan} (hs : s.Respelled n s')
    (hstates : ∀ state ∈ s.entered, table.contains state) (hne : s.place.after ≠ []) :
    table.Rejoins n s s' := by
  obtain ⟨p, pos, entered⟩ := s
  obtain ⟨p', pos', entered'⟩ := s'
  obtain ⟨hplace, hp, hpos, hentered⟩ := hs
  dsimp only at hplace hp hpos hentered hstates hne
  subst p' entered'
  obtain ⟨r, q, q', hfirst, hfirst', hcarries⟩ :=
    exists_first? hlines h (contains_state h (s := ⟨p, pos, entered⟩) hstates) hp hne
  obtain ⟨hr, hend⟩ := Rule.mem_of_first? hfirst
  obtain ⟨cs, hcsne, hcs⟩ := Rule.skip?_of_end? (advances_of_mem h r hr) hend
  cases hcarries with
  | same => exact rejoins_same hlines h hp hpos hfirst hcs hcsne hfirst'
  | blanks hcode hk ha hhead =>
      exact rejoins_blanks hlines h hstates hp hpos hfirst hcs hcsne hcode hk ha hhead hfirst'
  | half hcontent hk ha hds hm =>
      exact rejoins_half hlines h hstates hp hpos hfirst hcs hcsne hcontent hk ha hds hm hfirst'

/-! ### Runs -/

/-- The tokens from one place on, in both spellings. -/
theorem respells_scanFrom {s s' : Scan} (hs : s.Respelled n s')
    (hstates : ∀ state ∈ s.entered, table.contains state) {fuel fuel' : Nat}
    (hfuel : s.place.after.length ≤ fuel) (hfuel' : s'.place.after.length ≤ fuel') :
    Respells ((table.scanFrom fuel s).map (·.1)) ((table.scanFrom fuel' s').map (·.1)) := by
  generalize hlength : s.place.after.length = length
  induction length using Nat.strongRecOn generalizing s s' fuel fuel' with
  | _ length ih =>
      by_cases hne : s.place.after = []
      · have hne' : s'.place.after = [] := by
          rw [hs.place]
          exact congrArg crlf hne
        have done {s : Scan} (hs : s.place.after = []) (fuel : Nat) :
            table.scanFrom fuel s = [] := by
          cases fuel with
          | zero => rfl
          | succ fuel => rw [scanFrom, step?_eq_none hs]
        rw [done hne, done hne']
        exact .nil
      · obtain ⟨readings, readings', u, u', hrun, hrun', hrespells, hu, hlt⟩ :=
          rejoins hlines h hs hstates hne
        obtain ⟨left, hleft, heq⟩ := hrun.exists_scanFrom h hfuel
        obtain ⟨left', hleft', heq'⟩ := hrun'.exists_scanFrom h hfuel'
        rw [heq, heq']
        exact hrespells.append
          (ih _ (hlength ▸ hlt) hu (hrun.contains_of_mem h hstates) hleft hleft' rfl)

theorem respells_tokenize {source : String} (hsource : '\r' ∉ source.toList) :
    Respells (table.tokenize source) (table.tokenize (withReturns source)) := by
  have hstart := Scan.respelled_start hsource
  have htokens := respells_scanFrom hlines h hstart (List.forall_mem_nil _)
    (Nat.le_refl source.toList.length) (Nat.le_refl (crlf source.toList).length)
  rw [tokenize, tokenize, scan, scan, withReturns, String.toList_ofList]
  exact htokens

end RuleTable

end Nesting
