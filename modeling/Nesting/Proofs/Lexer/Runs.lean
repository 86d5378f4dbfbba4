import Nesting.Proofs.Lexer.Step

/-! # Runs of the lexer

`RuleTable.Run` relates two points of a source by the steps of the lexer between them, without a
bound on their number.  The bound that the lexer itself runs with is never reached: its tokens are
those of a run to the end of the source (`RuleTable.exists_run_tokenize`).

A run stays in the states of its table (`RuleTable.Run.contains_state`), and it makes at most two
tokens for each character that it takes (`RuleTable.Run.length_tokens_le`). -/

namespace Nesting

/-- A step of a run: the scan at which it begins, and the tokens that it makes. -/
structure Reading where
  scan : Scan
  tokens : List Token

/-- The tokens of some steps. -/
def Reading.all (readings : List Reading) : List Token := readings.flatMap Reading.tokens

@[simp] theorem Reading.all_nil : Reading.all [] = [] := rfl

@[simp] theorem Reading.all_append (rs us : List Reading) :
    Reading.all (rs ++ us) = Reading.all rs ++ Reading.all us := List.flatMap_append

@[simp] theorem Reading.all_singleton (r : Reading) : Reading.all [r] = r.tokens :=
  List.append_nil _

namespace RuleTable

variable {l : Lexicon} {table : RuleTable}

/-- The steps from one scan to a later one. -/
inductive Run (table : RuleTable) (s : Scan) : List Reading → Scan → Prop
  | start : Run table s [] s
  | step {readings s' ts s''} : Run table s readings s' → table.step? s' = some (ts, s'') →
      Run table s (readings ++ [⟨s', ts⟩]) s''

theorem Run.cons {s s' s'' : Scan} {ts : List Token} {readings : List Reading}
    (hstep : table.step? s = some (ts, s')) (h : table.Run s' readings s'') :
    table.Run s (⟨s, ts⟩ :: readings) s'' := by
  induction h with
  | start => exact .step .start hstep
  | step _ hlast ih => exact .step ih hlast

/-! ### The end of a run -/

/-- A run goes on until no text is left. -/
theorem exists_run (h : ofLexicon l = .ok table) (fuel : Nat) (s : Scan)
    (hfuel : s.place.after.length ≤ fuel) :
    ∃ readings s', table.Run s readings s' ∧ s'.place.after = [] ∧
      Reading.all readings = (table.scanFrom fuel s).map (·.1) := by
  induction fuel generalizing s with
  | zero =>
      have hafter : s.place.after = [] := List.length_eq_zero_iff.mp (Nat.le_zero.mp hfuel)
      exact ⟨[], s, .start, hafter, rfl⟩
  | succ fuel ih =>
      by_cases hafter : s.place.after = []
      · refine ⟨[], s, .start, hafter, ?_⟩
        rw [scanFrom, step?_eq_none hafter]
        rfl
      · obtain ⟨ts, s', hstep⟩ := exists_step? table hafter
        have hlt := (reads_of_step? h hstep).length_lt
        obtain ⟨readings, s'', hrun, hend, htokens⟩ := ih s' (by omega)
        refine ⟨⟨s, ts⟩ :: readings, s'', .cons hstep hrun, hend, ?_⟩
        rw [scanFrom, hstep]
        have hmap : (ts.map (·, s'.state)).map (·.1) = ts := by
          rw [List.map_map]
          exact List.map_id ts
        rw [List.map_append, hmap, ← htokens]
        rfl

/-- Behind a run, the tokens are those from its end on. -/
theorem Run.exists_scanFrom (h : ofLexicon l = .ok table) {s s' : Scan} {readings : List Reading}
    (hrun : table.Run s readings s') {fuel : Nat} (hfuel : s.place.after.length ≤ fuel) :
    ∃ left, s'.place.after.length ≤ left ∧ (table.scanFrom fuel s).map (·.1) =
      Reading.all readings ++ (table.scanFrom left s').map (·.1) := by
  induction hrun with
  | start => exact ⟨fuel, hfuel, rfl⟩
  | @step readings s' ts s'' _ hstep ih =>
      obtain ⟨left, hleft, heq⟩ := ih
      have hlt := (reads_of_step? h hstep).length_lt
      cases left with
      | zero => omega
      | succ left =>
          have hmap : (ts.map (·, s''.state)).map (·.1) = ts := by
            rw [List.map_map]
            exact List.map_id ts
          refine ⟨left, by omega, ?_⟩
          rw [heq, scanFrom, hstep, Reading.all_append, Reading.all_singleton, List.append_assoc,
            List.map_append, hmap]

theorem exists_run_tokenize (h : ofLexicon l = .ok table) (source : String) :
    ∃ readings s, table.Run (.start source.toList) readings s ∧ s.place.after = [] ∧
      Reading.all readings = table.tokenize source :=
  exists_run h source.toList.length (.start source.toList) (Nat.le_refl _)

/-! ### States -/

theorem mem_states_of_contains {state : LexState} (h : table.contains state) :
    (state, table.rulesOf state) ∈ table.states := by
  obtain ⟨rules, hlook⟩ := Option.isSome_iff_exists.mp h
  obtain ⟨before, after, hstates, -⟩ := List.lookup_eq_some_iff.mp hlook
  rw [rulesOf, hlook, hstates]
  exact List.mem_append_right before List.mem_cons_self

theorem contains_root (h : ofLexicon l = .ok table) : table.contains .root := by
  obtain ⟨-, root, -, hstates⟩ := mem_states_iff h
  exact contains_of_mem ((hstates .root root).mpr (.inl ⟨rfl, rfl⟩))

theorem contains_of_mem_follow {entered : List LexState}
    (hentered : ∀ state ∈ entered, table.contains state) (action : Transition LexState) :
    ∀ state ∈ table.follow entered action, table.contains state := by
  cases action with
  | stay => exact hentered
  | split parts => exact hentered
  | pop => exact fun state hstate => hentered state (List.mem_of_mem_tail hstate)
  | push target =>
      rw [follow]
      split
      · next htarget => exact List.forall_mem_cons.mpr ⟨htarget, hentered⟩
      · exact hentered

/-- A run enters states of the table only. -/
theorem Run.contains_of_mem {s s' : Scan} {readings : List Reading}
    (h : ofLexicon l = .ok table) (hrun : table.Run s readings s')
    (hs : ∀ state ∈ s.entered, table.contains state) :
    ∀ state ∈ s'.entered, table.contains state := by
  induction hrun with
  | start => exact hs
  | step _ hstep ih =>
      cases reads_of_step? h hstep with
      | rule _ _ _ => exact contains_of_mem_follow ih _
      | unknown _ _ => exact ih

theorem contains_state (h : ofLexicon l = .ok table) {s : Scan}
    (hs : ∀ state ∈ s.entered, table.contains state) : table.contains s.state := by
  unfold Scan.state
  cases he : s.entered with
  | nil => exact contains_root h
  | cons state outer => exact hs state (he ▸ List.mem_cons_self)

theorem Run.contains_state {source : List Char} {s : Scan} {readings : List Reading}
    (h : ofLexicon l = .ok table) (hrun : table.Run (.start source) readings s) :
    table.contains s.state :=
  RuleTable.contains_state h (hrun.contains_of_mem h (by simp [Scan.start]))

/-! ### The number of tokens -/

theorem length_cutParts_le (rules : List PartRule) (fuel : Nat) (p : Place) (pos : Position) :
    (cutParts rules fuel p pos).length ≤ fuel := by
  induction fuel generalizing p pos with
  | zero => exact Nat.le_refl 0
  | succ fuel ih =>
      rw [cutParts]
      split
      · exact Nat.zero_le _
      · split
        · exact Nat.zero_le _
        · next t q _ _ =>
          have := ih q t.endPosition
          rw [List.length_cons]
          omega

theorem length_tokens_le (action : Transition LexState) (kind : TokenKind) (cs : List Char)
    (pos : Position) :
    (action.tokens (.make kind (String.ofList cs) pos)).length ≤ cs.length + 1 := by
  cases action with
  | split parts =>
      have hvalue : (Token.make kind (String.ofList cs) pos).value.toList = cs := by
        rw [Token.make, String.toList_ofList]
      have hparts := length_cutParts_le parts cs.length (.start cs) pos
      rw [Transition.tokens, Token.cut, hvalue, List.length_append, List.length_singleton]
      exact Nat.succ_le_succ hparts
  | _ => simp [Transition.tokens]

/-- A step makes at most two tokens for each character that it takes. -/
theorem Reads.length_tokens_le {s s' : Scan} {ts : List Token} (h : table.Reads s ts s') :
    ts.length + 2 * s'.place.after.length ≤ 2 * s.place.after.length := by
  cases h with
  | @rule r cs q _ hne hcs =>
      have hpos := List.length_pos_iff.mpr hne
      have htokens := RuleTable.length_tokens_le r.action r.kind cs s.pos
      have hafter := congrArg List.length (Place.after_of_skip? hcs)
      rw [List.length_append] at hafter
      show _ + 2 * q.after.length ≤ _
      omega
  | @unknown cs q hne hcs =>
      have hpos := List.length_pos_iff.mpr hne
      have hafter := congrArg List.length (Place.after_of_skip? hcs)
      rw [List.length_append] at hafter
      show 1 + 2 * q.after.length ≤ _
      omega

/-- A run makes at most two tokens for each character that it takes. -/
theorem Run.length_tokens_le {s s' : Scan} {readings : List Reading}
    (h : ofLexicon l = .ok table) (hrun : table.Run s readings s') :
    (Reading.all readings).length + 2 * s'.place.after.length ≤ 2 * s.place.after.length := by
  induction hrun with
  | start => simp
  | @step readings s' ts s'' _ hstep ih =>
      have hread := (reads_of_step? h hstep).length_tokens_le
      have htokens : Reading.all (readings ++ [⟨s', ts⟩]) = Reading.all readings ++ ts := by
        rw [Reading.all_append, Reading.all_singleton]
      rw [htokens, List.length_append]
      omega

end RuleTable

end Nesting
