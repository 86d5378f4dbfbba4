import Nesting.Lexer.Tokenize
import Nesting.Proofs.Lexer.Table
import Nesting.Proofs.Regex.Ends
import Nesting.Proofs.Text.Position

/-! # One step of the lexer

`RuleTable.Reads` says what a step of the lexer does: it takes some text, never the empty one, by
a rule of the state, or one character if no rule matches, and moves the place, the position and
the entered states along.  Every step of a table that was built reads in this way
(`RuleTable.reads_of_step?`), and there is a step wherever there is text
(`RuleTable.exists_step?`). -/

namespace Nesting

/-! ### Matches -/

namespace Rule

variable {α : Type}

/-- A match goes over some text. -/
theorem skip?_of_end? {r : Rule α} (hr : r.Advances) {p q : Place} (h : r.end? p = some q) :
    ∃ cs, cs ≠ [] ∧ p.skip? cs = some q := by
  unfold end? at h
  split at h
  · next text hrec =>
    refine ⟨text.toList, fun he => hr ?_, h⟩
    rw [hrec, String.toList_eq_nil_iff.mp he]
  · next regex _ =>
    split at h
    · next q' hq' =>
      split at h
      · next hlt =>
        cases h
        obtain ⟨cs, hcs⟩ := Regex.ahead_of_mem_ends regex p q (List.mem_of_head? hq')
        refine ⟨cs, ?_, hcs⟩
        rintro rfl
        cases hcs
        exact absurd hlt (Nat.lt_irrefl _)
      · cases h
    · cases h
  · obtain ⟨⟨c, q'⟩, hq', rfl⟩ := Option.map_eq_some_iff.mp h
    exact ⟨[c], List.cons_ne_nil c [], Place.skip?_of_next? hq'⟩

theorem mem_of_first? {rules : List (Rule α)} {p q : Place} {r : Rule α}
    (h : first? rules p = some (r, q)) : r ∈ rules ∧ r.end? p = some q := by
  obtain ⟨r', hr', h⟩ := List.exists_of_findSome?_eq_some h
  obtain ⟨q', hq', he⟩ := Option.map_eq_some_iff.mp h
  cases he
  exact ⟨hr', hq'⟩

/-- The next token is read by a rule, or is a character of unknown text. -/
theorem next?_cases {rules : List (Rule α)} (hrules : ∀ r ∈ rules, r.Advances) {p q : Place}
    {pos : Position} {t : Token} {rule : Option (Rule α)}
    (h : next? rules p pos = some (t, q, rule)) :
    ∃ cs, cs ≠ [] ∧ p.skip? cs = some q ∧
      ((∃ r ∈ rules, rule = some r ∧ t = .make r.kind (String.ofList cs) pos) ∨
        (rule = none ∧ t = .make .unknown (String.ofList cs) pos)) := by
  rw [next?] at h
  split at h
  · next r q' hfirst =>
    cases h
    obtain ⟨hr, hend⟩ := mem_of_first? hfirst
    obtain ⟨cs, hne, hcs⟩ := skip?_of_end? (hrules r hr) hend
    refine ⟨cs, hne, hcs, .inl ⟨r, hr, rfl, ?_⟩⟩
    rw [tokenBetween, Place.textUntil_eq hcs]
  · obtain ⟨⟨c, q'⟩, hq', he⟩ := Option.map_eq_some_iff.mp h
    cases he
    have hcs := Place.skip?_of_next? hq'
    refine ⟨[c], List.cons_ne_nil c [], hcs, .inr ⟨rfl, ?_⟩⟩
    rw [tokenBetween, Place.textUntil_eq hcs]

theorem next?_ne_none {rules : List (Rule α)} {p : Place} (hp : p.after ≠ []) (pos : Position) :
    next? rules p pos ≠ none := by
  rw [next?]
  split
  · exact Option.some_ne_none _
  · obtain ⟨c, cs, hcs⟩ := List.exists_cons_of_ne_nil hp
    rw [Place.next?_of_after hcs]
    exact Option.some_ne_none _

end Rule

/-! ### Steps -/

namespace RuleTable

variable {l : Lexicon} {table : RuleTable}

/-- What a step does: the tokens that it makes and the scan after it. -/
inductive Reads (table : RuleTable) (s : Scan) : List Token → Scan → Prop
  /-- Takes the text that a rule of the state matches. -/
  | rule {r cs q} : r ∈ table.rulesOf s.state → cs ≠ [] → s.place.skip? cs = some q →
      Reads table s (r.action.tokens (.make r.kind (String.ofList cs) s.pos))
        { place := q, pos := s.pos.advance cs, entered := table.follow s.entered r.action }
  /-- Takes text that no rule matches. -/
  | unknown {cs q} : cs ≠ [] → s.place.skip? cs = some q →
      Reads table s [.make .unknown (String.ofList cs) s.pos]
        { place := q, pos := s.pos.advance cs, entered := s.entered }

theorem advances_of_mem (h : ofLexicon l = .ok table) {state : LexState} :
    ∀ r ∈ table.rulesOf state, r.Advances :=
  fun _ hr => (hasRule_of_mem h hr).advances (accepted_of_ofLexicon h)

theorem reads_of_step? (h : ofLexicon l = .ok table) {s s' : Scan} {ts : List Token}
    (hstep : table.step? s = some (ts, s')) : table.Reads s ts s' := by
  rw [step?] at hstep
  split at hstep
  · cases hstep
  · split at hstep
    · cases hstep
    · next t q rule hnext =>
      obtain ⟨cs, hne, hcs, ⟨r, hr, rfl, rfl⟩ | ⟨rfl, rfl⟩⟩ :=
        Rule.next?_cases (advances_of_mem h) hnext
      · rw [Token.endPosition_make] at hstep
        cases hstep
        exact .rule hr hne hcs
      · rw [Token.endPosition_make] at hstep
        cases hstep
        exact .unknown hne hcs

theorem exists_step? (table : RuleTable) {s : Scan} (hs : s.place.after ≠ []) :
    ∃ ts s', table.step? s = some (ts, s') := by
  rw [step?, if_neg (by simpa using hs)]
  split
  · next hnext => exact absurd hnext (Rule.next?_ne_none hs _)
  · split <;> exact ⟨_, _, rfl⟩

theorem step?_eq_none {s : Scan} (hs : s.place.after = []) : table.step? s = none := by
  rw [step?, if_pos (by simpa using hs)]

/-- The first rule that matches makes the step. -/
theorem step?_of_first? {s : Scan} {r : StateRule} {cs : List Char} {q : Place}
    (hfirst : Rule.first? (table.rulesOf s.state) s.place = some (r, q)) (hne : cs ≠ [])
    (hcs : s.place.skip? cs = some q) :
    table.step? s = some (r.action.tokens (.make r.kind (String.ofList cs) s.pos),
      { place := q, pos := s.pos.advance cs, entered := table.follow s.entered r.action }) := by
  have hafter : s.place.after ≠ [] := by
    rw [Place.after_of_skip? hcs]
    exact List.append_ne_nil_of_left_ne_nil hne _
  rw [step?, if_neg (by simpa using hafter), Rule.next?, hfirst]
  simp only [tokenBetween, Place.textUntil_eq hcs, Token.endPosition_make]

theorem Reads.skip? {s s' : Scan} {ts : List Token} (h : table.Reads s ts s') :
    ∃ cs, cs ≠ [] ∧ s.place.skip? cs = some s'.place ∧ s'.pos = s.pos.advance cs := by
  cases h with
  | rule _ hne hcs => exact ⟨_, hne, hcs, rfl⟩
  | unknown hne hcs => exact ⟨_, hne, hcs, rfl⟩

theorem Reads.length_lt {s s' : Scan} {ts : List Token} (h : table.Reads s ts s') :
    s'.place.after.length < s.place.after.length := by
  obtain ⟨cs, hne, hcs, -⟩ := h.skip?
  have := List.length_pos_iff.mpr hne
  rw [Place.after_of_skip? hcs, List.length_append]
  omega

/-! ### Runs -/

/-- What holds at the end of the text and goes back over every step holds of every run. -/
theorem scanFrom_induction (h : ofLexicon l = .ok table)
    {P : Scan → List (Token × LexState) → Prop}
    (done : ∀ s, s.place.after = [] → P s [])
    (step : ∀ s ts s' rest, table.Reads s ts s' → P s' rest → P s (ts.map (·, s'.state) ++ rest)) :
    ∀ (fuel : Nat) (s : Scan), s.place.after.length ≤ fuel → P s (table.scanFrom fuel s) := by
  intro fuel
  induction fuel with
  | zero =>
      intro s hs
      exact done s (List.length_eq_zero_iff.mp (Nat.le_zero.mp hs))
  | succ fuel ih =>
      intro s hs
      rw [scanFrom]
      by_cases hafter : s.place.after = []
      · rw [step?_eq_none hafter]
        exact done s hafter
      · obtain ⟨ts, s', hstep⟩ := exists_step? table hafter
        rw [hstep]
        have hreads := reads_of_step? h hstep
        have := hreads.length_lt
        exact step s ts s' _ hreads (ih s' (by omega))

end RuleTable

end Nesting
