import Nesting.Proofs.Query.Search

/-! # The loops of a query end

Three kinds of steps run a loop: a sequence goes forward and back over its steps, a repetition
makes rounds, and a search walks over a tree.  Each loop is given here as a relation without a
bound on its turns (`Advanced`, `Rounds`, and `Walked` for a search), so that a derivation is a
run of it that ends.

The matches of a step are finitely many, so a sequence comes to an end.  A round only keeps
matches that consumed something, and `Checkpoint.room` falls with each of them, so a repetition
without a maximum comes to an end too.  `Matcher.Halts` says that this is so for all loops in a
step, and holds of every query that compiles (`Query.stream_progresses`). -/

namespace Nesting

/-! ### Room -/

namespace Checkpoint

variable {κ : Type}

/-- How much of its level lies ahead of a checkpoint. -/
def room (c : Checkpoint κ) : ℕ := c.cursor.after.length + if c.endOfLevel then 0 else 1

theorem Precedes.room_lt {c d : Checkpoint κ} (h : c.Precedes d) (hconsumed : d.consumedSince c) :
    d.room < c.room := by
  have hrank := h.consumedSince_iff.mp hconsumed
  rw [rank, rank, Prod.Lex.toLex_lt_toLex] at hrank
  obtain ⟨n, hn⟩ := h.sibling
  unfold room
  cases n with
  | zero =>
      have hcursor : d.cursor = c.cursor := (Option.some.inj hn).symm
      rw [hcursor] at hrank ⊢
      rcases hrank with hindex | ⟨-, hend⟩
      · exact absurd hindex (Nat.lt_irrefl _)
      · have hend : c.endOfLevel < d.endOfLevel := hend
        obtain ⟨hc, hd⟩ := Bool.lt_iff.mp hend
        rw [hc, hd]
        exact Nat.lt_succ_self _
  | succ n =>
      have hafter := Cursor.length_after_child hn
      have hc : c.endOfLevel = false := by
        by_contra hc
        rw [(h.stays (Bool.eq_true_of_not_eq_false hc)).1] at hafter
        omega
      have hd : (if d.endOfLevel then 0 else 1) ≤ 1 := by split <;> omega
      rw [hc, hafter, if_neg Bool.false_ne_true]
      omega

end Checkpoint

namespace Matcher

variable {κ : Type}

/-! ### Repetitions -/

/-- The loop of a repetition, which makes rounds from some checkpoints on. -/
inductive Rounds (m : Matcher κ) : Option ℕ → List (Checkpoint κ) →
    List Event × List (List (Checkpoint κ)) → Prop
  /-- The maximum is reached. -/
  | enough {origins} : Rounds m (some 0) origins ([], [])
  /-- Nothing more is consumed. -/
  | dry {most origins} : most ≠ some 0 → (round m origins).2 = [] →
      Rounds m most origins ((round m origins).1, [])
  /-- A round reaches something. -/
  | next {most origins r} : most ≠ some 0 → (round m origins).2 ≠ [] →
      Rounds m (most.map (· - 1)) (round m origins).2 r →
      Rounds m most origins ((round m origins).1 ++ r.1, (round m origins).2 :: r.2)

/-- A repetition ends of its own accord before as many rounds as there is room. -/
theorem rounds_end {m : Matcher κ} (hm : m.Advances) {fuel : ℕ} {most : Option ℕ}
    {origins : List (Checkpoint κ)} (hfuel : 0 < fuel) (h : ∀ o ∈ origins, o.room < fuel) :
    Rounds m most origins (rounds m fuel most origins) := by
  induction fuel, most, origins using rounds.induct m with
  | case1 => cases hfuel
  | case2 => exact .enough
  | case3 fuel most origins hmost log reached hround hempty =>
      have hdry : (round m origins).2 = [] := by
        rw [hround]
        exact List.isEmpty_iff.mp hempty
      have hrounds : rounds m (fuel + 1) most origins = ((round m origins).1, []) := by
        simp [rounds, hround, hempty]
      rw [hrounds]
      exact .dry hmost hdry
  | case4 fuel most origins hmost log reached hround hreached later more hlater ih =>
      have hne : (round m origins).2 ≠ [] := by
        rw [hround]
        exact fun h => hreached (List.isEmpty_iff.mpr h)
      have hroom : ∀ d ∈ reached, d.room < fuel := by
        intro d hd
        rw [show reached = (round m origins).2 by rw [hround]] at hd
        obtain ⟨o, ho, hd, hconsumed⟩ := mem_round_iff.mp hd
        have hlt := (hm o d hd).room_lt hconsumed
        have := h o ho
        omega
      have hpos : 0 < fuel := by
        rw [hround] at hne
        obtain ⟨d, hd⟩ := List.exists_mem_of_ne_nil _ hne
        exact Nat.lt_of_le_of_lt (Nat.zero_le _) (hroom d hd)
      have hrounds : rounds m (fuel + 1) most origins = ((round m origins).1 ++
          (rounds m fuel (most.map (· - 1)) reached).1, (round m origins).2 ::
          (rounds m fuel (most.map (· - 1)) reached).2) := by
        rw [rounds, hround]
        · dsimp only
          rw [if_neg hreached]
        · exact hmost
      have hreach : (round m origins).2 = reached := by rw [hround]
      rw [hrounds]
      exact .next hmost hne (hreach ▸ ih hpos hroom)

theorem rounds_repetition {m : Matcher κ} (hm : m.Advances) (most : Option ℕ) (c : Checkpoint κ) :
    Rounds m most [c] (rounds m (c.cursor.after.length + 2) most [c]) := by
  refine rounds_end hm (Nat.succ_pos _) fun o ho => ?_
  obtain rfl := List.mem_singleton.mp ho
  have : (if o.endOfLevel then 0 else 1) ≤ 1 := by split <;> omega
  unfold Checkpoint.room
  omega

/-! ### Sequences -/

mutual

/-- The loop of a sequence, when it goes forward over the steps that are left. -/
inductive Advanced : List (Matcher κ) → List (Passed κ) → Checkpoint κ → Matches κ → Prop
  /-- All steps are passed; the loop goes back when another match is asked for. -/
  | done {stack c rest} : Backtracked stack (rest ()) → Advanced [] stack c (.more [] c rest)
  | step {m todo stack c r} : Settled todo stack (m c) r → Advanced (m :: todo) stack c r

/-- The loop of a sequence, when a step has given its matches. -/
inductive Settled : List (Matcher κ) → List (Passed κ) → Matches κ → Matches κ → Prop
  | none {todo stack log r} : Backtracked stack r → Settled todo stack (.none log) (r.report log)
  | last {todo stack log d r} : Advanced todo ({ rest := none, todo } :: stack) d r →
      Settled todo stack (.last log d) (r.report log)
  | more {todo stack log d rest r} : Advanced todo ({ rest := some rest, todo } :: stack) d r →
      Settled todo stack (.more log d rest) (r.report log)

/-- The loop of a sequence, when it goes back over the steps that were passed. -/
inductive Backtracked : List (Passed κ) → Matches κ → Prop
  /-- No step has another match. -/
  | over : Backtracked [] (.none [])
  | drop {todo stack r} : Backtracked stack r →
      Backtracked ({ rest := none, todo } :: stack) r
  | ask {rest todo stack r} : Settled todo stack (rest ()) r →
      Backtracked ({ rest := some rest, todo } :: stack) (r.report [.backtrack stack.length])

end

/-- A sequence ends on the way to each of its matches. -/
theorem advanced_settled_backtracked :
    (∀ (todo : List (Matcher κ)) (stack : List (Passed κ)) (c : Checkpoint κ),
      Advanced todo stack c (advance todo stack c)) ∧
    (∀ (todo : List (Matcher κ)) (stack : List (Passed κ)) (found : Matches κ),
      Settled todo stack found (settle todo stack found)) ∧
    ∀ stack : List (Passed κ), Backtracked stack (backtrack stack) := by
  apply advance.mutual_induct
  case case1 =>
    intro stack c ih
    rw [advance]
    exact .done ih
  case case2 =>
    intro m todo stack c ih
    rw [advance]
    exact .step ih
  case case3 =>
    intro todo stack log ih
    rw [settle]
    exact .none ih
  case case4 =>
    intro todo stack log d ih
    rw [settle]
    exact .last ih
  case case5 =>
    intro todo stack log d rest ih
    rw [settle]
    exact .more ih
  case case6 =>
    rw [backtrack]
    exact .over
  case case7 =>
    intro todo stack ih
    rw [backtrack]
    exact .drop ih
  case case8 =>
    intro rest todo stack ih
    rw [backtrack]
    exact .ask ih

/-! ### All loops -/

/-- The loops of a step end, wherever it starts, and so do those of the steps that it is made
of. -/
inductive Halts : Matcher κ → Prop
  | token (kind test handler) : Halts (token kind test handler)
  | levelStart : Halts levelStart
  | levelEnd : Halts levelEnd
  | act (handler) : Halts (act handler)
  | sequence {ms} : (∀ m ∈ ms, Halts m) → (∀ c, Advanced ms [] c (sequence ms c)) →
      Halts (sequence ms)
  | alternatives {ms} : (∀ m ∈ ms, Halts m) → Halts (alternatives ms)
  | repetition {m} (least most) : Halts m →
      (∀ c, Rounds m most [c] (rounds m (c.cursor.after.length + 2) most [c])) →
      Halts (repetition m least most)
  | tree (test limits handlers) : Halts (tree test limits none handlers)
  | treeSearch {m} (test limits handlers) : Halts m →
      (∀ root context, Walked m limits root.depth (nextInOrder limits root.depth root) 0 context
        (walk m limits root.depth root.node.size (nextInOrder limits root.depth root) 0
          context)) →
      Halts (tree test limits (some m) handlers)
  | string (test handler) : Halts (string test handler)
  | pieces {ps} (handlers) : (∀ m, .template m ∈ ps → Halts m) → Halts (pieces ps handlers)

theorem Built.halts {m : Matcher κ} (h : Built m) : Halts m := by
  induction h with
  | token kind test handler => exact .token kind test handler
  | levelStart => exact .levelStart
  | levelEnd => exact .levelEnd
  | act handler => exact .act handler
  | sequence _ ih => exact .sequence ih (advanced_settled_backtracked.1 _ [])
  | alternatives _ ih => exact .alternatives ih
  | repetition least most hm ih =>
      exact .repetition least most ih (rounds_repetition hm.advances most)
  | tree test limits handlers => exact .tree test limits handlers
  | treeSearch test limits handlers hm ih =>
      exact .treeSearch test limits handlers ih (walked_search hm.advances limits)
  | string test handler => exact .string test handler
  | pieces handlers _ ih => exact .pieces handlers ih

end Matcher

namespace Query

variable {κ : Type} {q : Query κ} {m : Matcher κ}

/-- A query that compiles for a position compiles for whole trees. -/
theorem exists_compile (h : q.build = .ok m) : ∃ whole, q.compile = .ok whole := by
  unfold compile
  split
  · exact ⟨m, h⟩
  · obtain ⟨ms, hms, -⟩ := map_eq_ok_iff.mp h
    have hstep :
        Step.compile (.tree { kind := some .root } { depth := 0, count := 0 } (some q) {}) =
        .ok (Matcher.tree { kind := some .root } { depth := 0, count := 0 }
          (some (Matcher.ofSteps ms)) {}) := by
      rw [Step.compile, hms]
      rfl
    exact ⟨_, build_singleton.trans hstep⟩

/-- **Matches go forward, and all loops end.**  Every match of a query that compiles is on the level
that it starts on.  Its rank is not below the one there, and above it exactly if something was
consumed, and it newly ends a level only on the last sibling.  So all loops in the query end
wherever they start, and those of the query for whole trees do. -/
theorem stream_progresses (h : q.build = .ok m) :
    (∀ c, ∀ d ∈ (m c).all,
      (∃ n, Cursor.follow?.child n c.cursor = some d.cursor) ∧ c.rank ≤ d.rank ∧
      (d.endOfLevel → c.endOfLevel = false → d.cursor.right = none) ∧
      (d.consumedSince c ↔ c.rank < d.rank)) ∧
    m.Halts ∧ ∃ whole, q.compile = .ok whole ∧ whole.Halts := by
  have hbuilt := built_of_build h
  refine ⟨fun c d hd => ?_, hbuilt.halts, ?_⟩
  · have hprecedes := hbuilt.advances c d hd
    exact ⟨hprecedes.sibling, hprecedes.rank_le, hprecedes.last, hprecedes.consumedSince_iff⟩
  · obtain ⟨whole, hwhole⟩ := exists_compile h
    exact ⟨whole, hwhole, (built_of_compile hwhole).halts⟩

/-- Any number of runs of symbols, where a run may be empty. -/
def runsOfSymbols : Query Unit := [.many [.many [.token .symbol .any none] 0 none] 0 none]

/-- Two symbols that are a whole level. -/
def twoSymbols : Node :=
  .tree .root none none [.token (.make .symbol "x" {}), .token (.make .symbol "y" { offset := 1 })]

/-- Both symbols, as one run and as two, then the first one, and then none. -/
theorem stream_progresses_runsOfSymbols :
    ∃ (m : Matcher Unit) (c : Cursor),
      runsOfSymbols.build = .ok m ∧ (Cursor.top twoSymbols 0).down = some c ∧ m.Halts ∧
      ((m (.start c ())).all.map fun d => (ofLex d.rank, d.consumedSince (.start c ()))) =
        [((1, true), true), ((1, true), true), ((1, false), true), ((0, false), false)] ∧
      ∀ d ∈ (m (.start c ())).all, d.consumedSince (.start c ()) ↔ toLex (0, false) < d.rank := by
  obtain ⟨m, c, hm, hc, hrank, hstream⟩ : ∃ (m : Matcher Unit) (c : Cursor),
      runsOfSymbols.build = .ok m ∧ (Cursor.top twoSymbols 0).down = some c ∧
      (Checkpoint.start c ()).rank = toLex (0, false) ∧
      ((m (.start c ())).all.map fun d => (ofLex d.rank, d.consumedSince (.start c ()))) =
        [((1, true), true), ((1, true), true), ((1, false), true), ((0, false), false)] :=
    ⟨_, _, rfl, rfl, rfl, by decide +kernel⟩
  obtain ⟨hprogress, hhalts, -⟩ := stream_progresses hm
  refine ⟨m, c, hm, hc, hhalts, hstream, fun d hd => ?_⟩
  rw [← hrank]
  exact (hprogress _ d hd).2.2.2

end Query

end Nesting
