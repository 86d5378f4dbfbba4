import Nesting.Proofs.Query.LineTexts
import Nesting.Proofs.Query.Simulation

/-! # Traces

Whatever a compiled query does, it closes what it has opened before it hands out a match
(`Matcher.Built.reports`): each way to combine steps puts complete logs one after the other, or
between the two lines of an attempt or of a search.  So the trace of a run is nested at every
verbosity, also where an alternative was abandoned or a search stopped by its limit
(`Query.traces_nest`). -/

namespace Nesting

/-! ### Logs -/

/-- Wherever these reports stand, their lines are nested, and they leave as many searches open as
there were. -/
def Balanced (m n : ℕ) (log : List Event) : Prop :=
  ∀ d, TraceStyle.depthAfter d log = d ∧ Nested d m n (TraceStyle.placed d log)

namespace Balanced

variable {k m n : ℕ} {log log' : List Event}

theorem nil : Balanced n n [] := fun _ => ⟨rfl, .nil⟩

theorem append (h : Balanced k m log) (h' : Balanced m n log') : Balanced k n (log ++ log') := by
  intro d
  rw [TraceStyle.depthAfter_append, TraceStyle.placed_append, (h d).1]
  exact ⟨(h' d).1, (h d).2.append (h' d).2⟩

theorem single {e : Event} (h : e.IsSingle) : Balanced n n [e] := by
  intro d
  cases h with
  | outcome hstep he => cases he <;> exact ⟨rfl, .single (.outcome hstep (by constructor)) .nil⟩
  | backtrack => exact ⟨rfl, .single (.backtrack _) .nil⟩
  | searchVisit => exact ⟨rfl, .single (.searchVisit _ _) .nil⟩

theorem outcome {step : String} {e : Event} (hstep : StepName step) (he : e.IsOutcome step) :
    Balanced n n [e] := single (.outcome hstep he)

theorem found : Balanced n (n + 1) [.searchMatch (n + 1)] := fun _ => ⟨rfl, .found .nil⟩

theorem attempt {step : String} {node : Node} {e : Event} (hstep : StepName step)
    (h : Balanced n n log) (he : e.IsOutcome step) :
    Balanced n n (.enter step node :: log ++ [e]) := by
  intro d
  have hplaced : TraceStyle.placed d (.enter step node :: log ++ [e]) =
      ⟨d, .enter step node⟩ :: (TraceStyle.placed d log ++ ⟨d, e⟩ :: []) := by
    rw [List.cons_append, TraceStyle.placed, TraceStyle.placed_append]
    rw [show (TraceStyle.depths d (.enter step node)).2 = d from rfl, (h d).1]
    cases he <;> rfl
  constructor
  · rw [TraceStyle.depthAfter_append]
    rw [show TraceStyle.depthAfter d (.enter step node :: log) = d from (h d).1]
    cases he <;> rfl
  · rw [hplaced]
    exact .attempt hstep (h d).2 he .nil

theorem search {kind : TreeKind} (h : Balanced 0 k log) :
    Balanced n n (.searchEnter kind :: log ++ [.searchExit k]) := by
  intro d
  have hplaced : TraceStyle.placed d (.searchEnter kind :: log ++ [.searchExit k]) =
      ⟨d, .searchEnter kind⟩ :: (TraceStyle.placed (d + 1) log ++ ⟨d, .searchExit k⟩ :: []) := by
    rw [List.cons_append, TraceStyle.placed, TraceStyle.placed_append]
    rw [show (TraceStyle.depths d (.searchEnter kind)).2 = d + 1 from rfl, (h (d + 1)).1]
    rfl
  constructor
  · rw [TraceStyle.depthAfter_append]
    rw [show TraceStyle.depthAfter d (.searchEnter kind :: log) = d + 1 from (h (d + 1)).1]
    rfl
  · rw [hplaced]
    exact .search (h (d + 1)).2 .nil

end Balanced

/-- Reports that are nested on their own and hold no match of a search around them. -/
def Complete (log : List Event) : Prop := ∀ n, Balanced n n log

theorem complete_nil : Complete [] := fun _ => .nil

theorem Complete.append {log log' : List Event} (h : Complete log) (h' : Complete log') :
    Complete (log ++ log') := fun n => (h n).append (h' n)

theorem complete_outcome {step : String} {e : Event} (hstep : StepName step)
    (he : e.IsOutcome step) : Complete [e] := fun _ => .outcome hstep he

theorem Complete.attempt {step : String} {node : Node} {log : List Event} {e : Event}
    (hstep : StepName step) (h : Complete log) (he : e.IsOutcome step) :
    Complete (.enter step node :: log ++ [e]) := fun n => (h n).attempt hstep he

/-! ### Matches -/

namespace Matches

variable {κ : Type}

/-- The reports made on the way to each match are complete. -/
def Complete : Matches κ → Prop
  | none log => Nesting.Complete log
  | last log _ => Nesting.Complete log
  | more log _ rest => Nesting.Complete log ∧ (rest ()).Complete

theorem Complete.report {found : Matches κ} (h : found.Complete) {log : List Event}
    (hlog : Nesting.Complete log) : (found.report log).Complete := by
  cases found with
  | none => exact hlog.append h
  | last => exact hlog.append h
  | more => exact ⟨hlog.append h.1, h.2⟩

theorem Complete.firstLog {found : Matches κ} (h : found.Complete) :
    Nesting.Complete found.firstLog := by
  cases found with
  | none => exact h
  | last => exact h
  | more => exact h.1

theorem Complete.log {found : Matches κ} (h : found.Complete) : Nesting.Complete found.log := by
  induction found with
  | none => exact h
  | last => exact h
  | more l c rest ih => exact h.1.append (ih () h.2)

theorem complete_release {log : List Event} (h : Nesting.Complete log) (cs : List (Checkpoint κ)) :
    (release log cs).Complete := by
  induction cs generalizing log with
  | nil => exact h
  | cons c cs ih => exact ⟨h, ih complete_nil⟩

end Matches

/-! ### Steps -/

namespace Matcher

variable {κ : Type}

/-- A step closes what it opens before it hands out a match. -/
def Reports (m : Matcher κ) : Prop := ∀ c, (m c).Complete

theorem reports_token (kind : TokenKind) (test : ValueTest) (handler : Option (TokenHandler κ)) :
    (token kind test handler).Reports := by
  intro c
  have hstep := StepName.token kind
  have hattempt {node : Node} {e : Event} (he : e.IsOutcome (tokenStepName kind)) :
      Complete [.enter (tokenStepName kind) node, e] := complete_nil.attempt hstep he
  unfold token
  dsimp only
  split
  · exact complete_outcome hstep (.failure _)
  · split
    · split
      · exact hattempt (.success _)
      · exact hattempt (.failure _)
    · exact hattempt (.failure _)

theorem reports_levelStart : (levelStart : Matcher κ).Reports := by
  intro c
  unfold levelStart
  dsimp only
  split
  · exact complete_outcome .levelStart (.failure _)
  · split
    · exact complete_outcome .levelStart (.success _)
    · exact complete_outcome .levelStart (.failure _)

theorem reports_levelEnd : (levelEnd : Matcher κ).Reports := by
  intro c
  unfold levelEnd
  split
  · exact complete_nil
  · split
    · exact complete_outcome .levelEnd (.failure _)
    · dsimp only
      split
      · exact complete_outcome .levelEnd (.success _)
      · exact complete_outcome .levelEnd (.failure _)

theorem reports_act (handler : NodeHandler κ) : (act handler).Reports := fun _ => complete_nil

theorem reports_treeWith {name : String} (hname : StepName name) (accepts : Tree → Bool)
    (handlers : TreeHandlers κ) {inside : Tree → Cursor → κ → List Event × Option κ}
    (hinside : ∀ t c context, Complete (inside t c context).1) :
    (treeWith name accepts handlers inside).Reports := by
  intro c
  unfold treeWith
  split
  · exact complete_outcome hname (.failure _)
  · dsimp only
    split
    · exact complete_nil.attempt hname (.failure _)
    · split
      · split
        · exact (hinside _ _ _).attempt hname (.failure _)
        · exact (hinside _ _ _).attempt hname (.success _)
      · exact complete_nil.attempt hname (.failure _)

/-! ### Sequences and alternatives -/

/-- The steps after a passed one, and what it still has to give, report completely. -/
def Passed.Reports (p : Passed κ) : Prop :=
  (∀ m ∈ p.todo, m.Reports) ∧ ∀ rest ∈ p.rest, (rest ()).Complete

theorem complete_advance_backtrack :
    (∀ (todo : List (Matcher κ)) (stack : List (Passed κ)) (c : Checkpoint κ),
      (∀ m ∈ todo, m.Reports) → (∀ p ∈ stack, p.Reports) → (advance todo stack c).Complete) ∧
    (∀ (todo : List (Matcher κ)) (stack : List (Passed κ)) (found : Matches κ),
      (∀ m ∈ todo, m.Reports) → (∀ p ∈ stack, p.Reports) → found.Complete →
      (settle todo stack found).Complete) ∧
    ∀ stack : List (Passed κ), (∀ p ∈ stack, p.Reports) → (backtrack stack).Complete := by
  apply advance.mutual_induct
  case case1 =>
    intro stack c ih _ hstack
    rw [advance]
    exact ⟨complete_nil, ih hstack⟩
  case case2 =>
    intro m todo stack c ih htodo hstack
    obtain ⟨hm, htodo⟩ := List.forall_mem_cons.mp htodo
    rw [advance]
    exact ih htodo hstack (hm c)
  case case3 =>
    intro todo stack log ih _ hstack hfound
    rw [settle]
    exact (ih hstack).report hfound
  case case4 =>
    intro todo stack log d ih htodo hstack hfound
    rw [settle]
    have hpassed : Passed.Reports { rest := none, todo } :=
      ⟨htodo, fun _ h => absurd h (Option.not_mem_none _)⟩
    exact (ih htodo (List.forall_mem_cons.mpr ⟨hpassed, hstack⟩)).report hfound
  case case5 =>
    intro todo stack log d rest ih htodo hstack hfound
    have hpassed : Passed.Reports { rest := some rest, todo } :=
      ⟨htodo, fun r hr => Option.some.inj hr ▸ hfound.2⟩
    rw [settle]
    exact (ih htodo (List.forall_mem_cons.mpr ⟨hpassed, hstack⟩)).report hfound.1
  case case6 =>
    intro _
    rw [backtrack]
    exact complete_nil
  case case7 =>
    intro todo stack ih hstack
    rw [backtrack]
    exact ih (List.forall_mem_cons.mp hstack).2
  case case8 =>
    intro rest todo stack ih hstack
    obtain ⟨⟨htodo, hrest⟩, hstack⟩ := List.forall_mem_cons.mp hstack
    rw [backtrack]
    exact (ih htodo hstack (hrest rest rfl)).report fun _ => .single (.backtrack _)

theorem reports_sequence {ms : List (Matcher κ)} (h : ∀ m ∈ ms, m.Reports) :
    (sequence ms).Reports :=
  fun c => complete_advance_backtrack.1 ms [] c h (by simp)

theorem reports_alternatives {ms : List (Matcher κ)} (h : ∀ m ∈ ms, m.Reports) :
    (alternatives ms).Reports := by
  intro c
  induction ms with
  | nil => exact complete_nil
  | cons m ms ih =>
      obtain ⟨hm, hms⟩ := List.forall_mem_cons.mp h
      rw [alternatives]
      split
      · exact ⟨(hm c).firstLog, ih hms⟩
      · exact (ih hms).report (hm c).firstLog

/-! ### Repetitions -/

variable {m : Matcher κ}

theorem complete_round (hm : m.Reports) (origins : List (Checkpoint κ)) :
    Complete (round m origins).1 := by
  induction origins with
  | nil => exact complete_nil
  | cons c origins ih =>
      have hcons : (round m (c :: origins)).1 = (m c).log ++ (round m origins).1 := by
        simp [round, Matches.drain_eq]
      rw [hcons]
      exact (hm c).log.append ih

theorem complete_rounds (hm : m.Reports) (fuel : ℕ) (most : Option ℕ)
    (origins : List (Checkpoint κ)) : Complete (rounds m fuel most origins).1 := by
  induction fuel, most, origins using rounds.induct m with
  | case1 => simpa [rounds] using complete_nil
  | case2 => simpa [rounds] using complete_nil
  | case3 fuel most origins hmost log reached hround hempty =>
      have hlog := complete_round hm origins
      rw [hround] at hlog
      simpa [rounds, hround, hempty] using hlog
  | case4 fuel most origins hmost log reached hround hreached later more hlater ih =>
      have hlog := complete_round hm origins
      rw [hround] at hlog
      rw [hlater] at ih
      simpa [rounds, hround, hreached, hlater] using hlog.append ih

theorem reports_repetition (hm : m.Reports) (least : ℕ) (most : Option ℕ) :
    (repetition m least most).Reports := by
  intro c
  exact Matches.complete_release (complete_rounds hm _ most [c]) _

/-! ### Searches -/

/-- A search counts on from the matches that it has reported. -/
theorem balanced_walk (hm : m.Reports) (limits : SearchLimits) (base fuel : ℕ)
    (next : Option Cursor) (count : ℕ) (context : κ) :
    Balanced count (walk m limits base fuel next count context).count
      (walk m limits base fuel next count context).log := by
  induction fuel generalizing next count context with
  | zero => exact .nil
  | succ fuel ih =>
      cases next with
      | none => exact .nil
      | some c =>
          have hvisit (n : ℕ) : Balanced n n
              (.searchVisit (c.depth - base) c.node :: (m (.start c context)).firstLog) :=
            (Balanced.single (.searchVisit _ _)).append ((hm _).firstLog n)
          rw [walk]
          dsimp only
          split
          · exact (hvisit count).append (ih _ count context)
          · next d hd =>
            have hlog := (hvisit count).append .found
            split
            · exact hlog
            · exact hlog.append (ih _ (count + 1) d.context)

theorem complete_search (hm : m.Reports) (limits : SearchLimits) (root : Cursor) (kind : TreeKind)
    (context : κ) : Complete (search m limits root kind context).1 :=
  fun _ => .search (balanced_walk hm limits _ _ _ 0 context)

theorem complete_run {p : Piece κ} (h : ∀ m, p = .template m → m.Reports) (c : Cursor)
    (context : κ) : Complete (p.run c context).1 := by
  unfold Piece.run
  split
  · exact complete_nil
  · split
    · exact complete_nil
    · exact (h _ rfl _).firstLog
  · exact complete_nil

theorem complete_runPieces {ps : List (Piece κ)} (h : ∀ m, .template m ∈ ps → m.Reports)
    (cs : List Cursor) (context : κ) : Complete (runPieces ps cs context).1 := by
  induction cs generalizing ps context with
  | nil => cases ps <;> exact complete_nil
  | cons c cs ih =>
      by_cases hmarker : c.node.isMarker
      · have hskip : runPieces ps (c :: cs) context = runPieces ps cs context := by
          cases ps <;> simp [runPieces, hmarker]
        rw [hskip]
        exact ih h context
      · cases ps with
        | nil => simpa [runPieces, hmarker] using complete_nil
        | cons p ps =>
            have hp := complete_run (fun m hm => h m (hm ▸ List.mem_cons_self)) c context
            have ih := fun context => ih (fun m hm => h m (List.mem_cons_of_mem p hm)) context
            rw [runPieces, if_neg hmarker]
            split
            · next log hrun => simpa [hrun] using hp
            · next log context' hrun =>
              rw [hrun] at hp
              exact hp.append (ih context')

/-! ### Compiled queries -/

theorem Built.reports {m : Matcher κ} (h : Built m) : m.Reports := by
  induction h with
  | token kind test handler => exact reports_token kind test handler
  | levelStart => exact reports_levelStart
  | levelEnd => exact reports_levelEnd
  | act handler => exact reports_act handler
  | sequence _ ih => exact reports_sequence ih
  | alternatives _ ih => exact reports_alternatives ih
  | repetition least most _ ih => exact reports_repetition ih least most
  | tree test limits handlers => exact reports_treeWith .tree _ _ fun _ _ _ => complete_nil
  | treeSearch test limits handlers _ ih =>
      exact reports_treeWith .tree _ _ fun t c context => complete_search ih limits c t.kind context
  | string test handler => exact reports_treeWith .string _ _ fun _ _ _ => complete_nil
  | pieces handlers _ ih =>
      exact reports_treeWith .string _ _ fun _ c context => complete_runPieces ih c.children context

/-- The lines that a verbosity shows of a run. -/
def traceOf (m : Matcher κ) (v : Verbosity) (root : Cursor) (context : κ) : List TraceLine :=
  v.visible (TraceStyle.placed 0 (m.run root context).2)

end Matcher

/-- **Traces of a run.**  Tracing does not change the result.  The lines are the texts of the shown
reports; they are nested, and each that opens something is closed.  A lower verbosity shows those
that it does not hide.  The text of a line says how deep it is indented and what is reported, up to
the nodes. -/
theorem Query.traces_nest {κ : Type} {q : Query κ} {m : Matcher κ} (h : q.compile = .ok m)
    (s : TraceStyle) (root : Cursor) (context : κ) :
    let shown (v : Verbosity) := m.traceOf v root context
    (m.runTraced s root context).1 = (m.run root context).1 ∧
    (m.runTraced s root context).1 = (m (.start root context)).all.head?.map (·.context) ∧
    (m.runTraced s root context).2.map some = (shown s.verbosity).map s.text? ∧
    Nested 0 0 0 (shown s.verbosity) ∧ AllClosed (shown s.verbosity) ∧
    (∀ v : Verbosity, v.level ≤ s.verbosity.level → shown v = v.visible (shown s.verbosity)) ∧
    ∀ l ∈ shown s.verbosity, ∀ l' : TraceLine, l'.event.IsNamed → s.text? l' = s.text? l →
      l'.indent = l.indent ∧ l'.event.Alike l.event := by
  have hlog : Complete (m.run root context).2 :=
    ((built_of_compile h).reports (.start root context)).firstLog
  have hnested : Nested 0 0 0 (m.traceOf s.verbosity root context) :=
    (hlog 0 0).2.visible s.verbosity
  refine ⟨rfl, ?_, s.map_some_lines 0 _, hnested, hnested.allClosed, fun v hv => ?_,
    fun l hl l' hl' htext => ?_⟩
  · rw [Matches.head?_all]
    rfl
  · exact (Verbosity.visible_visible _ hv).symm
  · exact s.text?_inj hl' (hnested.isNamed l hl) (Verbosity.shows_of_mem_visible hl) htext

/-- A bracket with a symbol, and a number after it. -/
def bracketedSymbol : Node :=
  .tree .root none none [.token (.marker .levelStart {}),
    .tree .wrapped (some (.make .bracketLeft "(" {})) (some (.make .bracketRight ")" {}))
      [.token (.marker .levelStart {}), .token (.make .symbol "a" {}),
        .token (.marker .levelEnd {})],
    .token (.make .number "1" {}), .token (.marker .levelEnd {})]

/-- A search for trees in which a search finds a symbol.  The search of the root goes on to the
number and to the end of the level, where it finds no tree. -/
theorem Query.traces_nest_bracketedSymbol :
    ∃ m : Matcher Unit,
      Query.compile [.tree { kind := some .root } { depth := 0, count := 0 }
        (some [.tree {} { depth := 0, count := 1 } (some [.token .symbol .any none]) {}]) {}] =
          .ok m ∧
      let root := Cursor.top bracketedSymbol 0
      (m.traceOf .brief root ()).map (·.indent) = [0, 1, 2, 2, 1, 1, 1, 0, 0] ∧
      Nested 0 0 0 (m.traceOf .brief root ()) ∧ AllClosed (m.traceOf .full root ()) ∧
      m.traceOf .brief root () = Verbosity.brief.visible (m.traceOf .full root ()) ∧
      ∀ l ∈ m.traceOf .full root (), ∀ l' ∈ m.traceOf .full root (),
        TraceStyle.text? ⟨.full, .off⟩ l' = TraceStyle.text? ⟨.full, .off⟩ l →
          l'.indent = l.indent ∧ l'.event.Alike l.event := by
  obtain ⟨m, hm, hindents⟩ : ∃ m : Matcher Unit,
      Query.compile [.tree { kind := some .root } { depth := 0, count := 0 }
        (some [.tree {} { depth := 0, count := 1 } (some [.token .symbol .any none]) {}]) {}] =
          .ok m ∧
      (m.traceOf .brief (.top bracketedSymbol 0) ()).map (·.indent) =
        [0, 1, 2, 2, 1, 1, 1, 0, 0] :=
    ⟨_, rfl, by decide +kernel⟩
  obtain ⟨-, -, -, hnested, -⟩ :=
    Query.traces_nest hm { verbosity := .brief, palette := .off } (.top bracketedSymbol 0) ()
  obtain ⟨-, -, -, hfull, hclosed, hlower, hread⟩ :=
    Query.traces_nest hm { verbosity := .full, palette := .off } (.top bracketedSymbol 0) ()
  exact ⟨m, hm, hindents, hnested, hclosed, hlower .brief (by decide),
    fun l hl l' hl' => hread l hl l' (hfull.isNamed l' hl')⟩

end Nesting
