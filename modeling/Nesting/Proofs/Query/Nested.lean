import Mathlib.Data.List.Basic
import Nesting.Query.Trace

/-! # Nested lines

A trace has two kinds of brackets: the start and the end of a search, and a step that looks at a
node with what comes of it.  `Nested` says that they match, that a line is indented as deep as
searches are open around it, and that every search counts its own matches.

What a verbosity shows of a trace is decided line by line, by the kind of its report
(`Verbosity.visible`), and what is left of nested lines is nested (`Nested.visible`). -/

namespace Nesting

/-! ### Lines -/

/-- A report, and the number of levels by which its line is indented. -/
structure TraceLine where
  indent : ℕ
  event : Event

namespace TraceStyle

/-- Reports with the indentation of their lines, when `depth` searches are open before. -/
def placed (depth : ℕ) : List Event → List TraceLine
  | [] => []
  | e :: es => ⟨(depths depth e).1, e⟩ :: placed (depths depth e).2 es

/-- The number of open searches after reports. -/
def depthAfter (depth : ℕ) (es : List Event) : ℕ := es.foldl (fun d e => (depths d e).2) depth

theorem depthAfter_append (depth : ℕ) (es fs : List Event) :
    depthAfter depth (es ++ fs) = depthAfter (depthAfter depth es) fs := List.foldl_append

theorem placed_append (depth : ℕ) (es fs : List Event) :
    placed depth (es ++ fs) = placed depth es ++ placed (depthAfter depth es) fs := by
  induction es generalizing depth with
  | nil => rfl
  | cons e es ih => simp only [List.cons_append, placed, ih, depthAfter, List.foldl_cons]

end TraceStyle

/-! ### What is shown -/

namespace Verbosity

/-- How much a verbosity shows, as a number. -/
def level : Verbosity → ℕ
  | brief => 0
  | verbose => 1
  | full => 2

/-- The least verbosity that shows a report. -/
def ofEvent : Event → Verbosity
  | .enter .. | .searchVisit .. => full
  | .failure .. => verbose
  | .success .. | .backtrack .. | .searchEnter .. | .searchMatch .. | .searchExit .. => brief

/-- Whether a report is shown. -/
def shows (v : Verbosity) (e : Event) : Bool := (ofEvent e).level ≤ v.level

/-- The lines that are shown of given ones. -/
def visible (v : Verbosity) (ls : List TraceLine) : List TraceLine :=
  ls.filter (v.shows ·.event)

variable {v w : Verbosity} {e : Event} (d : ℕ) (ls ls' : List TraceLine)

theorem visible_append : v.visible (ls ++ ls') = v.visible ls ++ v.visible ls' :=
  List.filter_append ..

theorem visible_cons_of_shows (h : v.shows e) : v.visible (⟨d, e⟩ :: ls) = ⟨d, e⟩ :: v.visible ls :=
  List.filter_cons_of_pos h

theorem visible_cons_of_not_shows (h : ¬ v.shows e) : v.visible (⟨d, e⟩ :: ls) = v.visible ls :=
  List.filter_cons_of_neg h

theorem shows_of_mem_visible {l : TraceLine} {ls : List TraceLine} (h : l ∈ v.visible ls) :
    v.shows l.event :=
  (List.mem_filter.mp h).2

/-- A lower verbosity shows what a higher one shows, without the lines that it hides. -/
theorem visible_visible (h : v.level ≤ w.level) : v.visible (w.visible ls) = v.visible ls := by
  rw [visible, visible, List.filter_filter, visible]
  refine List.filter_congr fun l _ => ?_
  simp only [Bool.and_eq_left_iff_imp, shows, decide_eq_true_eq]
  exact fun hv => Nat.le_trans hv h

end Verbosity

namespace TraceStyle

theorem isSome_line? (s : TraceStyle) (e : Event) : (s.line? e).isSome = s.verbosity.shows e := by
  cases s with | mk v palette => cases e <;> cases v <;> rfl

/-- The text of a line, if it is shown. -/
def text? (s : TraceStyle) (l : TraceLine) : Option String :=
  (s.line? l.event).map (String.ofList (List.replicate (2 * l.indent) ' ') ++ ·)

/-- A trace has a text for every line that is shown, and nothing else. -/
theorem map_some_lines (s : TraceStyle) (depth : ℕ) (es : List Event) :
    (s.lines depth es).map some = (s.verbosity.visible (placed depth es)).map s.text? := by
  induction es generalizing depth with
  | nil => rfl
  | cons e es ih =>
      have hshown := s.isSome_line? e
      rw [lines, placed]
      cases hline : s.line? e with
      | none =>
          rw [Verbosity.visible_cons_of_not_shows _ _ (by simp [← hshown, hline])]
          exact ih _
      | some line =>
          have htext : s.text? ⟨(depths depth e).1, e⟩ =
              some (String.ofList (List.replicate (2 * (depths depth e).1) ' ') ++ line) := by
            simp [text?, hline]
          rw [Verbosity.visible_cons_of_shows _ _ (by simp [← hshown, hline]), List.map_cons,
            List.map_cons, htext, ← ih]

end TraceStyle

/-- The numbers of the matches that are reported on lines of an indentation. -/
def matchNumbers (d : ℕ) (ls : List TraceLine) : List ℕ :=
  ls.filterMap fun l =>
    match l.event with
    | .searchMatch n => if l.indent = d then some n else none
    | _ => none

/-! ### Nesting -/

/-- The names of steps in reports. -/
inductive StepName : String → Prop
  | token (kind : TokenKind) : StepName (Matcher.tokenStepName kind)
  | levelStart : StepName "begin"
  | levelEnd : StepName "end"
  | tree : StepName "tree"
  | string : StepName "str"

/-- What comes of a step that looks at a node. -/
inductive Event.IsOutcome (step : String) : Event → Prop
  | success (node : Node) : IsOutcome step (.success step node)
  | failure (node : Option Node) : IsOutcome step (.failure step node)

/-- Reports that stand alone.  A step that looks at a level's end, or that finds no node, reports
its outcome only. -/
inductive Event.IsSingle : Event → Prop
  | outcome {step e} : StepName step → e.IsOutcome step → IsSingle e
  | backtrack (step) : IsSingle (.backtrack step)
  | searchVisit (depth node) : IsSingle (.searchVisit depth node)

/-- A report that names no step, or one of those that there are. -/
def Event.IsNamed : Event → Prop
  | .enter step _ | .success step _ | .failure step _ => StepName step
  | _ => True

theorem Event.IsOutcome.isNamed {step : String} {e : Event} (h : e.IsOutcome step)
    (hstep : StepName step) : e.IsNamed := by cases h <;> exact hstep

/-- Lines between which `depth` searches are open.  If so many matches of the innermost one have
been reported before, so many have been afterwards. -/
inductive Nested : (depth before after : ℕ) → List TraceLine → Prop
  | nil {d n} : Nested d n n []
  | single {d m n e ls} : e.IsSingle → Nested d m n ls → Nested d m n (⟨d, e⟩ :: ls)
  /-- A step looks at a node, and its outcome is on a line with the same indentation. -/
  | attempt {d m n step node inner e ls} : StepName step → Nested d m m inner →
      e.IsOutcome step → Nested d m n ls →
      Nested d m n (⟨d, .enter step node⟩ :: (inner ++ ⟨d, e⟩ :: ls))
  /-- The last line of a search has the number of its own matches. -/
  | search {d m n kind count inner ls} : Nested (d + 1) 0 count inner → Nested d m n ls →
      Nested d m n (⟨d, .searchEnter kind⟩ :: (inner ++ ⟨d, .searchExit count⟩ :: ls))
  /-- Matches are numbered in order. -/
  | found {d m n ls} : Nested d (m + 1) n ls → Nested d m n (⟨d, .searchMatch (m + 1)⟩ :: ls)

namespace Nested

variable {d k m n : ℕ} {ls ls' : List TraceLine}

theorem append (h : Nested d k m ls) (h' : Nested d m n ls') : Nested d k n (ls ++ ls') := by
  induction h with
  | nil => exact h'
  | single he _ ih => exact .single he (ih h')
  | attempt hstep hinner he _ _ ih =>
      rw [List.cons_append, List.append_assoc, List.cons_append]
      exact .attempt hstep hinner he (ih h')
  | search hinner _ _ ih =>
      rw [List.cons_append, List.append_assoc, List.cons_append]
      exact .search hinner (ih h')
  | found _ ih => exact .found (ih h')

/-- Where attempts are not shown, their outcomes stand alone. -/
theorem visible (h : Nested d m n ls) (v : Verbosity) : Nested d m n (v.visible ls) := by
  have hsearch {e : Event} (h : Verbosity.ofEvent e = .brief) : v.shows e := by
    simp [Verbosity.shows, h, Verbosity.level]
  have hsingle {d m n : ℕ} {e : Event} {ls : List TraceLine} (he : e.IsSingle)
      (ih : Nested d m n (v.visible ls)) : Nested d m n (v.visible (⟨d, e⟩ :: ls)) := by
    by_cases hshown : v.shows e
    · rw [Verbosity.visible_cons_of_shows _ _ hshown]
      exact .single he ih
    · rw [Verbosity.visible_cons_of_not_shows _ _ hshown]
      exact ih
  induction h with
  | nil => exact .nil
  | single he _ ih => exact hsingle he ih
  | @attempt d m n step node inner e ls hstep _ he _ ihinner ih =>
      by_cases hshown : v.shows (.enter step node)
      · -- the verbosity that shows attempts shows every outcome
        have houtcome : v.shows e := by
          cases v with
          | full => cases he <;> rfl
          | brief | verbose => exact absurd hshown nofun
        rw [Verbosity.visible_cons_of_shows _ _ hshown, Verbosity.visible_append,
          Verbosity.visible_cons_of_shows _ _ houtcome]
        exact .attempt hstep ihinner he ih
      · rw [Verbosity.visible_cons_of_not_shows _ _ hshown, Verbosity.visible_append]
        exact ihinner.append (hsingle (.outcome hstep he) ih)
  | search _ _ ihinner ih =>
      rw [Verbosity.visible_cons_of_shows _ _ (hsearch rfl), Verbosity.visible_append,
        Verbosity.visible_cons_of_shows _ _ (hsearch rfl)]
      exact .search ihinner ih
  | found _ ih =>
      rw [Verbosity.visible_cons_of_shows _ _ (hsearch rfl)]
      exact .found ih

theorem isNamed (h : Nested d m n ls) : ∀ l ∈ ls, l.event.IsNamed := by
  induction h with
  | nil => simp
  | single he _ ih =>
      refine List.forall_mem_cons.mpr ⟨?_, ih⟩
      cases he with
      | outcome hstep he => exact he.isNamed hstep
      | backtrack | searchVisit => trivial
  | attempt hstep _ he _ ihinner ih =>
      simp only [List.forall_mem_cons, List.forall_mem_append]
      exact ⟨hstep, ihinner, he.isNamed hstep, ih⟩
  | search _ _ ihinner ih =>
      simp only [List.forall_mem_cons, List.forall_mem_append]
      exact ⟨trivial, ihinner, trivial, ih⟩
  | found _ ih => exact List.forall_mem_cons.mpr ⟨trivial, ih⟩

theorem le_indent (h : Nested d m n ls) : ∀ l ∈ ls, d ≤ l.indent := by
  induction h with
  | nil => simp
  | single _ _ ih => exact List.forall_mem_cons.mpr ⟨Nat.le_refl _, ih⟩
  | attempt _ _ _ _ ihinner ih =>
      simp only [List.forall_mem_cons, List.forall_mem_append]
      exact ⟨Nat.le_refl _, ihinner, Nat.le_refl _, ih⟩
  | search _ _ ihinner ih =>
      simp only [List.forall_mem_cons, List.forall_mem_append]
      exact ⟨Nat.le_refl _, fun l hl => Nat.le_of_succ_le (ihinner l hl), Nat.le_refl _, ih⟩
  | found _ ih => exact List.forall_mem_cons.mpr ⟨Nat.le_refl _, ih⟩

theorem le (h : Nested d m n ls) : m ≤ n := by
  induction h with
  | nil => exact Nat.le_refl _
  | single _ _ ih => exact ih
  | attempt _ _ _ _ _ ih => exact ih
  | search _ _ _ ih => exact ih
  | found _ ih => exact Nat.le_of_succ_le ih

theorem matchNumbers_of_lt {d : ℕ} {ls : List TraceLine} (h : ∀ l ∈ ls, d < l.indent) :
    matchNumbers d ls = [] := by
  refine List.filterMap_eq_nil_iff.mpr fun l hl => ?_
  have := h l hl
  split
  · exact if_neg (by omega)
  · rfl

/-- The matches of a search are numbered one after the other. -/
theorem matchNumbers_eq (h : Nested d m n ls) :
    matchNumbers d ls = List.range' (m + 1) (n - m) := by
  induction h with
  | nil => simp [matchNumbers]
  | @single d m n e ls he _ ih =>
      cases he with
      | outcome _ he => cases he <;> exact ih
      | backtrack => exact ih
      | searchVisit => exact ih
  | @attempt d m n step node inner e ls _ _ he _ ihinner ih =>
      have hnone : matchNumbers d (⟨d, e⟩ :: ls) = matchNumbers d ls := by cases he <;> rfl
      calc matchNumbers d (⟨d, .enter step node⟩ :: (inner ++ ⟨d, e⟩ :: ls))
          = matchNumbers d inner ++ matchNumbers d (⟨d, e⟩ :: ls) := List.filterMap_append
        _ = List.range' (m + 1) (n - m) := by rw [ihinner, hnone, ih]; simp
  | @search d m n kind count inner ls hinner _ _ ih =>
      calc matchNumbers d (⟨d, .searchEnter kind⟩ :: (inner ++ ⟨d, .searchExit count⟩ :: ls))
          = matchNumbers d inner ++ matchNumbers d ls := List.filterMap_append
        _ = List.range' (m + 1) (n - m) := by
          rw [matchNumbers_of_lt fun l hl => hinner.le_indent l hl, ih, List.nil_append]
  | @found d m n ls h ih =>
      have hle := h.le
      calc matchNumbers d (⟨d, .searchMatch (m + 1)⟩ :: ls)
          = (m + 1) :: matchNumbers d ls := by simp [matchNumbers]
        _ = List.range' (m + 1) (n - m) := by
          rw [ih, show n - m = n - (m + 1) + 1 by omega, List.range'_succ]

end Nested

/-- What follows a line that opens something closes it.  Between a search and its end every line
is indented further; between an attempt and its outcome the lines are nested. -/
def TraceLine.ClosedBy (l : TraceLine) (ls : List TraceLine) : Prop :=
  match l.event with
  | .searchEnter _ => ∃ count inner rest, ls = inner ++ ⟨l.indent, .searchExit count⟩ :: rest ∧
      (∀ l' ∈ inner, l.indent < l'.indent) ∧ matchNumbers (l.indent + 1) inner = List.range' 1 count
  | .enter step _ => ∃ e inner rest, ls = inner ++ ⟨l.indent, e⟩ :: rest ∧ e.IsOutcome step ∧
      ∃ n, Nested l.indent n n inner
  | _ => True

theorem TraceLine.ClosedBy.append {l : TraceLine} {ls : List TraceLine} (h : l.ClosedBy ls)
    (ls' : List TraceLine) : l.ClosedBy (ls ++ ls') := by
  unfold ClosedBy at *
  split at h
  · obtain ⟨count, inner, rest, rfl, h⟩ := h
    exact ⟨count, inner, rest ++ ls', by simp, h⟩
  · obtain ⟨e, inner, rest, rfl, h⟩ := h
    exact ⟨e, inner, rest ++ ls', by simp, h⟩
  · trivial

/-- Every line that opens something is closed by what follows it. -/
def AllClosed : List TraceLine → Prop
  | [] => True
  | l :: ls => l.ClosedBy ls ∧ AllClosed ls

theorem allClosed_append {ls ls' : List TraceLine} (h : AllClosed ls) (h' : AllClosed ls') :
    AllClosed (ls ++ ls') := by
  induction ls with
  | nil => exact h'
  | cons l ls ih => exact ⟨h.1.append ls', ih h.2⟩

theorem Nested.allClosed {d m n : ℕ} {ls : List TraceLine} (h : Nested d m n ls) :
    AllClosed ls := by
  have outcome {d : ℕ} {step : String} {e : Event} (he : e.IsOutcome step) (ls : List TraceLine) :
      TraceLine.ClosedBy ⟨d, e⟩ ls := by cases he <;> trivial
  induction h with
  | nil => trivial
  | single he _ ih =>
      refine ⟨?_, ih⟩
      cases he with
      | outcome _ he => exact outcome he _
      | backtrack | searchVisit => trivial
  | attempt _ hinner he _ ihinner ih =>
      exact ⟨⟨_, _, _, rfl, he, _, hinner⟩, allClosed_append ihinner ⟨outcome he _, ih⟩⟩
  | search hinner _ ihinner ih =>
      exact ⟨⟨_, _, _, rfl, hinner.le_indent, hinner.matchNumbers_eq⟩,
        allClosed_append ihinner ⟨trivial, ih⟩⟩
  | found _ ih => exact ⟨trivial, ih⟩

end Nesting
