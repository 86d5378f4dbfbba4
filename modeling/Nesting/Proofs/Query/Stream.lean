import Mathlib.Data.List.Basic
import Nesting.Proofs.Except
import Nesting.Query.Basic

/-! # The stream of a query

The matches of a sequence come from a stack of the steps that have been passed.  The stack drops
steps that have nothing more to give, asks one in the middle for another match and runs forward
again.  `Matcher.through` is the plain depth-first enumeration: every match of the first step, in
order, followed by every way through the steps after it.

`Matcher.all_sequence` says that the two give the same list.  With it, `stream_laws` describes the
streams of all queries that compile: a joined query runs the second part from every match of the
first, the empty query stays where it is, an alternation offers the first match of each branch,
and a single step gives the same matches as the sequence that consists of it.  A sequence offers
every choice of one match for each step exactly once, in lexicographic order. -/

namespace Nesting

namespace Matcher

variable {κ : Type}

/-! ### Depth-first enumeration -/

/-- The ends of all ways through some steps, depth first. -/
def through : List (Matcher κ) → Checkpoint κ → List (Checkpoint κ)
  | [], c => [c]
  | m :: ms, c => (m c).all.flatMap (through ms)

@[simp] theorem through_nil (c : Checkpoint κ) : through [] c = [c] := rfl

theorem through_cons (m : Matcher κ) (ms : List (Matcher κ)) (c : Checkpoint κ) :
    through (m :: ms) c = (m c).all.flatMap (through ms) := rfl

theorem through_singleton (m : Matcher κ) (c : Checkpoint κ) : through [m] c = (m c).all := by
  rw [through_cons]
  exact List.flatMap_singleton' _

theorem through_append (ms ns : List (Matcher κ)) (c : Checkpoint κ) :
    through (ms ++ ns) c = (through ms c).flatMap (through ns) := by
  induction ms generalizing c with
  | nil => simp
  | cons m ms ih =>
      rw [List.cons_append, through_cons, through_cons, List.flatMap_assoc]
      exact List.flatMap_congr fun d _ => ih d

/-! ### The stack of passed steps -/

/-- What the steps on a stack still offer: the latest step first, each of its remaining matches
run through the steps after it. -/
def pending (stack : List (Passed κ)) : List (Checkpoint κ) :=
  stack.flatMap fun p => p.remaining.flatMap (through p.todo)

theorem pending_cons (p : Passed κ) (stack : List (Passed κ)) :
    pending (p :: stack) = p.remaining.flatMap (through p.todo) ++ pending stack :=
  List.flatMap_cons

/-- Nothing on the stack is lost or offered twice: running forward gives all ways through the
steps that are left and then all that the stack still offers, and going back gives the latter. -/
theorem all_advance_backtrack :
    (∀ (todo : List (Matcher κ)) (stack : List (Passed κ)) (c : Checkpoint κ),
      (advance todo stack c).all = through todo c ++ pending stack) ∧
    (∀ (todo : List (Matcher κ)) (stack : List (Passed κ)) (found : Matches κ),
      (settle todo stack found).all = found.all.flatMap (through todo) ++ pending stack) ∧
    ∀ stack : List (Passed κ), (backtrack stack).all = pending stack := by
  apply advance.mutual_induct
  case case1 =>
    intro stack c ih
    rw [advance, Matches.all, ih]
    rfl
  case case2 =>
    intro m todo stack c ih
    rw [advance, ih, through_cons]
  case case3 =>
    intro todo stack log ih
    rw [settle, Matches.all_report, ih]
    rfl
  case case4 =>
    intro todo stack log d ih
    rw [settle, Matches.all_report, ih, pending_cons]
    simp [Passed.remaining, Matches.all]
  case case5 =>
    intro todo stack log d rest ih
    rw [settle, Matches.all_report, ih, pending_cons]
    simp [Passed.remaining, Matches.all]
  case case6 => rw [backtrack]; rfl
  case case7 =>
    intro todo stack ih
    rw [backtrack, ih, pending_cons]
    rfl
  case case8 =>
    intro rest todo stack ih
    rw [backtrack, Matches.all_report, ih, pending_cons]
    rfl

/-- A sequence gives the depth-first enumeration. -/
theorem all_sequence (ms : List (Matcher κ)) (c : Checkpoint κ) :
    (sequence ms c).all = through ms c := by
  rw [sequence, all_advance_backtrack.1]
  exact List.append_nil _

theorem all_ofSteps (ms : List (Matcher κ)) (c : Checkpoint κ) :
    (ofSteps ms c).all = through ms c := by
  unfold ofSteps
  split
  · rw [through_singleton]
  · exact all_sequence ms c

theorem all_alternatives (ms : List (Matcher κ)) (c : Checkpoint κ) :
    (alternatives ms c).all = ms.filterMap fun m => (m c).all.head? := by
  have head (m : Matches κ) : m.all.head? = m.first? := by cases m <;> rfl
  induction ms with
  | nil => rfl
  | cons m ms ih =>
      rw [alternatives, List.filterMap_cons, head]
      cases hm : (m c).first? with
      | none => rw [Matches.all_report, ih]
      | some d => rw [Matches.all, ih]

/-! ### Choices -/

/-- The end of the way that takes the match of the given number at each step. -/
def follow? : List (Matcher κ) → Checkpoint κ → List Nat → Option (Checkpoint κ)
  | [], c, [] => some c
  | m :: ms, c, j :: js => (m c).all[j]?.bind fun d => follow? ms d js
  | _, _, _ => none

/-- The choices that lead somewhere, in the order in which a sequence makes them. -/
def choices : List (Matcher κ) → Checkpoint κ → List (List Nat)
  | [], _ => [[]]
  | m :: ms, c => (m c).all.zipIdx.flatMap fun p => (choices ms p.1).map (p.2 :: ·)

theorem mem_choices_iff (ms : List (Matcher κ)) (c : Checkpoint κ) (js : List Nat) :
    js ∈ choices ms c ↔ (follow? ms c js).isSome := by
  induction ms generalizing c js with
  | nil => cases js <;> simp [choices, follow?]
  | cons m ms ih =>
      cases js with
      | nil => simp [choices, follow?]
      | cons j js =>
          simp only [choices, List.mem_flatMap, List.mem_map, List.cons.injEq, Prod.exists,
            List.mem_zipIdx_iff_getElem?, follow?]
          constructor
          · rintro ⟨d, i, hd, ks, hks, rfl, rfl⟩
            rw [hd]
            exact (ih d ks).mp hks
          · intro h
            obtain ⟨d, hd⟩ := Option.isSome_iff_exists.mp (Option.isSome_of_isSome_bind h)
            rw [hd] at h
            exact ⟨d, j, hd, js, (ih d js).mpr h, rfl, rfl⟩

theorem pairwise_choices (ms : List (Matcher κ)) (c : Checkpoint κ) :
    (choices ms c).Pairwise (· < ·) := by
  induction ms generalizing c with
  | nil => exact List.pairwise_singleton _ _
  | cons m ms ih =>
      rw [choices, List.pairwise_flatMap]
      constructor
      · intro p _
        rw [List.pairwise_map]
        exact (ih p.1).imp fun h => List.cons_lt_cons_self.mpr h
      · have rising : ((m c).all.zipIdx.map (·.2)).Pairwise (· < ·) := by
          rw [List.zipIdx_map_snd]
          exact List.pairwise_lt_range'
        refine (List.pairwise_map.mp rising).imp fun {p q} hlt js hjs ks hks => ?_
        obtain ⟨js', _, rfl⟩ := List.mem_map.mp hjs
        obtain ⟨ks', _, rfl⟩ := List.mem_map.mp hks
        exact List.cons_lt_cons_iff.mpr (Or.inl hlt)

theorem map_follow?_choices (ms : List (Matcher κ)) (c : Checkpoint κ) :
    (choices ms c).map (follow? ms c) = (through ms c).map some := by
  induction ms generalizing c with
  | nil => rfl
  | cons m ms ih =>
      have inside (p : Checkpoint κ × Nat) (hp : p ∈ (m c).all.zipIdx) :
          ((choices ms p.1).map (p.2 :: ·)).map (follow? (m :: ms) c) =
            (through ms p.1).map some := by
        rw [List.map_map, ← ih p.1]
        refine List.map_congr_left fun js _ => ?_
        have hj : (m c).all[p.2]? = some p.1 := List.mem_zipIdx_iff_getElem?.mp hp
        simp only [Function.comp_apply, follow?, hj, Option.bind_some]
      calc
        (choices (m :: ms) c).map (follow? (m :: ms) c)
            = (m c).all.zipIdx.flatMap fun p => (through ms p.1).map some := by
              rw [choices, List.map_flatMap]
              exact List.flatMap_congr inside
        _ = ((m c).all.zipIdx.map (·.1)).flatMap fun d => (through ms d).map some := by
              rw [List.flatMap_map]
        _ = (through (m :: ms) c).map some := by
              rw [List.zipIdx_map_fst, through_cons, List.map_flatMap]

end Matcher

/-! ### Compiled queries -/

namespace Step

variable {κ : Type}

theorem compileSteps_eq_ok_iff {q : List (Step κ)} {ms : List (Matcher κ)} :
    compileSteps q = .ok ms ↔ List.Forall₂ (fun s m => compile s = .ok m) q ms := by
  have eq_mapM : compileSteps q = q.mapM compile := by
    induction q with
    | nil => rfl
    | cons s q ih => rw [compileSteps, List.mapM_cons, ih]
  rw [eq_mapM, mapM_eq_ok_iff]

theorem compileBranches_eq_ok_iff {qs : List (Query κ)} {ms : List (Matcher κ)} :
    compileBranches qs = .ok ms ↔ List.Forall₂ (fun q m => Query.build q = .ok m) qs ms := by
  have eq_mapM : compileBranches qs = qs.mapM Query.build := by
    induction qs with
    | nil => rfl
    | cons q qs ih =>
        rw [compileBranches, List.mapM_cons, ih, Query.build]
        cases compileSteps q <;> rfl
  rw [eq_mapM, mapM_eq_ok_iff]

end Step

namespace Query

variable {κ : Type} {q r : Query κ} {m : Matcher κ}

theorem build_eq_ok_iff :
    q.build = .ok m ↔
      ∃ ms, List.Forall₂ (fun s m => Step.compile s = .ok m) q ms ∧ Matcher.ofSteps ms = m := by
  rw [build, map_eq_ok_iff]
  simp only [Step.compileSteps_eq_ok_iff]

theorem build_singleton {s : Step κ} : Query.build [s] = s.compile := by
  rw [build, Step.compileSteps, Step.compileSteps]
  cases s.compile <;> rfl

end Query

/-- **The streams of queries.**  In this order: joined queries, the empty query, a query that is
an alternation, a query that is a single step, and the choices of any query that compiles. -/
theorem stream_laws (κ : Type) :
    (∀ (q r : Query κ) (m n : Matcher κ), q.build = .ok m → r.build = .ok n →
      ∃ j : Matcher κ, Query.build (q ++ r) = .ok j ∧
        ∀ c, (j c).all = (m c).all.flatMap fun d => (n d).all) ∧
    (∃ e : Matcher κ, Query.build [] = .ok e ∧ ∀ c, (e c).all = [c]) ∧
    (∀ (branches : List (Query κ)) (a : Matcher κ), Query.build [.alt branches] = .ok a →
      ∃ ms : List (Matcher κ), List.Forall₂ (fun q m => Query.build q = .ok m) branches ms ∧
        ∀ c, (a c).all = ms.filterMap fun m => (m c).all.head?) ∧
    (∀ (s : Step κ) (m : Matcher κ), s.compile = .ok m →
      Query.build [s] = .ok m ∧ ∀ c, (m c).all = (Matcher.sequence [m] c).all) ∧
    ∀ (q : Query κ) (m : Matcher κ), q.build = .ok m →
      ∃ ms : List (Matcher κ), List.Forall₂ (fun s m => s.compile = .ok m) q ms ∧
        ∀ c, ∃ ways : List (List Nat), ways.Pairwise (· < ·) ∧
          (∀ js, js ∈ ways ↔ (Matcher.follow? ms c js).isSome) ∧
          (m c).all.map some = ways.map (Matcher.follow? ms c) := by
  refine ⟨?_, ?_, ?_, ?_, ?_⟩
  · intro q r m n hq hr
    obtain ⟨ms, hms, rfl⟩ := Query.build_eq_ok_iff.mp hq
    obtain ⟨ns, hns, rfl⟩ := Query.build_eq_ok_iff.mp hr
    refine ⟨Matcher.ofSteps (ms ++ ns), Query.build_eq_ok_iff.mpr ⟨ms ++ ns, ?_, rfl⟩, fun c => ?_⟩
    · exact List.rel_append hms hns
    · simp only [Matcher.all_ofSteps, Matcher.through_append]
  · exact ⟨Matcher.ofSteps [], rfl, fun c => Matcher.all_ofSteps [] c⟩
  · intro branches a h
    rw [Query.build_singleton, Step.compile] at h
    split at h
    · cases h
    · obtain ⟨ms, hms, h⟩ := bind_eq_ok_iff.mp h
      cases h
      exact ⟨ms, Step.compileBranches_eq_ok_iff.mp hms, Matcher.all_alternatives ms⟩
  · intro s m h
    refine ⟨Query.build_singleton.trans h, fun c => ?_⟩
    rw [Matcher.all_sequence, Matcher.through_singleton]
  · intro q m h
    obtain ⟨ms, hms, rfl⟩ := Query.build_eq_ok_iff.mp h
    refine ⟨ms, hms, fun c => ⟨Matcher.choices ms c, ?_, ?_, ?_⟩⟩
    · exact Matcher.pairwise_choices ms c
    · exact Matcher.mem_choices_iff ms c
    · rw [Matcher.all_ofSteps, Matcher.map_follow?_choices]

/-- Two alternations in a row, of which the first has a branch without a match. -/
theorem stream_laws_alternations :
    ∃ m n j : Matcher (List Nat),
      Query.build [.alt [[.act fun k _ => 1 :: k], [.levelEnd], [.act fun k _ => 2 :: k]]] = .ok m ∧
      Query.build [.alt [[.act fun k _ => 3 :: k], [.act fun k _ => 4 :: k]]] = .ok n ∧
      Query.build [.alt [[.act fun k _ => 1 :: k], [.levelEnd], [.act fun k _ => 2 :: k]],
        .alt [[.act fun k _ => 3 :: k], [.act fun k _ => 4 :: k]]] = .ok j ∧
      (j (.start (.top (.token (.make .symbol "x" {})) 0) [])).all.map (·.context) =
        [[3, 1], [4, 1], [3, 2], [4, 2]] := by
  obtain ⟨j, hj, h⟩ := (stream_laws (List Nat)).1
    [.alt [[.act fun k _ => 1 :: k], [.levelEnd], [.act fun k _ => 2 :: k]]]
    [.alt [[.act fun k _ => 3 :: k], [.act fun k _ => 4 :: k]]] _ _ rfl rfl
  refine ⟨_, _, j, rfl, rfl, hj, ?_⟩
  rw [h]
  rfl

end Nesting
