import Nesting.Proofs.Query.Termination

/-! # Steps that do the same

Two steps run side by side, perhaps with contexts of different types and on different trees, do the
same with regard to a relation between checkpoints if from related checkpoints their matches are
related one by one (`Matcher.Simulates`).

All ways to combine steps keep this, whatever the relation is.  A repetition has to know which
matches consume something, so its step has to agree on that too (`Matcher.SimulatesRounds`). -/

namespace Nesting

theorem Matches.head?_all {κ : Type} (m : Matches κ) : m.all.head? = m.first? := by
  cases m <;> rfl

theorem Matches.mem_all_of_first? {κ : Type} {m : Matches κ} {d : Checkpoint κ}
    (h : m.first? = some d) : d ∈ m.all :=
  List.mem_of_mem_head? (by rw [head?_all]; exact h)

namespace Matcher

variable {κ κ' : Type} {R : Checkpoint κ → Checkpoint κ' → Prop}

/-- From related checkpoints two steps have as many matches, related one by one. -/
def Simulates (R : Checkpoint κ → Checkpoint κ' → Prop) (m : Matcher κ) (n : Matcher κ') : Prop :=
  ∀ c d, R c d → List.Forall₂ R (m c).all (n d).all

theorem rel_head? {cs : List (Checkpoint κ)} {ds : List (Checkpoint κ')}
    (h : List.Forall₂ R cs ds) : Option.Rel R cs.head? ds.head? := by
  cases h with
  | nil => exact .none
  | cons h _ => exact .some h

theorem Simulates.first? {m : Matcher κ} {n : Matcher κ'} (h : Simulates R m n)
    {c : Checkpoint κ} {d : Checkpoint κ'} (hcd : R c d) :
    Option.Rel R (m c).first? (n d).first? := by
  rw [← Matches.head?_all, ← Matches.head?_all]
  exact rel_head? (h c d hcd)

/-! ### Sequences and alternatives -/

theorem rel_through {ms : List (Matcher κ)} {ns : List (Matcher κ')}
    (h : List.Forall₂ (Simulates R) ms ns) {c : Checkpoint κ} {d : Checkpoint κ'} (hcd : R c d) :
    List.Forall₂ R (through ms c) (through ns d) := by
  induction h generalizing c d with
  | nil => exact .cons hcd .nil
  | cons hm _ ih =>
      rw [through_cons, through_cons]
      exact List.rel_flatMap (hm c d hcd) fun _ _ h => ih h

theorem simulates_ofSteps {ms : List (Matcher κ)} {ns : List (Matcher κ')}
    (h : List.Forall₂ (Simulates R) ms ns) : Simulates R (ofSteps ms) (ofSteps ns) := by
  intro c d hcd
  rw [all_ofSteps, all_ofSteps]
  exact rel_through h hcd

theorem simulates_alternatives {ms : List (Matcher κ)} {ns : List (Matcher κ')}
    (h : List.Forall₂ (Simulates R) ms ns) : Simulates R (alternatives ms) (alternatives ns) := by
  intro c d hcd
  rw [all_alternatives, all_alternatives]
  exact List.rel_filterMap (fun m n hm => rel_head? (hm c d hcd)) h

/-! ### Repetitions -/

/-- From related checkpoints two steps have related matches, and of two related matches both
consume something or neither does. -/
def SimulatesRounds (R : Checkpoint κ → Checkpoint κ' → Prop) (m : Matcher κ)
    (n : Matcher κ') : Prop :=
  ∀ c d, R c d → List.Forall₂ (fun c' d' => R c' d' ∧ (c'.consumedSince c ↔ d'.consumedSince d))
    (m c).all (n d).all

variable {m : Matcher κ} {n : Matcher κ'}

theorem round_eq (m : Matcher κ) (origins : List (Checkpoint κ)) :
    (round m origins).2 =
      origins.reverse.flatMap fun c => (m c).all.filter (·.consumedSince c) := by
  simp [round, Matches.drain_eq, ← List.map_reverse, List.flatMap_map]

theorem SimulatesRounds.round (h : SimulatesRounds R m n) {cs : List (Checkpoint κ)}
    {ds : List (Checkpoint κ')} (hcs : List.Forall₂ R cs ds) :
    List.Forall₂ R (round m cs).2 (round n ds).2 := by
  rw [round_eq, round_eq]
  refine List.rel_flatMap (List.forall₂_reverse_iff.mpr hcs) fun c d hcd => ?_
  exact (List.rel_filter (fun _ _ h => h.2) (h c d hcd)).imp fun _ _ h => h.1

theorem SimulatesRounds.rounds (h : SimulatesRounds R m n) {most : Option ℕ}
    {cs : List (Checkpoint κ)} {ds : List (Checkpoint κ')} (hcs : List.Forall₂ R cs ds)
    {r : List Event × List (List (Checkpoint κ))} {r' : List Event × List (List (Checkpoint κ'))}
    (hr : Rounds m most cs r) (hr' : Rounds n most ds r') :
    List.Forall₂ (List.Forall₂ R) r.2 r'.2 := by
  induction hr generalizing ds r' with
  | enough =>
      cases hr' with
      | enough => exact .nil
      | dry hmost _ => exact absurd rfl hmost
      | next hmost _ _ => exact absurd rfl hmost
  | dry hmost hdry =>
      have hround := h.round hcs
      cases hr' with
      | enough => exact absurd rfl hmost
      | dry _ _ => exact .nil
      | next _ hne _ =>
          rw [hdry] at hround
          exact absurd (List.forall₂_nil_left_iff.mp hround) hne
  | next hmost hne _ ih =>
      have hround := h.round hcs
      cases hr' with
      | enough => exact absurd rfl hmost
      | dry _ hdry =>
          rw [hdry] at hround
          exact absurd (List.forall₂_nil_right_iff.mp hround) hne
      | next _ _ hlater => exact .cons hround (ih hround hlater)

/-- Repetitions of steps that do the same do the same. -/
theorem simulates_repetition (h : SimulatesRounds R m n) (hm : m.Advances) (hn : n.Advances)
    (least : ℕ) (most : Option ℕ) :
    Simulates R (repetition m least most) (repetition n least most) := by
  intro c d hcd
  have hstart : List.Forall₂ R [c] [d] := .cons hcd .nil
  have hrounds := h.rounds hstart (rounds_repetition hm most c) (rounds_repetition hn most d)
  unfold repetition
  rw [Matches.all_release, Matches.all_release]
  refine List.rel_flatten (List.forall₂_reverse_iff.mpr (List.forall₂_drop least ?_))
  exact .cons hstart hrounds

end Matcher

end Nesting
