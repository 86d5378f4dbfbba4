import Nesting.Proofs.Text.Place
import Nesting.Regex.Match

/-! # The ends of a match

A match goes forward: every place where it can end lies ahead of the place where it starts
(`ahead_of_mem_ends`).  The functions that combine ends (`distinct`, `rounds`, the loops) keep any
property that a single round keeps, so the statement follows the structure of the expression. -/

namespace Nesting.Regex

section combinators

variable {α : Type} {P : α → Prop}

theorem foldl_keeps {σ : Type} {Q : σ → Prop} {step : σ → α → σ}
    (hstep : ∀ s a, Q s → P a → Q (step s a)) {l : List α} (hl : ∀ a ∈ l, P a) {s : σ} (hs : Q s) :
    Q (l.foldl step s) := by
  induction l generalizing s with
  | nil => exact hs
  | cons a l ih =>
      rw [List.forall_mem_cons] at hl
      exact ih hl.2 (hstep s a hs hl.1)

variable [At α]

theorem mem_of_mem_distinct {l : List α} {a : α} (h : a ∈ distinct l) : a ∈ l := by
  have mem_go (seen : List Nat) (l : List α) (h : a ∈ distinct.go seen l) : a ∈ l := by
    induction l generalizing seen with
    | nil => exact h
    | cons b l ih =>
        rw [distinct.go] at h
        split at h
        · exact List.mem_cons_of_mem b (ih _ h)
        · rcases List.mem_cons.mp h with rfl | h
          · exact List.mem_cons_self
          · exact List.mem_cons_of_mem b (ih _ h)
  unfold distinct at h
  split at h
  · exact h
  · exact mem_go [] l h

theorem forall_rounds {body : Nat → α → List α} (hbody : ∀ n a, P a → ∀ b ∈ body n a, P b)
    (n : Nat) {l : List α} (hl : ∀ a ∈ l, P a) : ∀ b ∈ rounds body n l, P b := by
  induction n generalizing l with
  | zero => exact hl
  | succ n ih =>
      cases l with
      | nil => exact hl
      | cons a l =>
          show ∀ b ∈ rounds body n (distinct ((a :: l).flatMap (body n))), P b
          apply ih
          intro b hb
          obtain ⟨a', ha', hb⟩ := List.mem_flatMap.mp (mem_of_mem_distinct hb)
          exact hbody n a' (hl a' ha') b hb

theorem climb_keeps {cross : α → Option α} {body : α → List α}
    (hcross : ∀ a a', cross a = some a' → P a → P a') (hbody : ∀ a, P a → ∀ b ∈ body a, P b)
    (greedy : Bool) (ahead : List Char) {found : Loop α} {a : α} (hfound : ∀ b ∈ found.ends, P b)
    (ha : P a) : ∀ b ∈ (climb cross body greedy ahead found a).ends, P b := by
  induction ahead generalizing found a with
  | nil =>
      rw [climb]
      split
      · next hc =>
        exact List.forall_mem_cons.mpr ⟨hcross _ _ hc ha, hfound⟩
      · exact hfound
  | cons c ahead ih =>
      rw [climb]
      split
      · next entered a' _ hc =>
        have ha' := hcross _ _ hc ha
        have run (found : Loop α) (h : ∀ b ∈ found.ends, P b) :
            ∀ b ∈ ((body a').foldl (climb cross body greedy ahead) found).ends, P b := by
          refine foldl_keeps (Q := fun found : Loop α => ∀ b ∈ found.ends, P b) ?_ (hbody a' ha') h
          exact fun _ _ hs hb => ih hs hb
        dsimp only
        split
        · exact List.forall_mem_cons.mpr ⟨ha', run _ hfound⟩
        · exact run _ (List.forall_mem_cons.mpr ⟨ha', hfound⟩)
      · exact hfound

theorem forall_zeroOrMore {cross : α → Option α} {body : α → List α}
    (hcross : ∀ a a', cross a = some a' → P a → P a') (hbody : ∀ a, P a → ∀ b ∈ body a, P b)
    (greedy : Bool) {a : α} (ha : P a) : ∀ b ∈ zeroOrMore cross body greedy a, P b := by
  intro b hb
  rw [zeroOrMore, List.mem_reverse] at hb
  exact climb_keeps hcross hbody greedy _ (fun _ h => absurd h List.not_mem_nil) ha b hb

theorem forall_oneOrMore {cross : α → Option α} {body : α → List α}
    (hcross : ∀ a a', cross a = some a' → P a → P a') (hbody : ∀ a, P a → ∀ b ∈ body a, P b)
    (greedy : Bool) {a : α} (ha : P a) : ∀ b ∈ oneOrMore cross body greedy a, P b := by
  intro b hb
  rw [oneOrMore, List.mem_reverse] at hb
  refine foldl_keeps (Q := fun found : Loop α => ∀ b ∈ found.ends, P b) ?_ (hbody a ha) ?_ b hb
  · exact fun _ _ hs hb => climb_keeps hcross hbody greedy _ hs hb
  · exact fun _ h => absurd h List.not_mem_nil

theorem stop_keeps {found : BoundedLoop α} {a : α} (hfound : ∀ b ∈ found.ends, P b) (ha : P a) :
    ∀ b ∈ (found.stop a).ends, P b := by
  unfold BoundedLoop.stop
  split
  · exact hfound
  · exact List.forall_mem_cons.mpr ⟨ha, hfound⟩

theorem climbBounded_keeps {cross : Nat → α → Option α} {body : Nat → α → List α}
    (hcross : ∀ n a a', cross n a = some a' → P a → P a')
    (hbody : ∀ n a, P a → ∀ b ∈ body n a, P b) (greedy : Bool) (left : Nat)
    {found : BoundedLoop α} {a : α} (hfound : ∀ b ∈ found.ends, P b) (ha : P a) :
    ∀ b ∈ (climbBounded cross body greedy left found a).ends, P b := by
  induction left generalizing found a with
  | zero => exact stop_keeps hfound ha
  | succ left ih =>
      rw [climbBounded]
      split
      · exact hfound
      · split
        · exact hfound
        · next a' hc =>
          have ha' := hcross _ _ _ hc ha
          have run (found : BoundedLoop α) (h : ∀ b ∈ found.ends, P b) :
              ∀ b ∈ ((body left a').foldl (climbBounded cross body greedy left) found).ends,
                P b := by
            refine foldl_keeps (Q := fun found : BoundedLoop α => ∀ b ∈ found.ends, P b) ?_
              (hbody left a' ha') h
            exact fun _ _ hs hb => ih hs hb
          dsimp only
          split
          · exact stop_keeps (run _ hfound) ha'
          · exact run _ (stop_keeps hfound ha')

theorem forall_atMost {cross : Nat → α → Option α} {body : Nat → α → List α}
    (hcross : ∀ n a a', cross n a = some a' → P a → P a')
    (hbody : ∀ n a, P a → ∀ b ∈ body n a, P b) (greedy : Bool) (most : Nat) {a : α} (ha : P a) :
    ∀ b ∈ atMost cross body greedy most a, P b := by
  intro b hb
  rw [atMost, List.mem_reverse] at hb
  exact climbBounded_keeps hcross hbody greedy most (fun _ h => absurd h List.not_mem_nil) ha b hb

end combinators

/-! ### Expressions -/

theorem place_of_pass? {fork : Way} {a b : Arrival} (h : a.pass? fork = some b) :
    b.place = a.place := by
  unfold Arrival.pass? at h
  split at h
  · cases h
  · cases h
    rfl

/-- A loop whose body goes forward goes forward; passing a fork does not move. -/
theorem ahead_of_mem_repeated {r : Regex}
    (ih : ∀ (way : Way) (a : Arrival), ∀ b ∈ arrivals r way a, a.place.Ahead b.place)
    (least : Nat) (most : Option Nat) (greedy : Bool) (way : Way) (a : Arrival) :
    ∀ b ∈ arrivals (.repeated r least most greedy) way a, a.place.Ahead b.place := by
  let P (b : Arrival) : Prop := a.place.Ahead b.place
  have cross (fork : Way) (b c : Arrival) (hc : b.pass? fork = some c) (hb : P b) : P c := by
    show a.place.Ahead c.place
    rw [place_of_pass? hc]
    exact hb
  have body (way : Way) (b : Arrival) (hb : P b) : ∀ c ∈ arrivals r way b, P c :=
    fun c hc => hb.trans (ih way b c hc)
  have start (n : Nat) : ∀ b ∈ rounds (fun n => arrivals r (requiredCopy way n)) n [a], P b :=
    forall_rounds (fun n => body _) n (List.forall_mem_singleton.mpr (.refl _))
  intro b hb
  match least, most with
  | 0, none =>
      rw [arrivals] at hb
      dsimp only at hb
      split at hb
      · split at hb
        · cases hb
        · next a' ha =>
          have ha' : P a' := cross _ a a' ha (.refl _)
          have more := forall_oneOrMore (cross way) (body (0 :: way)) greedy ha'
          have hb := mem_of_mem_distinct hb
          split at hb
          · rcases List.mem_append.mp hb with hb | hb
            · exact more b hb
            · rw [List.mem_singleton.mp hb]
              exact ha'
          · rcases List.mem_cons.mp hb with rfl | hb
            · exact ha'
            · exact more b hb
      · exact forall_zeroOrMore (cross way) (body (0 :: way)) greedy (.refl _) b hb
  | least + 1, none =>
      rw [arrivals] at hb
      obtain ⟨c, hc, hb⟩ := List.mem_flatMap.mp (mem_of_mem_distinct hb)
      exact forall_oneOrMore (cross way) (body (0 :: way)) greedy (start _ c hc) b hb
  | least, some most =>
      rw [arrivals] at hb
      obtain ⟨c, hc, hb⟩ := List.mem_flatMap.mp (mem_of_mem_distinct hb)
      exact forall_atMost (fun n => cross _) (fun n => body _) greedy _ (start _ c hc) b hb

theorem ahead_of_mem_arrivals (r : Regex) (way : Way) (a : Arrival) :
    ∀ b ∈ arrivals r way a, a.place.Ahead b.place := by
  induction r generalizing way a with
  | text cs =>
      intro b hb
      cases cs with
      | nil =>
          rw [arrivals, List.mem_singleton] at hb
          rw [hb]
          exact .refl _
      | cons c cs =>
          simp only [arrivals, List.mem_map, Option.mem_toList] at hb
          obtain ⟨q, hq, rfl⟩ := hb
          exact ⟨c :: cs, hq⟩
  | one s =>
      intro b hb
      rw [arrivals] at hb
      split at hb
      · next c q hq =>
        split at hb
        · rw [List.mem_singleton] at hb
          rw [hb]
          exact .of_next? hq
        · cases hb
      · cases hb
  | anchor c =>
      intro b hb
      rw [arrivals] at hb
      split at hb
      · rw [List.mem_singleton] at hb
        rw [hb]
        exact .refl _
      · cases hb
  | group n r ih => exact ih way a
  | seq r s ihr ihs =>
      intro b hb
      obtain ⟨c, hc, hb⟩ := List.mem_flatMap.mp (mem_of_mem_distinct hb)
      exact (ihr _ a c hc).trans (ihs _ c b hb)
  | alt r s ihr ihs =>
      intro b hb
      rw [arrivals] at hb
      split at hb
      · cases hb
      · next a' ha =>
        rw [← place_of_pass? ha]
        rcases List.mem_append.mp (mem_of_mem_distinct hb) with hb | hb
        · exact ihr _ a' b hb
        · exact ihs _ a' b hb
  | repeated r least most greedy ih => exact ahead_of_mem_repeated ih least most greedy way a

/-- Every end of a match lies ahead of its start. -/
theorem ahead_of_mem_ends (r : Regex) (p : Place) : ∀ q ∈ r.ends p, p.Ahead q := by
  induction r generalizing p with
  | text cs =>
      intro q hq
      rw [ends, Option.mem_toList] at hq
      exact ⟨cs, hq⟩
  | one s =>
      intro q hq
      rw [ends] at hq
      split at hq
      · next c q' hq' =>
        split at hq
        · rw [List.mem_singleton.mp hq]
          exact .of_next? hq'
        · cases hq
      · cases hq
  | anchor a =>
      intro q hq
      rw [ends] at hq
      split at hq
      · rw [List.mem_singleton.mp hq]
        exact .refl _
      · cases hq
  | group n r ih => exact ih p
  | seq r s ihr ihs =>
      intro q hq
      obtain ⟨c, hc, hq⟩ := List.mem_flatMap.mp (mem_of_mem_distinct hq)
      exact (ihr p c hc).trans (ihs c q hq)
  | alt r s ihr ihs =>
      intro q hq
      rcases List.mem_append.mp (mem_of_mem_distinct hq) with hq | hq
      · exact ihr p q hq
      · exact ihs p q hq
  | repeated r least most greedy ih =>
      have cross (a b : Place) (h : some a = some b) (ha : p.Ahead a) : p.Ahead b :=
        Option.some.inj h ▸ ha
      have body (a : Place) (ha : p.Ahead a) : ∀ b ∈ r.ends a, p.Ahead b :=
        fun b hb => ha.trans (ih a b hb)
      have start (n : Nat) : ∀ b ∈ rounds (fun _ => r.ends) n [p], p.Ahead b :=
        forall_rounds (fun _ => body) n (List.forall_mem_singleton.mpr (.refl p))
      intro q hq
      have guarded {least : Nat} (h : q ∈ guardedEnds (.repeated r least none greedy) p) :
          p.Ahead q := by
        obtain ⟨b, hb, rfl⟩ := List.mem_map.mp h
        exact ahead_of_mem_arrivals _ _ _ b hb
      match least, most with
      | 0, none =>
          rw [ends] at hq
          split at hq
          · exact guarded hq
          · exact forall_zeroOrMore cross body greedy (.refl p) q hq
      | least + 1, none =>
          rw [ends] at hq
          split at hq
          · exact guarded hq
          · obtain ⟨c, hc, hq⟩ := List.mem_flatMap.mp (mem_of_mem_distinct hq)
            exact forall_oneOrMore cross body greedy (start _ c hc) q hq
      | least, some most =>
          rw [ends] at hq
          obtain ⟨c, hc, hq⟩ := List.mem_flatMap.mp (mem_of_mem_distinct hq)
          exact forall_atMost (fun _ => cross) (fun _ => body) greedy _ (start _ c hc) q hq

end Nesting.Regex
