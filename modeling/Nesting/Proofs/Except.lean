import Mathlib.Data.List.Forall2

/-! # Steps that may fail

What the success of a chain of steps says about the single steps. -/

namespace Nesting

variable {ε α β : Type}

theorem bind_eq_ok_iff {x : Except ε α} {f : α → Except ε β} {b : β} :
    x >>= f = .ok b ↔ ∃ a, x = .ok a ∧ f a = .ok b := by
  cases x with
  | error e => simp [bind, Except.bind]
  | ok a => simp [bind, Except.bind]

theorem unit_bind_eq_ok_iff {x : Except ε Unit} {f : Unit → Except ε β} {b : β} :
    x >>= f = .ok b ↔ x = .ok () ∧ f () = .ok b := by
  rw [bind_eq_ok_iff]
  exact ⟨fun ⟨_, hx, h⟩ => ⟨hx, h⟩, fun ⟨hx, h⟩ => ⟨(), hx, h⟩⟩

theorem map_eq_ok_iff {x : Except ε α} {f : α → β} {b : β} :
    f <$> x = .ok b ↔ ∃ a, x = .ok a ∧ f a = b := by
  cases x with
  | error e => simp [Functor.map, Except.map]
  | ok a => simp [Functor.map, Except.map]

/-- A step that succeeds on every element gives the list of its results. -/
theorem mapM_eq_ok_iff {f : α → Except ε β} {xs : List α} {ys : List β} :
    xs.mapM f = .ok ys ↔ List.Forall₂ (fun x y => f x = .ok y) xs ys := by
  induction xs generalizing ys with
  | nil =>
      rw [List.mapM_nil, List.forall₂_nil_left_iff]
      exact ⟨fun h => (Except.ok.inj h).symm, fun h => h ▸ rfl⟩
  | cons x xs ih =>
      rw [List.mapM_cons, List.forall₂_cons_left_iff, bind_eq_ok_iff]
      constructor
      · rintro ⟨b, hb, h⟩
        obtain ⟨bs, hbs, h⟩ := bind_eq_ok_iff.mp h
        exact ⟨b, bs, hb, ih.mp hbs, (Except.ok.inj h).symm⟩
      · rintro ⟨b, bs, hb, hbs, rfl⟩
        exact ⟨b, hb, bind_eq_ok_iff.mpr ⟨bs, ih.mpr hbs, rfl⟩⟩

theorem mapIdx_mapM_eq_ok_iff {f : Nat → α → Except ε β} {xs : List α} {ys : List β} :
    (xs.mapIdx f).mapM id = .ok ys ↔
      xs.length = ys.length ∧
      ∀ i (hx : i < xs.length) (hy : i < ys.length), f i xs[i] = .ok ys[i] := by
  rw [mapM_eq_ok_iff, List.forall₂_iff_get]
  simp only [List.length_mapIdx, List.get_eq_getElem, List.getElem_mapIdx, id]

/-- What holds at the start of a run and is kept by every step holds at its end. -/
theorem foldlM_induction {σ : Type} {f : σ → α → Except ε σ} {P : List α → σ → Prop} {s s' : σ}
    {xs : List α} (start : P [] s)
    (step : ∀ earlier, ∀ x ∈ xs, ∀ s s', P earlier s → f s x = .ok s' → P (earlier ++ [x]) s')
    (h : xs.foldlM f s = .ok s') : P xs s' := by
  suffices run : ∀ earlier later s, xs = earlier ++ later → P earlier s →
      later.foldlM f s = .ok s' → P xs s' from run [] xs s rfl start h
  clear h
  intro earlier later
  induction later generalizing earlier with
  | nil =>
      intro s hxs hs h
      cases h
      rwa [hxs, List.append_nil]
  | cons x later ih =>
      intro s hxs hs h
      rw [List.foldlM_cons] at h
      obtain ⟨s₁, h₁, h⟩ := bind_eq_ok_iff.mp h
      have hx : x ∈ xs := by
        rw [hxs]
        exact List.mem_append_right _ List.mem_cons_self
      refine ih (earlier ++ [x]) s₁ ?_ (step earlier x hx s s₁ hs h₁) h
      rw [hxs, List.append_assoc, List.singleton_append]

/-- The last step of a run comes after the run of the others. -/
theorem foldlM_concat_eq_ok_iff {σ : Type} {f : σ → α → Except ε σ} {s s' : σ} {xs : List α}
    {x : α} :
    (xs ++ [x]).foldlM f s = .ok s' ↔ ∃ s₁, xs.foldlM f s = .ok s₁ ∧ f s₁ x = .ok s' := by
  rw [List.foldlM_append, bind_eq_ok_iff]
  refine exists_congr fun s₁ => and_congr_right fun _ => ?_
  rw [List.foldlM_cons, bind_eq_ok_iff]
  constructor
  · rintro ⟨s₂, hx, h⟩
    cases h
    exact hx
  · exact fun hx => ⟨s', hx, rfl⟩

/-- A run fails at the first step that fails. -/
theorem foldlM_eq_error_iff {σ : Type} {f : σ → α → Except ε σ} {s : σ} {xs : List α} {e : ε} :
    xs.foldlM f s = .error e ↔ ∃ earlier x later s', xs = earlier ++ x :: later ∧
      earlier.foldlM f s = .ok s' ∧ f s' x = .error e := by
  induction xs generalizing s with
  | nil =>
      constructor
      · intro h
        cases h
      · rintro ⟨earlier, x, later, _, h, -⟩
        simp at h
  | cons y ys ih =>
      rw [List.foldlM_cons]
      cases hy : f s y with
      | error e' =>
          constructor
          · intro h
            cases h
            exact ⟨[], y, ys, s, rfl, rfl, hy⟩
          · rintro ⟨earlier, x, later, s', h, hrun, hx⟩
            cases earlier with
            | nil =>
                cases h
                cases hrun
                rw [hy] at hx
                exact hx
            | cons z earlier =>
                cases h
                rw [List.foldlM_cons, hy] at hrun
                cases hrun
      | ok s₁ =>
          refine Iff.trans ih ?_
          constructor
          · rintro ⟨earlier, x, later, s', rfl, hrun, hx⟩
            refine ⟨y :: earlier, x, later, s', rfl, ?_, hx⟩
            rw [List.foldlM_cons, hy]
            exact hrun
          · rintro ⟨earlier, x, later, s', h, hrun, hx⟩
            cases earlier with
            | nil =>
                cases h
                cases hrun
                rw [hy] at hx
                cases hx
            | cons z earlier =>
                cases h
                rw [List.foldlM_cons, hy] at hrun
                exact ⟨earlier, x, later, s', rfl, hrun, hx⟩

/-- A check passes on a list when it passes on every element. -/
theorem forM_eq_ok_iff {f : α → Except ε PUnit} {xs : List α} :
    xs.forM f = .ok () ↔ ∀ x ∈ xs, f x = .ok () := by
  induction xs with
  | nil => exact ⟨fun _ _ h => absurd h List.not_mem_nil, fun _ => rfl⟩
  | cons x xs ih =>
      rw [List.forM, bind_eq_ok_iff, List.forall_mem_cons]
      constructor
      · rintro ⟨⟨⟩, hx, h⟩
        exact ⟨hx, ih.mp h⟩
      · rintro ⟨hx, h⟩
        exact ⟨(), hx, ih.mpr h⟩

/-- Two runs that fail with the same error, or succeed with related results. -/
inductive Agree {γ : Type} (R : α → γ → Prop) : Except ε α → Except ε γ → Prop
  | error (e : ε) : Agree R (.error e) (.error e)
  | ok {a : α} {c : γ} : R a c → Agree R (.ok a) (.ok c)

namespace Agree

variable {γ δ : Type} {R : α → γ → Prop} {S : β → δ → Prop} {x : Except ε α} {y : Except ε γ}

theorem refl (x : Except ε α) : Agree (· = ·) x x := by
  cases x with
  | error e => exact .error e
  | ok a => exact .ok rfl

theorem of_ok {a : α} {c : γ} (h : Agree R (.ok a : Except ε α) (.ok c)) : R a c := by
  cases h with
  | ok hac => exact hac

theorem mono {R' : α → γ → Prop} (h : Agree R x y) (hR : ∀ a c, R a c → R' a c) :
    Agree R' x y := by
  cases h with
  | error e => exact .error e
  | ok hac => exact .ok (hR _ _ hac)

/-- The results that are related are those of the two runs. -/
theorem with_eq (h : Agree R x y) : Agree (fun a c => R a c ∧ x = .ok a ∧ y = .ok c) x y := by
  cases h with
  | error e => exact .error e
  | ok hac => exact .ok ⟨hac, rfl, rfl⟩

theorem bind {f : α → Except ε β} {g : γ → Except ε δ} (h : Agree R x y)
    (hfg : ∀ a c, R a c → Agree S (f a) (g c)) : Agree S (x >>= f) (y >>= g) := by
  cases h with
  | error e => exact .error e
  | ok hac => exact hfg _ _ hac

theorem map {f : α → β} {g : γ → δ} (h : Agree R x y) (hfg : ∀ a c, R a c → S (f a) (g c)) :
    Agree S (f <$> x) (g <$> y) := by
  cases h with
  | error e => exact .error e
  | ok hac => exact .ok (hfg _ _ hac)

theorem mapError {ε' : Type} (h : Agree R x y) (f : ε → ε') :
    Agree R (x.mapError f) (y.mapError f) := by
  cases h with
  | error e => exact .error (f e)
  | ok hac => exact .ok hac

end Agree

end Nesting
