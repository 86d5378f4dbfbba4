import Mathlib.Data.List.Nodup
import Mathlib.Order.Bounds.Basic
import Nesting.Proofs.Query.Termination

/-! # What a repetition offers

A repetition makes rounds.  `Matcher.reached` is what a number of rounds reaches from a
checkpoint: for each checkpoint of the round before, the last one first, the matches of the body
that consume something.  The stream of a repetition is what the last round reaches that reaches
anything, then what the one before it reaches, and so on down to the minimum.

A checkpoint is reached by a chain of choices, one match of the body for each round
(`Matcher.chainEnd?`), and `Matcher.chains` lists the chains of a round beside what they reach.  So
the stream offers every chain exactly once, longer ones first (`Query.stream_many`). -/

namespace Nesting

namespace Matcher

variable {κ : Type} {m : Matcher κ} {c : Checkpoint κ}

/-! ### Rounds -/

/-- What a number of rounds reaches from a checkpoint. -/
def reached (m : Matcher κ) (c : Checkpoint κ) : ℕ → List (Checkpoint κ)
  | 0 => [c]
  | k + 1 => (reached m c k).reverse.flatMap fun f => (m f).all.filter (·.consumedSince f)

theorem round_reached (m : Matcher κ) (c : Checkpoint κ) (k : ℕ) :
    (round m (reached m c k)).2 = reached m c (k + 1) := by
  simp only [round, Matches.drain_eq, ← List.map_reverse, List.flatMap_map, reached]

theorem reached_eq_nil_of_le {k l : ℕ} (hkl : k ≤ l) (h : reached m c k = []) :
    reached m c l = [] := by
  induction l, hkl using Nat.le_induction with
  | base => exact h
  | succ l _ ih => rw [reached, ih, List.reverse_nil, List.flatMap_nil]

/-- The loop makes rounds until the maximum is made, or the next one reaches nothing. -/
theorem Rounds.eq_map_reached {most : Option ℕ} {origins : List (Checkpoint κ)}
    {r : List Event × List (List (Checkpoint κ))} (h : Rounds m most origins r) {k : ℕ}
    (horigins : origins = reached m c k) :
    ∃ n, r.2 = (List.range' (k + 1) n).map (reached m c) ∧ (∀ M ∈ most, n ≤ M) ∧
      (∀ i < n, reached m c (k + 1 + i) ≠ []) ∧
      (most = some n ∨ reached m c (k + 1 + n) = []) := by
  induction h generalizing k with
  | enough => exact ⟨0, rfl, by simp, nofun, .inl rfl⟩
  | dry _ hnil =>
      rw [horigins, round_reached] at hnil
      exact ⟨0, rfl, by simp, nofun, .inr hnil⟩
  | @next most origins r hmost hne _ ih =>
      rw [horigins, round_reached] at hne ih ⊢
      obtain ⟨n, hr, hle, hreaches, hend⟩ := ih rfl
      refine ⟨n + 1, ?_, ?_, ?_, ?_⟩
      · rw [hr, List.range'_succ, List.map_cons]
      · intro M hM
        have hzero : M ≠ 0 := fun h => hmost (h ▸ hM)
        have := hle (M - 1) (Option.mem_map_of_mem _ hM)
        omega
      · intro i hi
        cases i with
        | zero => exact hne
        | succ i =>
            rw [← Nat.add_assoc, Nat.add_right_comm]
            exact hreaches i (Nat.lt_of_succ_lt_succ hi)
      · rcases hend with hmax | hnil
        · obtain ⟨M, hM, hn⟩ := Option.map_eq_some_iff.mp hmax
          have hzero : M ≠ 0 := fun h => hmost (h ▸ hM)
          exact .inl (hM.trans (congrArg some (by omega)))
        · rw [← Nat.add_assoc, Nat.add_right_comm]
          exact .inr hnil

/-- The stream of a repetition, up to the last round that reaches something. -/
theorem all_repetition (hm : m.Advances) (least : ℕ) (most : Option ℕ) (c : Checkpoint κ) :
    ∃ K, IsGreatest {k | (∀ M ∈ most, k ≤ M) ∧ reached m c k ≠ []} K ∧
      (repetition m least most c).all =
        (List.range' least (K + 1 - least)).reverse.flatMap (reached m c) := by
  obtain ⟨n, hrounds, hle, hreaches, hend⟩ :=
    (rounds_repetition hm most c).eq_map_reached (c := c) (k := 0) rfl
  refine ⟨n, ⟨⟨hle, ?_⟩, ?_⟩, ?_⟩
  · cases n with
    | zero => exact List.cons_ne_nil c []
    | succ n =>
        rw [Nat.add_comm n 1, ← Nat.zero_add 1]
        exact hreaches n (Nat.lt_succ_self n)
  · rintro k ⟨hk, hne⟩
    rcases hend with hmax | hnil
    · exact hk n hmax
    · by_contra hlt
      exact hne (reached_eq_nil_of_le (by omega) hnil)
  · have hall : [c] :: (rounds m (c.cursor.after.length + 2) most [c]).2 =
        (List.range' 0 (n + 1)).map (reached m c) := by
      rw [hrounds, List.range'_succ, List.map_cons]
      rfl
    unfold repetition
    dsimp only
    rw [Matches.all_release, hall, ← List.map_drop, List.drop_range', ← List.map_reverse,
      ← List.flatMap_def]
    simp

/-! ### Chains -/

/-- The end of the chain that takes the match of the given number in each round.  Each of them
consumes something. -/
def chainEnd? (m : Matcher κ) : Checkpoint κ → List ℕ → Option (Checkpoint κ)
  | c, [] => some c
  | c, j :: js => ((m c).all[j]?.filter (·.consumedSince c)).bind fun d => chainEnd? m d js

theorem chainEnd?_concat (m : Matcher κ) (c : Checkpoint κ) (js : List ℕ) (j : ℕ) :
    chainEnd? m c (js ++ [j]) =
      (chainEnd? m c js).bind fun f => (m f).all[j]?.filter (·.consumedSince f) := by
  induction js generalizing c with
  | nil => simp [chainEnd?]
  | cons i js ih =>
      rw [List.cons_append, chainEnd?, chainEnd?, Option.bind_assoc]
      congr 1
      funext d
      exact ih d

/-- The chains of a number of rounds with what they reach, in the order of the rounds. -/
def chains (m : Matcher κ) (c : Checkpoint κ) : ℕ → List (List ℕ × Checkpoint κ)
  | 0 => [([], c)]
  | k + 1 => (chains m c k).reverse.flatMap fun x =>
    ((m x.2).all.zipIdx.filter (·.1.consumedSince x.2)).map fun p => (x.1 ++ [p.2], p.1)

theorem map_snd_chains (m : Matcher κ) (c : Checkpoint κ) (k : ℕ) :
    (chains m c k).map (·.2) = reached m c k := by
  induction k with
  | zero => rfl
  | succ k ih =>
      rw [chains, reached, ← ih, ← List.map_reverse, List.flatMap_map, List.map_flatMap]
      refine List.flatMap_congr fun x _ => ?_
      calc
        (((m x.2).all.zipIdx.filter (·.1.consumedSince x.2)).map
            fun p => (x.1 ++ [p.2], p.1)).map (·.2)
            = ((m x.2).all.zipIdx.filter ((·.consumedSince x.2) ∘ (·.1))).map (·.1) := by
              rw [List.map_map]
              rfl
        _ = ((m x.2).all.zipIdx.map (·.1)).filter (·.consumedSince x.2) := by
              rw [List.filter_map]
        _ = (m x.2).all.filter (·.consumedSince x.2) := by rw [List.zipIdx_map_fst]

theorem mem_chains_iff {k : ℕ} {js : List ℕ} {d : Checkpoint κ} :
    (js, d) ∈ chains m c k ↔ js.length = k ∧ chainEnd? m c js = some d := by
  induction k generalizing js d with
  | zero =>
      cases js with
      | nil => simp [chains, chainEnd?, eq_comm]
      | cons j js => simp [chains]
  | succ k ih =>
      rw [chains, List.mem_flatMap]
      simp only [List.mem_reverse, List.mem_map, List.mem_filter, Prod.mk.injEq, Prod.exists,
        List.mem_zipIdx_iff_getElem?]
      constructor
      · rintro ⟨js, f, hf, e, j, ⟨he, hconsumed⟩, rfl, rfl⟩
        obtain ⟨hlength, hend⟩ := ih.mp hf
        refine ⟨by rw [List.length_append, hlength]; rfl, ?_⟩
        rw [chainEnd?_concat, hend, Option.bind_some, he]
        exact Option.filter_eq_some_iff.mpr ⟨rfl, hconsumed⟩
      · rintro ⟨hlength, hend⟩
        rcases List.eq_nil_or_concat' js with rfl | ⟨js, j, rfl⟩
        · cases hlength
        · rw [chainEnd?_concat] at hend
          obtain ⟨f, hf, hend⟩ := Option.bind_eq_some_iff.mp hend
          obtain ⟨he, hconsumed⟩ := Option.filter_eq_some_iff.mp hend
          rw [List.length_append] at hlength
          exact ⟨js, f, ih.mpr ⟨Nat.succ.inj hlength, hf⟩, d, j, ⟨he, hconsumed⟩, rfl, rfl⟩

theorem nodup_chains (m : Matcher κ) (c : Checkpoint κ) (k : ℕ) :
    ((chains m c k).map (·.1)).Nodup := by
  induction k with
  | zero => exact List.nodup_singleton _
  | succ k ih =>
      rw [chains, List.map_flatMap, List.nodup_flatMap]
      constructor
      · intro x _
        rw [List.map_map]
        have hnumbers : ((m x.2).all.zipIdx.map (·.2)).Nodup := by
          rw [List.zipIdx_map_snd]
          exact List.nodup_range'
        have hkept : (((m x.2).all.zipIdx.filter (·.1.consumedSince x.2)).map (·.2)).Nodup :=
          hnumbers.sublist (List.filter_sublist.map _)
        have hchains : (((m x.2).all.zipIdx.filter (·.1.consumedSince x.2)).map (·.2)).map
            (fun j => x.1 ++ [j]) = _ := List.map_map
        exact hchains ▸ hkept.map fun i j h => List.singleton_inj.mp (List.append_cancel_left h)
      · -- Chains that end with different chains of the round before are different.
        rw [List.pairwise_reverse]
        refine (List.pairwise_map.mp ih).imp fun {x y} hne js hx hy => ?_
        simp only [List.map_map, List.mem_map, Function.comp_apply] at hx hy
        obtain ⟨p, -, rfl⟩ := hx
        obtain ⟨q, -, hq⟩ := hy
        exact hne (List.append_inj' hq rfl).1

theorem map_some_flatMap_reached (m : Matcher κ) (c : Checkpoint κ) (ks : List ℕ) :
    (ks.flatMap (reached m c)).map some =
      (ks.flatMap fun k => (chains m c k).map (·.1)).map (chainEnd? m c) := by
  rw [List.map_flatMap, List.map_flatMap]
  refine List.flatMap_congr fun k _ => ?_
  rw [← map_snd_chains, List.map_map, List.map_map]
  refine List.map_congr_left fun x hx => ?_
  exact (mem_chains_iff.mp hx).2.symm

theorem mem_map_chains_iff {k : ℕ} {js : List ℕ} :
    js ∈ (chains m c k).map (·.1) ↔ (chainEnd? m c js).isSome ∧ js.length = k := by
  rw [List.mem_map, Option.isSome_iff_exists]
  constructor
  · rintro ⟨⟨js, d⟩, hmem, rfl⟩
    obtain ⟨hlength, hend⟩ := mem_chains_iff.mp hmem
    exact ⟨⟨d, hend⟩, hlength⟩
  · rintro ⟨⟨d, hend⟩, hlength⟩
    exact ⟨(js, d), mem_chains_iff.mpr ⟨hlength, hend⟩, rfl⟩

theorem reached_ne_nil_of_chainEnd? {js : List ℕ} (h : (chainEnd? m c js).isSome) :
    reached m c js.length ≠ [] := by
  obtain ⟨d, hd⟩ := Option.isSome_iff_exists.mp h
  rw [← map_snd_chains]
  exact List.ne_nil_of_mem (List.mem_map_of_mem (mem_chains_iff.mpr ⟨rfl, hd⟩))

/-- Chains of different lengths are different, so those of some rounds in descending order are all
different, longer ones first. -/
theorem nodup_flatMap_chains (m : Matcher κ) (c : Checkpoint κ) (least n : ℕ) :
    let ways := (List.range' least n).reverse.flatMap fun k => (chains m c k).map (·.1)
    ways.Nodup ∧ ways.Pairwise fun js ks => ks.length ≤ js.length := by
  have hdescends : (List.range' least n).reverse.Pairwise fun k l => l < k :=
    List.pairwise_reverse.mpr List.pairwise_lt_range'
  have hlengths {k : ℕ} : ∀ js ∈ (chains m c k).map (·.1), js.length = k :=
    fun js hjs => (mem_map_chains_iff.mp hjs).2
  constructor
  · refine List.nodup_flatMap.mpr ⟨fun k _ => nodup_chains m c k, hdescends.imp ?_⟩
    intro k l hlt js hk hl
    have := hlengths js hk
    have := hlengths js hl
    omega
  · refine List.pairwise_flatMap.mpr ⟨fun k _ => ?_, hdescends.imp ?_⟩
    · refine List.pairwise_of_forall_mem_list fun js hjs ks hks => ?_
      rw [hlengths js hjs, hlengths ks hks]
    · intro k l hlt js hjs ks hks
      rw [hlengths js hjs, hlengths ks hks]
      exact hlt.le

end Matcher

namespace Query

variable {κ : Type} {q : Query κ} {m : Matcher κ}

/-- **A repetition offers every chain once, longer ones first.**  Let the maximum be none, or at
least the minimum.  Then the repetition of a query that compiles does too.  Wherever it starts,
there is a last round within the maximum that reaches something, and the stream is what that round
reaches, then what the one before it reaches, and so on down to the minimum.  So the chains whose
number of rounds is within both bounds are offered, each once, longer ones first. -/
theorem stream_many (hm : q.build = .ok m) {least : ℕ} {most : Option ℕ}
    (hmost : ∀ M ∈ most, least ≤ M) :
    ∃ r, Query.build [.many q least most] = .ok r ∧ ∀ c,
      (∃ K, IsGreatest {k | (∀ M ∈ most, k ≤ M) ∧ m.reached c k ≠ []} K ∧
        (r c).all = (List.range' least (K + 1 - least)).reverse.flatMap (m.reached c)) ∧
      ∃ ways : List (List ℕ), ways.Nodup ∧ (ways.Pairwise fun js ks => ks.length ≤ js.length) ∧
        (∀ js, js ∈ ways ↔
          (m.chainEnd? c js).isSome ∧ least ≤ js.length ∧ ∀ M ∈ most, js.length ≤ M) ∧
        (r c).all.map some = ways.map (m.chainEnd? c) := by
  obtain ⟨ms, hms, rfl⟩ := map_eq_ok_iff.mp hm
  refine ⟨(Matcher.ofSteps ms).repetition least most, ?_, fun c => ?_⟩
  · have hbounds : (most.any fun M => decide (M < least)) = false := by
      rw [Option.any_eq_false]
      exact fun M hM => decide_eq_false (Nat.not_lt.mpr (hmost M hM))
    rw [build_singleton, Step.compile, hbounds, hms]
    rfl
  · obtain ⟨K, hK, hall⟩ :=
      Matcher.all_repetition (built_of_build hm).advances least most c
    obtain ⟨hnodup, hlongest⟩ :=
      Matcher.nodup_flatMap_chains (Matcher.ofSteps ms) c least (K + 1 - least)
    refine ⟨⟨K, hK, hall⟩, _, hnodup, hlongest, fun js => ?_, ?_⟩
    · simp only [List.mem_flatMap, List.mem_reverse, List.mem_range'_1,
        Matcher.mem_map_chains_iff]
      constructor
      · rintro ⟨k, ⟨hleast, hk⟩, hend, rfl⟩
        exact ⟨hend, hleast, fun M hM => le_trans (by omega) (hK.1.1 M hM)⟩
      · rintro ⟨hend, hleast, hwithin⟩
        have := hK.2 ⟨hwithin, Matcher.reached_ne_nil_of_chainEnd? hend⟩
        exact ⟨js.length, ⟨hleast, by omega⟩, hend, rfl⟩
    · rw [hall]
      exact Matcher.map_some_flatMap_reached (Matcher.ofSteps ms) c _

/-- A dash, and perhaps another one. -/
def oneOrTwoDashes : Query Unit :=
  [.token .operator (.exact "-") none, .many [.token .operator (.exact "-") none] 0 (some 1)]

/-- Three dashes that are a whole level. -/
def threeDashes : Node :=
  .tree .root none none <| [0, 1, 2].map fun offset => .token (.make .operator "-" { offset })

/-- Three rounds would take the dashes one by one, but the maximum is two.  Two rounds take one dash
and two, one and one, or two and one; one round takes two dashes or one. -/
theorem stream_many_oneOrTwoDashes :
    ∃ (m r : Matcher Unit) (c : Cursor),
      oneOrTwoDashes.build = .ok m ∧ (∀ M ∈ some 2, 1 ≤ M) ∧
      Query.build [.many oneOrTwoDashes 1 (some 2)] = .ok r ∧
      (Cursor.top threeDashes 0).down = some c ∧ m.reached (.start c ()) 3 ≠ [] ∧
      ((r (.start c ())).all.map fun d => ofLex d.rank) =
        [(2, true), (2, false), (2, true), (2, false), (1, false)] ∧
      (r (.start c ())).all = m.reached (.start c ()) 2 ++ m.reached (.start c ()) 1 := by
  obtain ⟨m, c, hm, hc, hthree, htwo, hranks⟩ : ∃ (m : Matcher Unit) (c : Cursor),
      oneOrTwoDashes.build = .ok m ∧ (Cursor.top threeDashes 0).down = some c ∧
      0 < (m.reached (.start c ()) 3).length ∧ 0 < (m.reached (.start c ()) 2).length ∧
      ((m.reached (.start c ()) 2 ++ m.reached (.start c ()) 1).map fun d => ofLex d.rank) =
        [(2, true), (2, false), (2, true), (2, false), (1, false)] :=
    ⟨_, _, rfl, rfl, by decide +kernel, by decide +kernel, by decide +kernel⟩
  have hmost : ∀ M ∈ some 2, 1 ≤ M := by decide
  obtain ⟨r, hr, hstream⟩ := stream_many hm hmost
  obtain ⟨⟨K, hK, hall⟩, -⟩ := hstream (.start c ())
  have hlast : K = 2 :=
    hK.unique ⟨⟨by simp, List.ne_nil_of_length_pos htwo⟩, fun k hk => hk.1 2 rfl⟩
  have hrounds :
      (r (.start c ())).all = m.reached (.start c ()) 2 ++ m.reached (.start c ()) 1 := by
    rw [hall, hlast]
    simp [List.range']
  exact ⟨m, r, c, hm, hmost, hr, hc, List.ne_nil_of_length_pos hthree, hrounds ▸ hranks, hrounds⟩

end Query

end Nesting
