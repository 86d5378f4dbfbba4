import Mathlib.Data.Prod.Lex
import Nesting.Proofs.Cursor.Moves
import Nesting.Proofs.Query.Stream

/-! # Progress of a query

A match never goes back.  `Checkpoint.Precedes` says how the checkpoint of a match lies to the one
that the match started at: on the same level, not before it, and marked as the end of the level
only on the last sibling.  So its `rank` does not fall, and it rises exactly if something was
consumed (`Precedes.consumedSince_iff`).

Every way to combine steps keeps this (`Matcher.Advances`), so it holds of every query that
compiles (`Matcher.Built.advances`). -/

namespace Nesting

/-! ### Checkpoints -/

namespace Checkpoint

variable {κ : Type}

/-- How far a checkpoint is on its level: the index of its node, and whether the level ends
there. -/
def rank (c : Checkpoint κ) : ℕ ×ₗ Bool := toLex (c.cursor.index?.getD 0, c.endOfLevel)

/-- The second checkpoint is on the level of the first one, and not before it. -/
structure Precedes (c d : Checkpoint κ) : Prop where
  sibling : ∃ n, Cursor.follow?.child n c.cursor = some d.cursor
  /-- Nothing comes after the end of a level. -/
  stays : c.endOfLevel → d.cursor = c.cursor ∧ d.endOfLevel
  last : d.endOfLevel → c.endOfLevel = false → d.cursor.right = none

theorem Precedes.refl (c : Checkpoint κ) : c.Precedes c where
  sibling := ⟨0, rfl⟩
  stays h := ⟨rfl, h⟩
  last h h' := absurd (h.symm.trans h') nofun

theorem Precedes.trans {c d e : Checkpoint κ} (hcd : c.Precedes d) (hde : d.Precedes e) :
    c.Precedes e where
  sibling := by
    obtain ⟨m, hm⟩ := hcd.sibling
    obtain ⟨n, hn⟩ := hde.sibling
    exact ⟨m + n, Cursor.child_add hm hn⟩
  stays hc := by
    obtain ⟨hd, hdend⟩ := hcd.stays hc
    obtain ⟨he, heend⟩ := hde.stays hdend
    exact ⟨he.trans hd, heend⟩
  last he hc := by
    cases hd : d.endOfLevel with
    | false => exact hde.last he hd
    | true => exact (hde.stays hd).1 ▸ hcd.last hd hc

/-- A checkpoint on a later sibling is somewhere else, and further. -/
theorem Precedes.cases {c d : Checkpoint κ} (h : c.Precedes d) :
    (d.cursor = c.cursor ∧ (c.endOfLevel → d.endOfLevel)) ∨
      (c.endOfLevel = false ∧ d.cursor.isSamePosition c.cursor = false ∧
        c.cursor.index?.getD 0 < d.cursor.index?.getD 0) := by
  obtain ⟨n, hn⟩ := h.sibling
  cases n with
  | zero => exact .inl ⟨(Option.some.inj hn).symm, fun hc => (h.stays hc).2⟩
  | succ n =>
      obtain ⟨parent, i, -, -, hc, hd⟩ := Cursor.path_child hn
      refine .inr ⟨?_, Cursor.isSamePosition_of_child hn, ?_⟩
      · by_contra hend
        rw [(h.stays (Bool.eq_true_of_not_eq_false hend)).1, hc] at hd
        have := Option.some.inj hd
        omega
      · rw [hc, hd]
        show i < i + (n + 1)
        omega

theorem Precedes.rank_le {c d : Checkpoint κ} (h : c.Precedes d) : c.rank ≤ d.rank := by
  rw [rank, rank, Prod.Lex.toLex_le_toLex]
  rcases h.cases with ⟨hcursor, hend⟩ | ⟨-, -, hindex⟩
  · exact .inr ⟨by rw [hcursor], Bool.le_iff_imp.mpr hend⟩
  · exact .inl hindex

/-- Something is consumed exactly if the rank rises. -/
theorem Precedes.consumedSince_iff {c d : Checkpoint κ} (h : c.Precedes d) :
    d.consumedSince c ↔ c.rank < d.rank := by
  rw [rank, rank, Prod.Lex.toLex_lt_toLex, consumedSince]
  rcases h.cases with ⟨hcursor, -⟩ | ⟨-, hsame, hindex⟩
  · rw [hcursor, Cursor.isSamePosition_self]
    cases c.endOfLevel <;> cases d.endOfLevel <;> simp
  · rw [hsame]
    exact iff_of_true rfl (.inl hindex)

/-! ### Moves of a checkpoint -/

theorem child_of_skipNodes {skip : Node → Bool} {ns : List Node} {c d : Cursor}
    (h : skipNodes skip ns c = some d) : ∃ n, Cursor.follow?.child n c = some d := by
  induction ns generalizing c with
  | nil =>
      rw [skipNodes] at h
      split at h
      · cases h
      · exact ⟨0, h⟩
  | cons n ns ih =>
      rw [skipNodes] at h
      split at h
      · obtain ⟨c', hright, h⟩ := Option.bind_eq_some_iff.mp h
        obtain ⟨n, hn⟩ := ih h
        exact ⟨n + 1, by rw [Cursor.child_succ, hright]; exact hn⟩
      · exact ⟨0, h⟩

theorem precedes_of_seekBy {skip : Node → Bool} {c d : Checkpoint κ}
    (h : c.seekBy skip = some d) : c.Precedes d ∧ d.endOfLevel = false := by
  unfold seekBy at h
  split at h
  · cases h
  · next hend =>
    have hend := Bool.eq_false_of_not_eq_true hend
    obtain ⟨cursor, hskip, rfl⟩ := Option.map_eq_some_iff.mp h
    refine ⟨⟨child_of_skipNodes hskip, ?_, ?_⟩, hend⟩
    · exact fun h => absurd (h.symm.trans hend) nofun
    · exact fun h _ => absurd (h.symm.trans hend) nofun

theorem precedes_consume {c : Checkpoint κ} (hend : c.endOfLevel = false) (context : κ) :
    c.Precedes (c.consume context) := by
  have hstays {d : Checkpoint κ} : c.endOfLevel → d.cursor = c.cursor ∧ d.endOfLevel :=
    fun h => absurd (h.symm.trans hend) nofun
  unfold consume
  cases hright : c.cursor.right with
  | none => exact ⟨⟨0, rfl⟩, hstays, fun _ _ => hright⟩
  | some cursor => exact ⟨⟨1, by rw [Cursor.child_succ, hright]; rfl⟩, hstays, nofun⟩

end Checkpoint

/-! ### Steps -/

namespace Matcher

variable {κ : Type}

/-- No match is before the checkpoint that it starts at. -/
def Advances (m : Matcher κ) : Prop := ∀ c, ∀ d ∈ (m c).all, c.Precedes d

theorem advances_token (kind : TokenKind) (test : ValueTest) (handler : Option (TokenHandler κ)) :
    (token kind test handler).Advances := by
  intro c d hd
  unfold token at hd
  dsimp only at hd
  split at hd
  · cases hd
  · next at_ hseek =>
    have hseek : c.Precedes at_ ∧ at_.endOfLevel = false := by
      split at hseek
      · exact Checkpoint.precedes_of_seekBy hseek
      · exact Checkpoint.precedes_of_seekBy hseek
    split at hd
    · split at hd
      · obtain rfl := List.mem_singleton.mp hd
        exact hseek.1.trans (Checkpoint.precedes_consume hseek.2 _)
      · cases hd
    · cases hd

theorem advances_levelStart : (levelStart : Matcher κ).Advances := by
  intro c d hd
  unfold levelStart at hd
  dsimp only at hd
  split at hd
  · cases hd
  · next hend =>
    split at hd
    · obtain rfl := List.mem_singleton.mp hd
      exact Checkpoint.precedes_consume (Bool.eq_false_of_not_eq_true hend) _
    · cases hd

theorem advances_levelEnd : (levelEnd : Matcher κ).Advances := by
  intro c d hd
  unfold levelEnd at hd
  split at hd
  · obtain rfl := List.mem_singleton.mp hd
    exact .refl _
  · split at hd
    · cases hd
    · next at_ hseek =>
      dsimp only at hd
      split at hd
      · obtain rfl := List.mem_singleton.mp hd
        exact (Checkpoint.precedes_of_seekBy hseek).1
      · cases hd

theorem advances_act (handler : NodeHandler κ) : (act handler).Advances := by
  intro c d hd
  obtain rfl := List.mem_singleton.mp hd
  exact ⟨⟨0, rfl⟩, fun h => ⟨rfl, h⟩, fun h h' => absurd (h.symm.trans h') nofun⟩

theorem advances_treeWith (name : String) (accepts : Tree → Bool) (handlers : TreeHandlers κ)
    (inside : Tree → Cursor → κ → List Event × Option κ) :
    (treeWith name accepts handlers inside).Advances := by
  intro c d hd
  unfold treeWith at hd
  split at hd
  · cases hd
  · next at_ hseek =>
    obtain ⟨hprecedes, hend⟩ := Checkpoint.precedes_of_seekBy hseek
    dsimp only at hd
    split at hd
    · cases hd
    · split at hd
      · split at hd
        · cases hd
        · obtain rfl := List.mem_singleton.mp hd
          exact hprecedes.trans (Checkpoint.precedes_consume hend _)
      · cases hd

theorem advances_through {ms : List (Matcher κ)} (h : ∀ m ∈ ms, m.Advances) (c : Checkpoint κ) :
    ∀ d ∈ through ms c, c.Precedes d := by
  induction ms generalizing c with
  | nil =>
      intro d hd
      obtain rfl := List.mem_singleton.mp hd
      exact .refl _
  | cons m ms ih =>
      intro e he
      obtain ⟨hm, hms⟩ := List.forall_mem_cons.mp h
      obtain ⟨d, hd, he⟩ := List.mem_flatMap.mp he
      exact (hm c d hd).trans (ih hms d e he)

theorem advances_sequence {ms : List (Matcher κ)} (h : ∀ m ∈ ms, m.Advances) :
    (sequence ms).Advances := by
  intro c d hd
  rw [all_sequence] at hd
  exact advances_through h c d hd

theorem advances_alternatives {ms : List (Matcher κ)} (h : ∀ m ∈ ms, m.Advances) :
    (alternatives ms).Advances := by
  intro c d hd
  rw [all_alternatives] at hd
  obtain ⟨m, hm, hd⟩ := List.mem_filterMap.mp hd
  exact h m hm c d (List.mem_of_mem_head? hd)

theorem mem_round_iff {m : Matcher κ} {origins : List (Checkpoint κ)} {d : Checkpoint κ} :
    d ∈ (round m origins).2 ↔ ∃ c ∈ origins, d ∈ (m c).all ∧ d.consumedSince c := by
  simp only [round, Matches.drain_eq, List.mem_flatMap, List.mem_reverse, List.mem_map]
  constructor
  · rintro ⟨_, ⟨c, hc, rfl⟩, hd⟩
    exact ⟨c, hc, List.mem_filter.mp hd⟩
  · rintro ⟨c, hc, hd⟩
    exact ⟨_, ⟨c, hc, rfl⟩, List.mem_filter.mpr hd⟩

theorem precedes_of_mem_rounds {m : Matcher κ} (hm : m.Advances) {c : Checkpoint κ} {fuel : ℕ}
    {most : Option ℕ} {origins : List (Checkpoint κ)} (h : ∀ o ∈ origins, c.Precedes o) :
    ∀ ds ∈ (rounds m fuel most origins).2, ∀ d ∈ ds, c.Precedes d := by
  induction fuel, most, origins using rounds.induct m with
  | case1 => simp [rounds]
  | case2 => simp [rounds]
  | case3 fuel most origins hmost log reached hround hempty => simp [rounds, hround, hempty]
  | case4 fuel most origins hmost log reached hround hreached later more hlater ih =>
      have hreaches : ∀ d ∈ reached, c.Precedes d := by
        intro d hd
        rw [show reached = (round m origins).2 by rw [hround]] at hd
        obtain ⟨o, ho, hd, -⟩ := mem_round_iff.mp hd
        exact (h o ho).trans (hm o d hd)
      have ih := ih hreaches
      rw [hlater] at ih
      rw [rounds, hround]
      · dsimp only
        rw [if_neg hreached, hlater]
        exact List.forall_mem_cons.mpr ⟨hreaches, ih⟩
      · exact hmost

theorem advances_repetition {m : Matcher κ} (hm : m.Advances) (least : ℕ) (most : Option ℕ) :
    (repetition m least most).Advances := by
  intro c d hd
  unfold repetition at hd
  rw [Matches.all_release] at hd
  obtain ⟨ds, hds, hd⟩ := List.mem_flatten.mp hd
  rcases List.mem_cons.mp (List.mem_of_mem_drop (List.mem_reverse.mp hds)) with rfl | hds
  · obtain rfl := List.mem_singleton.mp hd
    exact .refl _
  · refine precedes_of_mem_rounds hm ?_ ds hds d hd
    intro o ho
    obtain rfl := List.mem_singleton.mp ho
    exact .refl _

/-! ### Compiled queries -/

/-- The steps that compiled queries are made of. -/
inductive Built : Matcher κ → Prop
  | token (kind test handler) : Built (token kind test handler)
  | levelStart : Built levelStart
  | levelEnd : Built levelEnd
  | act (handler) : Built (act handler)
  | sequence {ms} : (∀ m ∈ ms, Built m) → Built (sequence ms)
  | alternatives {ms} : (∀ m ∈ ms, Built m) → Built (alternatives ms)
  | repetition {m} (least most) : Built m → Built (repetition m least most)
  | tree (test limits handlers) : Built (tree test limits none handlers)
  | treeSearch {m} (test limits handlers) : Built m → Built (tree test limits (some m) handlers)
  | string (test handler) : Built (string test handler)
  | pieces {ps} (handlers) : (∀ m, .template m ∈ ps → Built m) → Built (pieces ps handlers)

theorem Built.ofSteps {ms : List (Matcher κ)} (h : ∀ m ∈ ms, Built m) : Built (ofSteps ms) := by
  unfold Matcher.ofSteps
  split
  · exact h _ List.mem_cons_self
  · exact .sequence h

/-- Whatever a compiled query is made of, its matches do not go back. -/
theorem Built.advances {m : Matcher κ} (h : Built m) : m.Advances := by
  induction h with
  | token kind test handler => exact advances_token kind test handler
  | levelStart => exact advances_levelStart
  | levelEnd => exact advances_levelEnd
  | act handler => exact advances_act handler
  | sequence _ ih => exact advances_sequence ih
  | alternatives _ ih => exact advances_alternatives ih
  | repetition least most _ ih => exact advances_repetition ih least most
  | tree => exact advances_treeWith _ _ _ _
  | treeSearch => exact advances_treeWith _ _ _ _
  | string => exact advances_treeWith _ _ _ _
  | pieces => exact advances_treeWith _ _ _ _

end Matcher

namespace Step

variable {κ : Type}

mutual

theorem built_of_compile : ∀ {s : Step κ} {m : Matcher κ}, s.compile = .ok m → m.Built
  | .token kind pattern handler, m, h => by
    obtain ⟨test, -, h⟩ := bind_eq_ok_iff.mp h
    cases h
    exact .token kind test handler
  | .many body least most, m, h => by
    rw [compile] at h
    split at h
    · cases h
    · obtain ⟨ms, hms, h⟩ := bind_eq_ok_iff.mp h
      cases h
      exact .repetition least most (.ofSteps (built_of_compileSteps hms))
  | .alt branches, m, h => by
    rw [compile] at h
    split at h
    · cases h
    · obtain ⟨ms, hms, h⟩ := bind_eq_ok_iff.mp h
      cases h
      exact .alternatives (built_of_compileBranches hms)
  | .tree test limits none handlers, m, h => by
    cases h
    exact .tree test limits handlers
  | .tree test limits (some query) handlers, m, h => by
    obtain ⟨ms, hms, h⟩ := bind_eq_ok_iff.mp h
    cases h
    exact .treeSearch test limits handlers (.ofSteps (built_of_compileSteps hms))
  | .string pattern handler, m, h => by
    obtain ⟨test, -, h⟩ := bind_eq_ok_iff.mp h
    cases h
    exact .string test handler
  | .parts sources handlers, m, h => by
    obtain ⟨ps, hps, h⟩ := bind_eq_ok_iff.mp h
    cases h
    exact .pieces handlers (built_of_compileParts hps)
  | .levelStart, m, h => by
    cases h
    exact .levelStart
  | .levelEnd, m, h => by
    cases h
    exact .levelEnd
  | .act handler, m, h => by
    cases h
    exact .act handler

theorem built_of_compileSteps : ∀ {q : List (Step κ)} {ms : List (Matcher κ)},
    compileSteps q = .ok ms → ∀ m ∈ ms, m.Built
  | [], ms, h => by
    cases h
    simp
  | s :: q, ms, h => by
    obtain ⟨m, hm, h⟩ := bind_eq_ok_iff.mp h
    obtain ⟨ms, hms, h⟩ := bind_eq_ok_iff.mp h
    cases h
    exact List.forall_mem_cons.mpr ⟨built_of_compile hm, built_of_compileSteps hms⟩

theorem built_of_compileBranches : ∀ {qs : List (List (Step κ))} {ms : List (Matcher κ)},
    compileBranches qs = .ok ms → ∀ m ∈ ms, m.Built
  | [], ms, h => by
    cases h
    simp
  | q :: qs, ms, h => by
    obtain ⟨m, hm, h⟩ := bind_eq_ok_iff.mp h
    obtain ⟨ms, hms, h⟩ := bind_eq_ok_iff.mp h
    cases h
    exact List.forall_mem_cons.mpr
      ⟨.ofSteps (built_of_compileSteps hm), built_of_compileBranches hms⟩

theorem built_of_compileParts : ∀ {sources : List (Part κ)} {ps : List (Matcher.Piece κ)},
    compileParts sources = .ok ps → ∀ m, .template m ∈ ps → m.Built
  | [], ps, h => by
    cases h
    simp
  | source :: sources, ps, h => by
    obtain ⟨p, hp, h⟩ := bind_eq_ok_iff.mp h
    obtain ⟨ps, hps, h⟩ := bind_eq_ok_iff.mp h
    cases h
    intro m hm
    rcases List.mem_cons.mp hm with rfl | hm
    · exact built_of_compilePart hp m rfl
    · exact built_of_compileParts hps m hm

theorem built_of_compilePart : ∀ {source : Part κ} {p : Matcher.Piece κ},
    compilePart source = .ok p → ∀ m, p = .template m → m.Built
  | .content pattern handler, p, h => by
    obtain ⟨test, -, h⟩ := bind_eq_ok_iff.mp h
    cases h
    nofun
  | .template query, p, h => by
    obtain ⟨ms, hms, h⟩ := bind_eq_ok_iff.mp h
    cases h
    intro m hm
    cases hm
    exact .ofSteps (built_of_compileSteps hms)

end

end Step

namespace Query

variable {κ : Type} {q : Query κ} {m : Matcher κ}

theorem built_of_build (h : q.build = .ok m) : m.Built := by
  obtain ⟨ms, hms, rfl⟩ := map_eq_ok_iff.mp h
  exact .ofSteps (Step.built_of_compileSteps hms)

theorem built_of_compile (h : q.compile = .ok m) : m.Built := by
  unfold compile at h
  split at h
  · exact built_of_build h
  · exact built_of_build h

end Query

end Nesting
