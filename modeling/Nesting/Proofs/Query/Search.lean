import Mathlib.Data.List.TakeWhile
import Nesting.Proofs.Cursor.Order
import Nesting.Proofs.Query.Progress

/-! # The walk of a search

The positions of a search are the descendants of its tree in document order, as deep as the limits
allow (`Matcher.positions`).  The walk over them is a recursion on their list
(`Matcher.attempts`): the query is attempted at the first position, and what its match consumed is
dropped.  The search has no list: it descends and climbs from one position to the next.  Where it
is determines the positions that are left (`Matcher.positionsFrom`), and each of its moves takes
from them what the walk takes (`positionsAfter_eq`, `resume_eq`).

So a search is the walk (`Query.search_walks`), which attempts positions in document order, leaves
out only what is inside a match or behind the last one, and with a limit makes the first matches
that it makes without. -/

namespace Nesting

/-! ### Positions -/

/-- A cursor lies as deep as a search of a tree at a depth goes, or less. -/
def SearchLimits.admits (limits : SearchLimits) (base : ℕ) (c : Cursor) : Bool :=
  limits.depth = 0 || c.depth - base ≤ limits.depth

theorem SearchLimits.admits_iff {limits : SearchLimits} {base : ℕ} {c : Cursor} :
    limits.admits base c ↔ limits.depth = 0 ∨ c.depth - base ≤ limits.depth := by
  rw [admits, Bool.or_eq_true, decide_eq_true_eq, decide_eq_true_eq]

namespace Matcher

variable {κ : Type}

/-- The positions of a search, in document order. -/
def positions (limits : SearchLimits) (root : Cursor) : List Cursor :=
  root.descendants.filter (limits.admits root.depth)

/-- The positions after one of them. -/
def positionsAfter (limits : SearchLimits) (base : ℕ) (c : Cursor) : List Cursor :=
  (c.descendants ++ Cursor.following (c.depth - base) c).filter (limits.admits base)

/-- The positions of a search that is at a position, or at its end. -/
def positionsFrom (limits : SearchLimits) (base : ℕ) : Option Cursor → List Cursor
  | none => []
  | some c => c :: positionsAfter limits base c

/-- A cursor can be a position of a search of a tree at a depth. -/
structure IsPlace (limits : SearchLimits) (base : ℕ) (c : Cursor) : Prop where
  below : base < c.depth
  admitted : limits.admits base c

/-- A search is at a position, or at its end. -/
def AtPlace (limits : SearchLimits) (base : ℕ) (pos : Option Cursor) : Prop :=
  ∀ c, pos = some c → IsPlace limits base c

section Moves

variable {limits : SearchLimits} {base : ℕ}

theorem nextAfter_of_le {c : Cursor} (h : c.depth ≤ base) (fuel : ℕ) :
    nextAfter base fuel c = none := by
  cases fuel with
  | zero => rfl
  | succ fuel => exact if_pos h

/-- Climbing finds the first of the cursors that follow. -/
theorem following_nextAfter {n fuel : ℕ} {c : Cursor} (hdepth : c.depth = base + n)
    (hfuel : n ≤ fuel) :
    (∀ d, nextAfter base fuel c = some d → base < d.depth ∧ d.depth ≤ c.depth) ∧
    Cursor.following n c = (nextAfter base fuel c).elim [] fun d =>
      d :: (d.descendants ++ Cursor.following (d.depth - base) d) := by
  induction n generalizing fuel c with
  | zero =>
      rw [nextAfter_of_le (by omega)]
      exact ⟨nofun, rfl⟩
  | succ n ih =>
      obtain ⟨fuel, rfl⟩ : ∃ f, fuel = f + 1 := ⟨fuel - 1, by omega⟩
      rw [nextAfter, if_neg (by omega), Cursor.following]
      cases hright : c.right with
      | some d =>
          have hd := Cursor.depth_right hright
          dsimp only
          refine ⟨fun d' h => ?_, ?_⟩
          · cases h
            exact ⟨by omega, by omega⟩
          · rw [Cursor.forward_of_right hright, ← Cursor.up_right hright, Option.elim_some,
              show d.depth - base = n + 1 by omega, Cursor.following, List.append_assoc]
            rfl
      | none =>
          obtain ⟨p, hup⟩ := Cursor.exists_up (c := c) (by omega)
          have hp := Cursor.depth_up hup
          obtain ⟨hle, hrest⟩ := @ih fuel p (by omega) (by omega)
          dsimp only
          rw [hup, Cursor.forward_eq_nil hright]
          refine ⟨fun d h => ?_, hrest⟩
          have := hle d h
          exact ⟨this.1, by omega⟩

/-- The positions that follow a cursor and all below it. -/
theorem filter_following {c : Cursor} (hbase : base ≤ c.depth) (hc : limits.admits base c) :
    AtPlace limits base (skipOver base c) ∧
    (Cursor.following (c.depth - base) c).filter (limits.admits base) =
      positionsFrom limits base (skipOver base c) := by
  have hlevels : c.depth = base + (c.depth - base) := by omega
  obtain ⟨hdepth, heq⟩ := following_nextAfter hlevels (Nat.sub_le c.depth base)
  have admitted (d : Cursor) (hd : nextAfter base c.depth c = some d) : limits.admits base d := by
    have := hdepth d hd
    rw [SearchLimits.admits_iff] at hc ⊢
    omega
  refine ⟨fun d hd => ⟨(hdepth d hd).1, admitted d hd⟩, ?_⟩
  rw [heq, skipOver]
  cases hd : nextAfter base c.depth c with
  | none => rfl
  | some d => exact List.filter_cons_of_pos (admitted d hd)

/-- The step of a search goes to the first of the positions after the one that it is at. -/
theorem positionsAfter_eq {c : Cursor} (hbase : base ≤ c.depth) (hc : limits.admits base c) :
    AtPlace limits base (nextInOrder limits base c) ∧
    positionsAfter limits base c = positionsFrom limits base (nextInOrder limits base c) := by
  obtain ⟨hskip, hfollowing⟩ := filter_following hbase hc
  have without (h : c.descendants.filter (limits.admits base) = []) :
      positionsAfter limits base c = positionsFrom limits base (skipOver base c) := by
    rw [positionsAfter, List.filter_append, h, hfollowing, List.nil_append]
  unfold nextInOrder
  split
  · next hdeeper =>
    simp only [Bool.or_eq_true, decide_eq_true_eq] at hdeeper
    cases hdown : c.down with
    | none =>
        rw [Option.none_or]
        exact ⟨hskip, without (by rw [Cursor.descendants_eq_nil hdown]; rfl)⟩
    | some d =>
        have hdepth := Cursor.depth_down hdown
        have hd : limits.admits base d := by
          rw [SearchLimits.admits_iff]
          omega
        rw [Option.some_or]
        refine ⟨fun d' h => ?_, ?_⟩
        · cases h
          exact ⟨by omega, hd⟩
        · rw [positionsAfter, positionsFrom, positionsAfter, Cursor.descendants_of_down hdown,
            show d.depth - base = (c.depth - base) + 1 by omega, Cursor.following,
            Cursor.up_of_down hdown, Option.elim_some, List.append_assoc, List.cons_append,
            List.filter_cons_of_pos hd]
  · next hdeepest =>
    refine ⟨hskip, without ?_⟩
    rw [List.filter_eq_nil_iff]
    intro x hx
    obtain ⟨i, q, hpath⟩ := Cursor.path_of_mem_descendants hx
    have hdepth : c.depth < x.depth := by
      rw [← Cursor.length_path, ← Cursor.length_path, hpath, List.length_append, List.length_cons]
      omega
    simp only [Bool.or_eq_true, decide_eq_true_eq] at hdeepest
    rw [SearchLimits.admits_iff]
    omega

theorem positions_eq (limits : SearchLimits) (root : Cursor) :
    AtPlace limits root.depth (nextInOrder limits root.depth root) ∧
    positions limits root =
      positionsFrom limits root.depth (nextInOrder limits root.depth root) := by
  have hroot : limits.admits root.depth root := by
    rw [SearchLimits.admits_iff]
    omega
  obtain ⟨hplace, heq⟩ := positionsAfter_eq (Nat.le_refl _) hroot
  refine ⟨hplace, ?_⟩
  rw [← heq, positionsAfter, Nat.sub_self, Cursor.following, List.append_nil]
  rfl

/-! ### Siblings ahead -/

theorem IsPlace.of_depth_eq {c d : Cursor} (hc : IsPlace limits base c) (h : d.depth = c.depth) :
    IsPlace limits base d := by
  refine ⟨h ▸ hc.below, ?_⟩
  rw [SearchLimits.admits_iff, h]
  exact SearchLimits.admits_iff.mp hc.admitted

theorem positionsAfter_right {c d : Cursor} (hc : IsPlace limits base c) (h : c.right = some d) :
    positionsAfter limits base c =
      c.descendants.filter (limits.admits base) ++ d :: positionsAfter limits base d := by
  have hdepth := Cursor.depth_right h
  have hd := (hc.of_depth_eq hdepth).admitted
  have hbase := hc.below
  obtain ⟨n, hn⟩ : ∃ n, c.depth - base = n + 1 := ⟨c.depth - base - 1, by omega⟩
  rw [positionsAfter, positionsAfter, hdepth, hn, Cursor.following, Cursor.following,
    Cursor.forward_of_right h, Cursor.up_right h, List.filter_append, List.append_assoc,
    List.cons_append, List.filter_cons_of_pos hd]

/-- A sibling ahead is one of the positions that are left. -/
theorem dropWhile_sibling {n : ℕ} {c d : Cursor} (hc : IsPlace limits base c)
    (h : Cursor.follow?.child (n + 1) c = some d) :
    (positionsAfter limits base c).dropWhile (fun x => x.path ≠ d.path) =
      d :: positionsAfter limits base d := by
  have deeper {c : Cursor} (hdepth : d.depth = c.depth) :
      ∀ x ∈ c.descendants.filter (limits.admits base), decide (x.path ≠ d.path) := by
    intro x hx
    obtain ⟨i, q, hpath⟩ := Cursor.path_of_mem_descendants (List.mem_of_mem_filter hx)
    refine decide_eq_true fun heq => ?_
    have hlength := congrArg List.length heq
    rw [hpath, List.length_append, Cursor.length_path, Cursor.length_path, hdepth,
      List.length_cons] at hlength
    omega
  induction n generalizing c with
  | zero =>
      obtain ⟨d', hright, hd'⟩ := Option.bind_eq_some_iff.mp h
      cases hd'
      rw [positionsAfter_right hc hright,
        List.dropWhile_append_of_pos (deeper (Cursor.depth_right hright))]
      exact List.dropWhile_cons_of_neg (by simp)
  | succ n ih =>
      obtain ⟨d', hright, hd'⟩ := Option.bind_eq_some_iff.mp h
      have hne := (Cursor.path_ne_of_child hd').symm
      rw [positionsAfter_right hc hright,
        List.dropWhile_append_of_pos (deeper (Cursor.depth_child h)),
        List.dropWhile_cons_of_pos (by simpa using hne)]
      exact ih (hc.of_depth_eq (Cursor.depth_right hright)) hd'

/-- Behind a level the positions go on where climbing from its last sibling leads. -/
theorem dropWhile_level {n : ℕ} {c d : Cursor} (hc : IsPlace limits base c)
    (h : Cursor.follow?.child n c = some d) (hlast : d.right = none) :
    AtPlace limits base (skipOver base d) ∧
    (positionsAfter limits base c).dropWhile (fun x => d.path.dropLast.isPrefixOf x.path) =
      positionsFrom limits base (skipOver base d) := by
  have inside {c : Cursor} (hparent : d.path.dropLast = c.path.dropLast) :
      ∀ x ∈ c.descendants.filter (limits.admits base), d.path.dropLast.isPrefixOf x.path := by
    intro x hx
    obtain ⟨i, q, hpath⟩ := Cursor.path_of_mem_descendants (List.mem_of_mem_filter hx)
    rw [List.isPrefixOf_iff_prefix, hparent, hpath]
    exact (List.dropLast_prefix _).trans (List.prefix_append _ _)
  induction n generalizing c with
  | zero =>
      cases h
      have hbase := hc.below
      obtain ⟨hplace, heq⟩ := filter_following (Nat.le_of_lt hbase) hc.admitted
      have behind : ∀ x ∈ Cursor.following (d.depth - base) d, ¬ d.path.dropLast <+: x.path := by
        obtain ⟨m, hm⟩ : ∃ m, d.depth - base = m + 1 := ⟨d.depth - base - 1, by omega⟩
        obtain ⟨p, hup⟩ := Cursor.exists_up (c := d) (by omega)
        obtain ⟨i, hpath⟩ := Cursor.path_up hup
        rw [hm, Cursor.following, Cursor.forward_eq_nil hlast, hup, hpath, List.dropLast_concat]
        exact fun x => Cursor.not_prefix_of_mem_following
      refine ⟨hplace, ?_⟩
      rw [positionsAfter, List.filter_append, List.dropWhile_append_of_pos (inside rfl), ← heq,
        List.dropWhile_eq_self_iff]
      intro hlength hprefix
      exact behind _ (List.mem_of_mem_filter (List.getElem_mem hlength))
        (List.isPrefixOf_iff_prefix.mp hprefix)
  | succ n ih =>
      obtain ⟨d', hright, hd'⟩ := Option.bind_eq_some_iff.mp h
      rw [positionsAfter_right hc hright,
        List.dropWhile_append_of_pos (inside (Cursor.dropLast_path_child h)),
        List.dropWhile_cons_of_pos]
      · exact ih (hc.of_depth_eq (Cursor.depth_right hright)) hd'
      · rw [List.isPrefixOf_iff_prefix, Cursor.dropLast_path_child hd']
        exact List.dropLast_prefix _

end Moves

/-! ### The walk -/

/-- The positions that are left after a match at a position: those from the sibling at which it
ends on, or behind its level if it ends with that. -/
def remaining (c : Cursor) (d : Checkpoint κ) (later : List Cursor) : List Cursor :=
  if d.endOfLevel then later.dropWhile fun x => d.cursor.path.dropLast.isPrefixOf x.path
  else if d.cursor.path = c.path then later
  else later.dropWhile fun x => x.path ≠ d.cursor.path

theorem remaining_suffix (c : Cursor) (d : Checkpoint κ) (later : List Cursor) :
    remaining c d later <:+ later := by
  unfold remaining
  split
  · exact List.dropWhile_suffix _
  · split
    · exact List.suffix_rfl
    · exact List.dropWhile_suffix _

/-- An attempt of a query at a position. -/
structure Attempt (κ : Type) where
  cursor : Cursor
  /-- The context so far. -/
  context : κ
  log : List Event
  /-- The first match. -/
  found : Option (Checkpoint κ)

/-- The attempt at a position, after a number of matches. -/
def attempt (m : Matcher κ) (base count : ℕ) (c : Cursor) (context : κ) : Attempt κ :=
  let matches_ := m (.start c context)
  { cursor := c
    context
    log := .searchVisit (c.depth - base) c.node :: matches_.firstLog ++
      if matches_.first?.isSome then [.searchMatch (count + 1)] else []
    found := matches_.first? }

/-- The attempts at some positions, one after the other, until the last match that is wanted; zero
stands for no limit. -/
def attempts (m : Matcher κ) (base most : ℕ) : List Cursor → ℕ → κ → List (Attempt κ)
  | [], _, _ => []
  | c :: later, count, context =>
    let a := attempt m base count c context
    match a.found with
    | none => a :: attempts m base most later count context
    | some d =>
      if most ≠ 0 && most ≤ count + 1 then [a]
      else a :: attempts m base most (remaining c d later) (count + 1) d.context
termination_by places => places.length
decreasing_by
  · simp
  · exact Nat.lt_succ_of_le (remaining_suffix c d later).length_le

/-- The matches of attempts. -/
def matched (as : List (Attempt κ)) : List (Checkpoint κ) := as.filterMap (·.found)

/-- What attempts add to the result of a search. -/
def collect (as : List (Attempt κ)) (count : ℕ) (context : κ) : SearchResult κ :=
  { log := as.flatMap (·.log)
    count := count + (matched as).length
    context := (matched as).getLast?.elim context (·.context) }

/-- The loop of a search, which has no bound on its turns. -/
inductive Walked (m : Matcher κ) (limits : SearchLimits) (base : ℕ) :
    Option Cursor → ℕ → κ → SearchResult κ → Prop
  /-- No position is left. -/
  | done {count context} : Walked m limits base none count context ⟨[], count, context⟩
  /-- The query has no match. -/
  | miss {c count context r} : (m (.start c context)).first? = none →
      Walked m limits base (nextInOrder limits base c) count context r →
      Walked m limits base (some c) count context
        { r with log := (attempt m base count c context).log ++ r.log }
  /-- The match is the last one that is wanted. -/
  | stop {c count context d} : (m (.start c context)).first? = some d →
      limits.count ≠ 0 → limits.count ≤ count + 1 →
      Walked m limits base (some c) count context
        ⟨(attempt m base count c context).log, count + 1, d.context⟩
  /-- The walk goes on after the match. -/
  | hit {c count context d r} : (m (.start c context)).first? = some d →
      ¬ (limits.count ≠ 0 ∧ limits.count ≤ count + 1) →
      Walked m limits base (resume limits base c d) (count + 1) d.context r →
      Walked m limits base (some c) count context
        { r with log := (attempt m base count c context).log ++ r.log }

section Walks

variable {m : Matcher κ} {limits : SearchLimits} {base : ℕ}

/-- The first match of a query is one of its matches. -/
theorem precedes_of_first? (hm : m.Advances) {c d : Checkpoint κ} (h : (m c).first? = some d) :
    c.Precedes d := by
  refine hm c d ?_
  cases hfound : m c with
  | none log =>
      rw [hfound] at h
      cases h
  | last log d' =>
      rw [hfound] at h
      cases h
      exact List.mem_cons_self
  | more log d' rest =>
      rw [hfound] at h
      cases h
      exact List.mem_cons_self

/-- After a match the search goes to the first of the positions that are left. -/
theorem resume_eq {c : Cursor} {context : κ} {d : Checkpoint κ} (hc : IsPlace limits base c)
    (h : (Checkpoint.start c context).Precedes d) :
    AtPlace limits base (resume limits base c d) ∧
    remaining c d (positionsAfter limits base c) =
      positionsFrom limits base (resume limits base c d) := by
  obtain ⟨n, hn⟩ := h.sibling
  have hn : Cursor.follow?.child n c = some d.cursor := hn
  unfold resume remaining
  split
  · next hend => exact dropWhile_level hc hn (h.last hend rfl)
  · cases n with
    | zero =>
        have hcursor : d.cursor = c := (Option.some.inj hn).symm
        rw [hcursor, Cursor.isSamePosition_self, if_pos rfl, if_pos rfl]
        exact positionsAfter_eq (Nat.le_of_lt hc.below) hc.admitted
    | succ n =>
        rw [Cursor.isSamePosition_of_child hn, if_neg (Cursor.path_ne_of_child hn),
          if_neg Bool.false_ne_true, dropWhile_sibling hc hn]
        refine ⟨fun e h => ?_, rfl⟩
        cases h
        exact hc.of_depth_eq (Cursor.depth_child hn)

theorem length_positionsAfter {c : Cursor} (hc : IsPlace limits base c) :
    (positionsFrom limits base (nextInOrder limits base c)).length <
      (positionsFrom limits base (some c)).length := by
  rw [← (positionsAfter_eq (Nat.le_of_lt hc.below) hc.admitted).2]
  exact Nat.lt_succ_self _

theorem length_resume {c : Cursor} {context : κ} {d : Checkpoint κ} (hc : IsPlace limits base c)
    (h : (Checkpoint.start c context).Precedes d) :
    (positionsFrom limits base (resume limits base c d)).length <
      (positionsFrom limits base (some c)).length := by
  rw [← (resume_eq hc h).2]
  exact Nat.lt_succ_of_le (remaining_suffix c d _).length_le

/-- The walk comes to an end of its own accord before as many turns as there are positions. -/
theorem walked_walk (hm : m.Advances) {fuel : ℕ} {pos : Option Cursor} {count : ℕ} {context : κ}
    (hpos : AtPlace limits base pos) (hfuel : (positionsFrom limits base pos).length < fuel) :
    Walked m limits base pos count context (walk m limits base fuel pos count context) := by
  induction fuel generalizing pos count context with
  | zero => cases hfuel
  | succ fuel ih =>
      cases pos with
      | none => exact .done
      | some c =>
          have hc := hpos c rfl
          rw [walk]
          cases hfound : (m (.start c context)).first? with
          | none =>
              have hlog : (attempt m base count c context).log =
                  .searchVisit (c.depth - base) c.node :: (m (.start c context)).firstLog := by
                simp [attempt, hfound]
              have hnext := positionsAfter_eq (Nat.le_of_lt hc.below) hc.admitted
              have hlength := length_positionsAfter hc
              dsimp only
              rw [← hlog]
              exact .miss hfound (ih hnext.1 (by omega))
          | some d =>
              have hlog : (attempt m base count c context).log =
                  .searchVisit (c.depth - base) c.node :: (m (.start c context)).firstLog ++
                    [.searchMatch (count + 1)] := by
                simp [attempt, hfound]
              have hprecedes := precedes_of_first? hm hfound
              have hlength := length_resume hc hprecedes
              dsimp only
              rw [← hlog]
              split
              · next hstop =>
                simp only [Bool.and_eq_true, decide_eq_true_eq] at hstop
                exact .stop hfound hstop.1 hstop.2
              · next hstop =>
                simp only [Bool.and_eq_true, decide_eq_true_eq] at hstop
                exact .hit hfound hstop (ih (resume_eq hc hprecedes).1 (by omega))

/-! ### What the walk does -/

theorem attempts_of_miss {most count : ℕ} {c : Cursor} {later : List Cursor} {context : κ}
    (h : (m (.start c context)).first? = none) :
    attempts m base most (c :: later) count context =
      attempt m base count c context :: attempts m base most later count context := by
  have hfound : (attempt m base count c context).found = none := h
  rw [attempts, hfound]

theorem attempts_of_hit {most count : ℕ} {c : Cursor} {later : List Cursor} {context : κ}
    {d : Checkpoint κ} (h : (m (.start c context)).first? = some d) :
    attempts m base most (c :: later) count context =
      attempt m base count c context ::
        if most ≠ 0 ∧ most ≤ count + 1 then []
        else attempts m base most (remaining c d later) (count + 1) d.context := by
  have hfound : (attempt m base count c context).found = some d := h
  rw [attempts, hfound]
  dsimp only
  by_cases hstop : most ≠ 0 ∧ most ≤ count + 1
  · rw [if_pos (by simpa using hstop), if_pos hstop]
  · rw [if_neg (by simpa using hstop), if_neg hstop]

theorem matched_of_miss {a : Attempt κ} (h : a.found = none) (as : List (Attempt κ)) :
    matched (a :: as) = matched as := List.filterMap_cons_none h

theorem matched_of_hit {a : Attempt κ} {d : Checkpoint κ} (h : a.found = some d)
    (as : List (Attempt κ)) : matched (a :: as) = d :: matched as := List.filterMap_cons_some h

theorem collect_of_miss {a : Attempt κ} (h : a.found = none) (as : List (Attempt κ)) (count : ℕ)
    (context : κ) : collect (a :: as) count context =
      { collect as count context with log := a.log ++ (collect as count context).log } := by
  rw [collect, matched_of_miss h]
  rfl

theorem collect_of_hit {a : Attempt κ} {d : Checkpoint κ} (h : a.found = some d)
    (as : List (Attempt κ)) (count : ℕ) (context : κ) : collect (a :: as) count context =
      { collect as (count + 1) d.context with
        log := a.log ++ (collect as (count + 1) d.context).log } := by
  have hlast : (matched (a :: as)).getLast?.elim context (·.context) =
      (matched as).getLast?.elim d.context (·.context) := by
    rw [matched_of_hit h, List.getLast?_cons]
    cases (matched as).getLast? <;> rfl
  have hcount : count + (matched (a :: as)).length = count + 1 + (matched as).length := by
    rw [matched_of_hit h, List.length_cons]
    omega
  rw [collect, hlast, hcount]
  rfl

/-- The loop of a search does what the walk over the positions does. -/
theorem Walked.eq_collect (hm : m.Advances) {pos : Option Cursor} {count : ℕ} {context : κ}
    {r : SearchResult κ} (h : Walked m limits base pos count context r)
    (hpos : AtPlace limits base pos) :
    r = collect (attempts m base limits.count (positionsFrom limits base pos) count context) count
      context := by
  induction h with
  | done =>
      rw [positionsFrom, attempts]
      rfl
  | @miss c count context r hfound _ ih =>
      have hc := hpos c rfl
      obtain ⟨hnext, hlater⟩ := positionsAfter_eq (Nat.le_of_lt hc.below) hc.admitted
      rw [positionsFrom, attempts_of_miss hfound, collect_of_miss hfound, hlater, ← ih hnext]
  | @stop c count context d hfound hmost hstop =>
      rw [positionsFrom, attempts_of_hit hfound, if_pos ⟨hmost, hstop⟩, collect_of_hit hfound]
      simp [collect, matched]
  | @hit c count context d r hfound hstop _ ih =>
      have hc := hpos c rfl
      obtain ⟨hresume, hlater⟩ := resume_eq hc (precedes_of_first? hm hfound)
      rw [positionsFrom, attempts_of_hit hfound, if_neg hstop, collect_of_hit hfound, hlater,
        ← ih hresume]

/-- The loop of a search ends of its own accord on every tree. -/
theorem walked_search (hm : m.Advances) (limits : SearchLimits) (root : Cursor) (context : κ) :
    Walked m limits root.depth (nextInOrder limits root.depth root) 0 context
      (walk m limits root.depth root.node.size (nextInOrder limits root.depth root) 0 context) := by
  obtain ⟨hplace, heq⟩ := positions_eq limits root
  refine walked_walk hm hplace ?_
  have hle := List.length_filter_le (limits.admits root.depth) root.descendants
  have hsize := Cursor.length_descendants_forward.1 root
  rw [← heq]
  unfold positions
  omega

/-- A search is the walk over its positions. -/
theorem search_eq (hm : m.Advances) (limits : SearchLimits) (root : Cursor) (kind : TreeKind)
    (context : κ) :
    search m limits root kind context =
      let as := attempts m root.depth limits.count (positions limits root) 0 context
      (.searchEnter kind :: as.flatMap (·.log) ++ [.searchExit (matched as).length],
        (matched as).getLast?.map (·.context)) := by
  obtain ⟨hplace, heq⟩ := positions_eq limits root
  unfold search
  dsimp only
  rw [(walked_search hm limits root context).eq_collect hm hplace, ← heq]
  generalize attempts m root.depth limits.count (positions limits root) 0 context = as
  cases hlast : (matched as).getLast? with
  | none =>
      rw [List.getLast?_eq_none_iff] at hlast
      simp [collect, hlast]
  | some d =>
      have hne : matched as ≠ [] := fun h => by simp [h] at hlast
      simp [collect, hlast, hne]

/-- Positions are attempted in their order, none of them twice. -/
theorem sublist_attempts (most : ℕ) (places : List Cursor) (count : ℕ) (context : κ) :
    ((attempts m base most places count context).map (·.cursor)).Sublist places := by
  induction places, count, context using attempts.induct m base most with
  | case1 count context =>
      rw [attempts]
      exact List.Sublist.refl []
  | case2 c later count context a hfound ih =>
      rw [attempts_of_miss hfound]
      exact ih.cons_cons c
  | case3 c later count context a d hfound hstop =>
      rw [attempts_of_hit hfound, if_pos (by simpa using hstop)]
      exact (List.nil_sublist later).cons_cons c
  | case4 c later count context a d hfound hstop ih =>
      rw [attempts_of_hit hfound, if_neg (by simpa using hstop)]
      exact (ih.trans (remaining_suffix c d later).sublist).cons_cons c

/-- With a limit, the walk makes the first of the matches that it makes without. -/
theorem matched_attempts_take {most : ℕ} (places : List Cursor) (count : ℕ) (context : κ)
    (hcount : count < most) :
    matched (attempts m base most places count context) =
      (matched (attempts m base 0 places count context)).take (most - count) := by
  induction places, count, context using attempts.induct m base most with
  | case1 count context =>
      rw [attempts, attempts]
      exact List.take_nil.symm
  | case2 c later count context a hfound ih =>
      rw [attempts_of_miss hfound, attempts_of_miss hfound, matched_of_miss hfound,
        matched_of_miss hfound]
      exact ih hcount
  | case3 c later count context a d hfound hstop =>
      simp only [Bool.and_eq_true, decide_eq_true_eq] at hstop
      rw [attempts_of_hit hfound, attempts_of_hit hfound, if_pos hstop, matched_of_hit hfound,
        matched_of_hit hfound, show most - count = 1 by omega]
      rfl
  | case4 c later count context a d hfound hstop ih =>
      simp only [Bool.and_eq_true, decide_eq_true_eq] at hstop
      obtain ⟨left, hleft⟩ : ∃ left, most - count = left + 1 := ⟨most - count - 1, by omega⟩
      rw [attempts_of_hit hfound, attempts_of_hit hfound, if_neg hstop, if_neg (by simp),
        matched_of_hit hfound, matched_of_hit hfound, hleft, List.take_succ_cons,
        ih (by omega), show most - (count + 1) = left by omega]

/-- A position is inside a match: behind the one at which the match starts, and before the sibling
at which it ends, or on its level if it ends with that. -/
def Attempt.Covers (a : Attempt κ) (x : Cursor) : Prop :=
  ∃ d, a.found = some d ∧ a.cursor.path < x.path ∧
    if d.endOfLevel then d.cursor.path.dropLast <+: x.path else x.path < d.cursor.path

/-- What is left out after a match is inside it. -/
theorem covers_of_not_mem_remaining (hm : m.Advances) {count : ℕ} {c : Cursor} {context : κ}
    {d : Checkpoint κ} (hc : IsPlace limits base c)
    (hfound : (m (.start c context)).first? = some d)
    (hsorted : (positionsFrom limits base (some c)).Pairwise fun x y => x.path < y.path)
    {x : Cursor} (hx : x ∈ positionsAfter limits base c)
    (hleft : x ∉ remaining c d (positionsAfter limits base c)) :
    (attempt m base count c context).Covers x := by
  obtain ⟨habove, hlater⟩ := List.pairwise_cons.mp hsorted
  refine ⟨d, hfound, habove x hx, ?_⟩
  -- It is one of the positions that are dropped.
  have dropped {p : Cursor → Bool}
      (h : remaining c d (positionsAfter limits base c) =
        (positionsAfter limits base c).dropWhile p) :
      x ∈ (positionsAfter limits base c).takeWhile p := by
    rw [h] at hleft
    rw [← List.takeWhile_append_dropWhile (p := p) (l := positionsAfter limits base c)] at hx
    exact (List.mem_append.mp hx).resolve_right hleft
  cases hend : d.endOfLevel with
  | true =>
      have hx := dropped (p := fun x => d.cursor.path.dropLast.isPrefixOf x.path)
        (by rw [remaining, if_pos hend])
      have hprefix := List.mem_takeWhile_imp hx
      exact List.isPrefixOf_iff_prefix.mp hprefix
  | false =>
      have hend : ¬ d.endOfLevel = true := by simp [hend]
      obtain ⟨n, hn⟩ := (precedes_of_first? hm hfound).sibling
      have hn : Cursor.follow?.child n c = some d.cursor := hn
      cases n with
      | zero =>
          have hsame : d.cursor.path = c.path := congrArg Cursor.path (Option.some.inj hn).symm
          rw [remaining, if_neg hend, if_pos hsame] at hleft
          exact absurd hx hleft
      | succ n =>
          have hx := dropped (p := fun x => x.path ≠ d.cursor.path)
            (by rw [remaining, if_neg hend, if_neg (Cursor.path_ne_of_child hn)])
          rw [← List.takeWhile_append_dropWhile (p := fun x => x.path ≠ d.cursor.path)
            (l := positionsAfter limits base c)] at hlater
          refine (List.pairwise_append.mp hlater).2.2 x hx d.cursor ?_
          rw [dropWhile_sibling hc hn]
          exact List.mem_cons_self

/-- Some positions are those of a search from where it is on. -/
def ArePlaces (limits : SearchLimits) (base : ℕ) (places : List Cursor) : Prop :=
  ∃ pos, AtPlace limits base pos ∧ places = positionsFrom limits base pos

theorem ArePlaces.uncons {c : Cursor} {later : List Cursor}
    (h : ArePlaces limits base (c :: later)) :
    IsPlace limits base c ∧ later = positionsAfter limits base c := by
  obtain ⟨pos, hpos, heq⟩ := h
  cases pos with
  | none => cases heq
  | some c' =>
      obtain ⟨rfl, rfl⟩ := List.cons.inj heq
      exact ⟨hpos c rfl, rfl⟩

/-- Positions that are not attempted are inside a match, or behind the last one that is wanted. -/
theorem covered_or_behind (hm : m.Advances) (most : ℕ) (places : List Cursor) (count : ℕ)
    (context : κ) (hplaces : ArePlaces limits base places)
    (hsorted : places.Pairwise fun x y => x.path < y.path) (hcount : most ≠ 0 → count < most)
    (x : Cursor) (hx : x ∈ places) :
    x ∈ (attempts m base most places count context).map (·.cursor) ∨
      (∃ a ∈ attempts m base most places count context, a.Covers x) ∨
      (most ≠ 0 ∧ count + (matched (attempts m base most places count context)).length = most ∧
        ∀ a ∈ attempts m base most places count context, a.cursor.path < x.path) := by
  induction places, count, context using attempts.induct m base most with
  | case1 count context => cases hx
  | case2 c later count context a hfound ih =>
      obtain ⟨hc, rfl⟩ := hplaces.uncons
      obtain ⟨hnext, heq⟩ := positionsAfter_eq (Nat.le_of_lt hc.below) hc.admitted
      obtain ⟨habove, hlater⟩ := List.pairwise_cons.mp hsorted
      rw [attempts_of_miss hfound, matched_of_miss hfound]
      rcases List.mem_cons.mp hx with rfl | hx
      · exact .inl List.mem_cons_self
      · rcases ih ⟨_, hnext, heq⟩ hlater hcount hx with h | ⟨a, ha, h⟩ | ⟨hmost, hlength, h⟩
        · exact .inl (List.mem_cons_of_mem _ h)
        · exact .inr (.inl ⟨a, List.mem_cons_of_mem _ ha, h⟩)
        · exact .inr (.inr ⟨hmost, hlength, List.forall_mem_cons.mpr ⟨habove x hx, h⟩⟩)
  | case3 c later count context a d hfound hstop =>
      simp only [Bool.and_eq_true, decide_eq_true_eq] at hstop
      obtain ⟨habove, -⟩ := List.pairwise_cons.mp hsorted
      have := hcount hstop.1
      rw [attempts_of_hit hfound, if_pos hstop, matched_of_hit hfound]
      rcases List.mem_cons.mp hx with rfl | hx
      · exact .inl List.mem_cons_self
      · refine .inr (.inr ⟨hstop.1, ?_, List.forall_mem_cons.mpr ⟨habove x hx, nofun⟩⟩)
        show count + 1 = most
        omega
  | case4 c later count context a d hfound hstop ih =>
      simp only [Bool.and_eq_true, decide_eq_true_eq] at hstop
      obtain ⟨hc, rfl⟩ := hplaces.uncons
      obtain ⟨hresume, heq⟩ := resume_eq hc (precedes_of_first? hm hfound)
      obtain ⟨habove, hlater⟩ := List.pairwise_cons.mp hsorted
      rw [attempts_of_hit hfound, if_neg hstop, matched_of_hit hfound, List.length_cons]
      rcases List.mem_cons.mp hx with rfl | hx
      · exact .inl List.mem_cons_self
      · by_cases hleft : x ∈ remaining c d (positionsAfter limits base c)
        · rcases ih ⟨_, hresume, heq⟩ (hlater.sublist (remaining_suffix c d _).sublist)
            (by omega) hleft with h | ⟨a, ha, h⟩ | ⟨hmost, hlength, h⟩
          · exact .inl (List.mem_cons_of_mem _ h)
          · exact .inr (.inl ⟨a, List.mem_cons_of_mem _ ha, h⟩)
          · exact .inr (.inr ⟨hmost, by omega, List.forall_mem_cons.mpr ⟨habove x hx, h⟩⟩)
        · exact .inr (.inl ⟨_, List.mem_cons_self,
            covers_of_not_mem_remaining hm hc hfound hsorted hx hleft⟩)

/-- The positions are the descendants at paths that are not longer than the limit. -/
theorem mem_positions_iff {root c : Cursor} :
    c ∈ positions limits root ↔
      ∃ p, p ≠ [] ∧ root.follow? p = some c ∧ (limits.depth = 0 ∨ p.length ≤ limits.depth) := by
  have depth {p : List ℕ} (h : root.follow? p = some c) :
      limits.admits root.depth c ↔ limits.depth = 0 ∨ p.length ≤ limits.depth := by
    have hlength : c.depth = root.depth + p.length := by
      rw [← Cursor.length_path, Cursor.path_follow? h, List.length_append, Cursor.length_path]
    rw [SearchLimits.admits_iff, hlength, Nat.add_sub_cancel_left]
  rw [positions, List.mem_filter, Cursor.mem_descendants_iff]
  constructor
  · rintro ⟨⟨p, hne, hp⟩, hadmits⟩
    exact ⟨p, hne, hp, (depth hp).mp hadmits⟩
  · rintro ⟨p, hne, hp, hdepth⟩
    exact ⟨⟨p, hne, hp⟩, (depth hp).mpr hdepth⟩

theorem matched_eq_nil_iff {as : List (Attempt κ)} :
    matched as = [] ↔ ∀ a ∈ as, a.found = none := by
  rw [matched, List.filterMap_eq_nil_iff]

end Walks

end Matcher

/-- **A search is a walk.**  A search for a query that compiles attempts it at the positions one
after the other and goes on with what its matches leave.  The positions are the descendants in
document order, as deep as the limit allows.  None is attempted twice, and those that are left out
are inside a match or behind the last one that is wanted.  A search finds something exactly if an
attempt does, and with a limit it makes the first of the matches that it makes without. -/
theorem Query.search_walks {κ : Type} {q : Query κ} {m : Matcher κ} (h : q.build = .ok m)
    (limits : SearchLimits) (root : Cursor) (kind : TreeKind) (context : κ) :
    let places := Matcher.positions limits root
    let as := Matcher.attempts m root.depth limits.count places 0 context
    m.search limits root kind context =
      (.searchEnter kind :: as.flatMap (·.log) ++ [.searchExit (Matcher.matched as).length],
        (Matcher.matched as).getLast?.map (·.context)) ∧
    (places.Pairwise fun c d => c.path < d.path) ∧
    (∀ c, c ∈ places ↔
      ∃ p, p ≠ [] ∧ root.follow? p = some c ∧ (limits.depth = 0 ∨ p.length ≤ limits.depth)) ∧
    (as.map (·.cursor)).Sublist places ∧
    (∀ c ∈ places, c ∈ as.map (·.cursor) ∨ (∃ a ∈ as, a.Covers c) ∨
      (limits.count ≠ 0 ∧ (Matcher.matched as).length = limits.count ∧
        ∀ a ∈ as, a.cursor.path < c.path)) ∧
    ((m.search limits root kind context).2 = none ↔ ∀ a ∈ as, a.found = none) ∧
    (limits.count ≠ 0 → Matcher.matched as =
      (Matcher.matched (Matcher.attempts m root.depth 0 places 0 context)).take limits.count) := by
  have hm := (Query.built_of_build h).advances
  have hsearch := Matcher.search_eq hm limits root kind context
  have hsorted : (Matcher.positions limits root).Pairwise fun c d => c.path < d.path :=
    (Cursor.pairwise_descendants root).sublist List.filter_sublist
  refine ⟨hsearch, hsorted, fun c => Matcher.mem_positions_iff,
    Matcher.sublist_attempts _ _ _ _, ?_, ?_, ?_⟩
  · have hplaces := Matcher.positions_eq limits root
    have hcovered := Matcher.covered_or_behind hm limits.count _ 0 context ⟨_, hplaces⟩ hsorted
      (fun hmost => by omega)
    simpa only [Nat.zero_add] using hcovered
  · rw [hsearch, ← Matcher.matched_eq_nil_iff]
    simp
  · intro hmost
    exact Matcher.matched_attempts_take _ 0 context (by omega)

/-- Two symbols beside a bracket with two others. -/
def nestedSymbols : Node :=
  let symbol (text : String) : Node := .token (.make .symbol text {})
  let first : Node := .token (.marker .levelStart {})
  let last : Node := .token (.marker .levelEnd {})
  .tree .root none none [first, symbol "a",
    .tree .wrapped none none [first, symbol "b", symbol "c", last], symbol "d", last]

/-- With a limit of two, the search stops inside the bracket. -/
theorem Query.search_walks_nestedSymbols :
    ∃ m : Matcher (List String),
      Query.build [.token .symbol .any (some fun k t => k ++ [t.value])] = .ok m ∧
      let root := Cursor.top nestedSymbols 0
      let limits : SearchLimits := { depth := 0, count := 2 }
      (m.search limits root .root []).2 = some ["a", "b"] ∧
      ((Matcher.matched (Matcher.attempts m root.depth 0 (Matcher.positions limits root) 0 [])).take
        2).getLast?.map (·.context) = some ["a", "b"] := by
  obtain ⟨m, hm, hresult⟩ : ∃ m : Matcher (List String),
      Query.build [.token .symbol .any (some fun k t => k ++ [t.value])] = .ok m ∧
      (m.search { depth := 0, count := 2 } (.top nestedSymbols 0) .root []).2 = some ["a", "b"] :=
    ⟨_, rfl, by decide +kernel⟩
  obtain ⟨hsearch, -, -, -, -, -, htake⟩ :=
    Query.search_walks hm { depth := 0, count := 2 } (.top nestedSymbols 0) .root []
  refine ⟨m, hm, hresult, ?_⟩
  rw [← htake (by decide), ← hresult, hsearch]

end Nesting
