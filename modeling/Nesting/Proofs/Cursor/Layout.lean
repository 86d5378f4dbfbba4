import Nesting.Proofs.Cursor.Moves
import Nesting.Proofs.Tree.Layout

/-! # Cursors in a tree and in its skeleton

A cursor goes over a tree while another one goes over its skeleton.  All that the moves to the
right, down and up depend on is the node under a cursor and its `levels`: for each level above,
the siblings that are still ahead.

The cursors are aligned if the skeleton of what is ahead of the first one is ahead of the second
one (`Cursor.Aligned`).  Then the first one is on layout and can move on alone, or both are at the
end of their levels, or both are on the same node (`Cursor.Aligned.view`). -/

namespace Nesting.Cursor

/-! ### Levels -/

/-- The levels above a cursor, the nearest first, each with its kind and the siblings ahead. -/
def levels (c : Cursor) : List (TreeKind × List Node) :=
  c.frames.map fun f => (f.tree.kind, f.after)

section Levels

variable {c d : Cursor} {kind : TreeKind} {n : Node} {right : List Node}
  {outer : List (TreeKind × List Node)}

@[simp] theorem settle_levels (c : Cursor) (stamp : ℕ) : (c.settle stamp).levels = c.levels := by
  obtain ⟨n, origin, changed, frames, inStep⟩ := c
  cases frames with
  | nil => cases changed <;> rfl
  | cons f frames =>
      cases changed with
      | false => rfl
      | true =>
          exact congrArg (fun right => (f.tree.kind, right) :: _) (f.after_patch n origin stamp)

theorem depth_eq_length (c : Cursor) : c.depth = c.levels.length := by
  rw [depth_eq, levels, List.length_map]

theorem exists_frame_of_levels {level : TreeKind × List Node} (h : c.levels = level :: outer) :
    ∃ f frames, (c.settle 0).frames = f :: frames ∧ level = (f.tree.kind, f.after) ∧
      frames.map (fun f => (f.tree.kind, f.after)) = outer := by
  rw [← settle_levels c 0, levels] at h
  obtain ⟨f, frames, hframes, hf, hmap⟩ := List.map_eq_cons_iff.mp h
  exact ⟨f, frames, hframes, hf.symm, hmap⟩

theorem OnChild.levels_eq {f : Frame} {frames : List Frame} {i : ℕ} (h : d.OnChild f frames i) :
    d.levels = (f.tree.kind, d.after) :: frames.map fun f => (f.tree.kind, f.after) := by
  obtain ⟨hi, hframes⟩ := h.frames
  rw [levels, after, hframes]
  rfl

theorem after_of_levels (h : c.levels = (kind, right) :: outer) : c.after = right := by
  obtain ⟨f, frames, hframes, hlevel, -⟩ := exists_frame_of_levels h
  rw [after_of_frames hframes, (Prod.mk.inj hlevel).2]

theorem right_of_levels (h : c.levels = (kind, n :: right) :: outer) :
    ∃ d, c.right = some d ∧ d.node = n ∧ d.levels = (kind, right) :: outer := by
  cases hright : c.right with
  | none => rw [right_eq_none_iff, after_of_levels h] at hright; cases hright
  | some d =>
      obtain ⟨hnode, hafter⟩ := List.cons.inj ((after_of_levels h).symm.trans (after_right hright))
      obtain ⟨f, frames, hframes, hd⟩ := right_eq_some_iff.mp hright
      obtain ⟨g, frames', hframes', hlevel, houter⟩ := exists_frame_of_levels h
      obtain ⟨rfl, rfl⟩ := List.cons.inj (hframes.symm.trans hframes')
      refine ⟨d, rfl, hnode.symm, ?_⟩
      rw [hd.levels_eq, houter, ← hafter, (Prod.mk.inj hlevel).1]

theorem right_of_levels_nil (h : c.levels = (kind, []) :: outer) : c.right = none :=
  right_eq_none_iff.mpr (after_of_levels h)

theorem up_of_levels {level : TreeKind × List Node} (h : c.levels = level :: outer) :
    ∃ p, c.up = some p ∧ p.levels = outer := by
  obtain ⟨f, frames, hframes, -, houter⟩ := exists_frame_of_levels h
  obtain ⟨p, hp, -, rfl⟩ := exists_up_of_frames hframes
  exact ⟨p, hp, houter⟩

theorem levels_down (h : c.down = some d) {t : Tree} (ht : c.node.tree? = some t) :
    d.levels = (t.kind, d.after) :: c.levels := by
  obtain ⟨f, hd, -, hnode, -⟩ := onChild_of_down h
  rw [← hnode, Node.tree?_toNode] at ht
  cases ht
  exact hd.levels_eq

theorem down_of_node {opening closing : Option Token}
    (h : c.node = .tree kind opening closing (n :: right)) :
    ∃ d, c.down = some d ∧ d.node = n ∧ d.levels = (kind, right) :: c.levels := by
  cases hdown : c.down with
  | none => rw [down_eq_none_iff, h] at hdown; cases hdown
  | some d =>
      have hchildren := children_down hdown
      rw [h] at hchildren
      obtain ⟨hnode, hafter⟩ := List.cons.inj (show n :: right = d.node :: d.after from hchildren)
      refine ⟨d, rfl, hnode.symm, ?_⟩
      rw [levels_down hdown (t := ⟨kind, opening, closing, n :: right⟩) (by rw [h]; rfl), ← hafter]

end Levels

/-! ### Alignment -/

/-- The skeleton of a level. -/
def skeletonLevel (l : TreeKind × List Node) : TreeKind × List Node :=
  (l.1, Node.skeletons l.1 l.2)

/-- Behind the second cursor lies the skeleton of what lies behind the first one. -/
structure Beside (c d : Cursor) : Prop where
  levels : d.levels = c.levels.map skeletonLevel
  closes : ∀ l ∈ c.levels, Node.Closes l.2

/-- The second cursor is on the skeleton of the node that the first one is on. -/
structure Meets (c d : Cursor) : Prop extends Beside c d where
  node : d.node = c.node.skeleton
  framed : c.node.Framed

/-- From the second cursor on lies the skeleton of what lies from the first one on. -/
inductive Aligned (c d : Cursor) : Prop
  | intro {kind : TreeKind} {right right' : List Node} {outer : List (TreeKind × List Node)}
      (hc : c.levels = (kind, right) :: outer)
      (hd : d.levels = (kind, right') :: outer.map skeletonLevel)
      (ahead : d.node :: right' = Node.skeletons kind (c.node :: right))
      (closes : Node.Closes (c.node :: right) ∨
        c.node.tokenKind? = some .levelStart ∧ Node.Closes right)
      (outside : ∀ l ∈ outer, Node.Closes l.2)

variable {c d : Cursor}

theorem Beside.depth_eq (h : Beside c d) : d.depth = c.depth := by
  rw [depth_eq_length, depth_eq_length, h.levels, List.length_map]

/-- The end of a level is part of its skeleton. -/
theorem exists_skeletons {ns : List Node} (h : Node.Closes ns) (kind : TreeKind) :
    ∃ n ns', Node.skeletons kind ns = n :: ns' := by
  induction ns with
  | nil => exact absurd rfl h.ne_nil
  | cons n ns ih =>
      cases hlayout : n.isLayoutIn kind with
      | false => exact ⟨_, _, Node.skeletons_of_not_layout hlayout ns⟩
      | true =>
          rw [Node.skeletons_of_layout hlayout]
          rcases h.cases_right with ⟨-, hlast⟩ | ⟨-, -, hns⟩
          · have hminor := Node.isMinor_of_isLayoutIn hlayout
            rw [Node.isMinor, hlast] at hminor
            cases hminor
          · exact ih hns

theorem Beside.right (h : Beside c d) (hdepth : c.depth ≠ 0) :
    ∃ c' d', c.right = some c' ∧ d.right = some d' ∧ c'.Aligned d' := by
  obtain ⟨hlevels, hcloses⟩ := h
  cases hc : c.levels with
  | nil => rw [depth_eq_length, hc] at hdepth; exact absurd rfl hdepth
  | cons level outer =>
      obtain ⟨kind, right⟩ := level
      rw [hc] at hlevels hcloses
      obtain ⟨hright, houter⟩ := List.forall_mem_cons.mp hcloses
      obtain ⟨n, post, rfl⟩ := List.exists_cons_of_ne_nil hright.ne_nil
      obtain ⟨n', post', hskeletons⟩ := exists_skeletons hright kind
      rw [List.map_cons, skeletonLevel, hskeletons] at hlevels
      obtain ⟨c', hc', hnode, hlevels'⟩ := right_of_levels hc
      obtain ⟨d', hd', hnode', hlevels''⟩ := right_of_levels hlevels
      refine ⟨c', d', hc', hd', .intro hlevels' hlevels'' ?_ (.inl ?_) houter⟩
      · rw [hnode, hnode', hskeletons]
      · rw [hnode]
        exact hright

theorem Meets.down (h : c.Meets d) {t : Tree} (ht : c.node.tree? = some t) :
    ∃ c' d', c.down = some c' ∧ d.down = some d' ∧ c'.Aligned d' := by
  cases hnode : c.node with
  | token => rw [hnode] at ht; cases ht
  | tree kind opening closing children =>
      have hframed := h.framed
      rw [hnode] at hframed
      cases hframed with
      | @tree _ _ _ first ns hstart hcloses =>
        have hfirst : (Node.token first).isLayoutIn kind = false := by
          show (kind != .string && first.kind.isTrivia) = false
          rw [hstart]
          exact Bool.and_false _
        have hnode' : d.node = .tree kind (opening.map Token.unplaced)
            (closing.map Token.unplaced) ((Node.token first).skeleton ::
              Node.skeletons kind ns) := by
          rw [h.node, hnode, ← Node.skeletons_of_not_layout hfirst]
          rfl
        obtain ⟨c', hc', hn, hlevels⟩ := down_of_node hnode
        obtain ⟨d', hd', hn', hlevels'⟩ := down_of_node hnode'
        refine ⟨c', d', hc', hd', .intro hlevels (h.levels ▸ hlevels') ?_ (.inr ?_) h.closes⟩
        · rw [hn, hn', Node.skeletons_of_not_layout hfirst]
        · rw [hn]
          exact ⟨congrArg some hstart, hcloses⟩

/-- Where two aligned cursors can be. -/
inductive View (c d : Cursor) : Prop
  /-- The first one is on layout, and can move on. -/
  | layout (t : Token) (c' : Cursor) : c.node = .token t → t.kind.isTrivia →
      c.right = some c' → c'.Aligned d → View c d
  /-- Both are at the end of their level. -/
  | last (p q : Cursor) : c.node.tokenKind? = some .levelEnd → d.node = c.node.skeleton →
      c.right = none → d.right = none → c.up = some p → d.up = some q → p.Beside q → View c d
  /-- Both are on the same node, and there are more ahead. -/
  | meets : c.Meets d → c.depth ≠ 0 → View c d

theorem Aligned.view (h : c.Aligned d) : View c d := by
  obtain @⟨kind, right, right', outer, hc, hd, hahead, hcloses, houter⟩ := h
  cases hlayout : c.node.isLayoutIn kind with
  | true =>
      rw [Node.skeletons_of_layout hlayout] at hahead
      obtain ⟨-, htrivia⟩ := Bool.and_eq_true_iff.mp hlayout
      cases hnode : c.node with
      | tree => rw [hnode] at htrivia; cases htrivia
      | token t =>
          rw [hnode] at htrivia hcloses
          have htrivia : t.kind.isTrivia := htrivia
          have hright : Node.Closes right := by
            rcases hcloses with hcloses | ⟨-, hcloses⟩
            · rcases hcloses.cases_right with ⟨-, hlast⟩ | ⟨-, -, hright⟩
              · rw [show t.kind = .levelEnd from Option.some.inj hlast] at htrivia
                cases htrivia
              · exact hright
            · exact hcloses
          obtain ⟨n, post, rfl⟩ := List.exists_cons_of_ne_nil hright.ne_nil
          obtain ⟨c', hc', hn, hlevels⟩ := right_of_levels hc
          refine .layout t c' hnode htrivia hc' (.intro hlevels hd ?_ (.inl ?_) houter)
          · rw [hn, hahead]
          · rw [hn]
            exact hright
  | false =>
      rw [Node.skeletons_of_not_layout hlayout] at hahead
      obtain ⟨hnode, rfl⟩ := List.cons.inj hahead
      have meets (hframed : c.node.Framed) (hright : Node.Closes right) : View c d := by
        refine .meets ⟨⟨?_, ?_⟩, hnode, hframed⟩ ?_
        · rw [hc, hd]
          rfl
        · rw [hc]
          exact List.forall_mem_cons.mpr ⟨hright, houter⟩
        · rw [depth_eq_length, hc]
          exact Nat.succ_ne_zero _
      rcases hcloses with hcloses | ⟨hstart, hright⟩
      · rcases hcloses.cases_right with ⟨rfl, hlast⟩ | ⟨-, hframed, hright⟩
        · obtain ⟨p, hp, hplevels⟩ := up_of_levels hc
          obtain ⟨q, hq, hqlevels⟩ := up_of_levels hd
          refine .last p q hlast hnode (right_of_levels_nil hc) (right_of_levels_nil hd) hp hq
            ⟨?_, ?_⟩
          · rw [hplevels, hqlevels]
          · rw [hplevels]
            exact houter
        · exact meets hframed hright
      · refine meets ?_ hright
        cases hn : c.node with
        | token t => exact .token t
        | tree => rw [hn] at hstart; cases hstart

/-- Nothing but the start of a level is aligned with the start of a level. -/
theorem Aligned.levelStart_iff (h : c.Aligned d) :
    d.node.tokenKind? = some .levelStart ↔ c.node.tokenKind? = some .levelStart := by
  obtain ⟨-, -, hahead, hcloses, -⟩ := h
  rcases hcloses with hcloses | ⟨hstart, -⟩
  · obtain ⟨n, hn, hnode⟩ := Node.mem_skeletons (hahead ▸ List.mem_cons_self)
    rw [hnode, Node.tokenKind?_skeleton]
    exact iff_of_false (hcloses.ne_levelStart n hn)
      (hcloses.ne_levelStart c.node List.mem_cons_self)
  · rw [Node.skeletons_of_not_layout (by rw [Node.isLayoutIn, hstart]; exact Bool.and_false _)]
      at hahead
    rw [(List.cons.inj hahead).1, Node.tokenKind?_skeleton]

/-! ### The children of strings -/

/-- A string has no layout, so that its children are met one by one. -/
theorem forall₂_onward {right : List Node} {outer : List (TreeKind × List Node)}
    (hc : c.levels = (.string, right) :: outer)
    (hd : d.levels = (.string, right.map Node.skeleton) :: outer.map skeletonLevel)
    (hnode : d.node = c.node.skeleton)
    (hcloses : Node.Closes (c.node :: right) ∨
      c.node.tokenKind? = some .levelStart ∧ Node.Closes right)
    (houter : ∀ l ∈ outer, Node.Closes l.2) :
    List.Forall₂ Meets ((onward right c).filter fun x => !x.node.isMarker)
      ((onward (right.map Node.skeleton) d).filter fun x => !x.node.isMarker) := by
  have hmarker : d.node.isMarker = c.node.isMarker := by rw [hnode, Node.isMarker_skeleton]
  induction right generalizing c d with
  | nil =>
      have hlast : c.node.isMarker := by
        rcases hcloses with hcloses | ⟨-, hnil⟩
        · rcases hcloses.cases_right with ⟨-, hlast⟩ | ⟨-, -, hnil⟩
          · rw [Node.isMarker, hlast]
            rfl
          · exact absurd rfl hnil.ne_nil
        · exact absurd rfl hnil.ne_nil
      rw [List.map_nil, onward, onward, List.filter_cons_of_neg (by simp [hlast]),
        List.filter_cons_of_neg (by simp [hmarker, hlast])]
      exact .nil
  | cons n post ih =>
      have hright : Node.Closes (n :: post) := by
        rcases hcloses with hcloses | ⟨-, hright⟩
        · rcases hcloses.cases_right with ⟨hnil, -⟩ | ⟨-, -, hright⟩
          · cases hnil
          · exact hright
        · exact hright
      obtain ⟨c', hc', hn, hlevels⟩ := right_of_levels hc
      obtain ⟨d', hd', hn', hlevels'⟩ := right_of_levels hd
      have hnode' : d'.node = c'.node.skeleton := by rw [hn', hn]
      have hlater := ih hlevels hlevels' hnode' (.inl (hn ▸ hright))
        (by rw [hnode', Node.isMarker_skeleton])
      rw [List.map_cons, onward, onward, hc', hd']
      dsimp only
      by_cases hm : c.node.isMarker
      · rw [List.filter_cons_of_neg (by simp [hm]), List.filter_cons_of_neg (by simp [hmarker, hm])]
        exact hlater
      · rw [List.filter_cons_of_pos (by simp [hm]), List.filter_cons_of_pos (by simp [hmarker, hm])]
        have hframed : c.node.Framed := by
          rcases hcloses with hcloses | ⟨hstart, -⟩
          · rcases hcloses.cases_right with ⟨hnil, -⟩ | ⟨-, hframed, -⟩
            · cases hnil
            · exact hframed
          · rw [Node.isMarker, hstart] at hm
            exact absurd rfl hm
        refine .cons ⟨⟨?_, ?_⟩, hnode, hframed⟩ hlater
        · rw [hc, hd, ← Node.skeletons_string]
          rfl
        · rw [hc]
          exact List.forall_mem_cons.mpr ⟨hright, houter⟩

theorem Meets.children (h : c.Meets d) {t : Tree} (ht : c.node.tree? = some t)
    (hkind : t.kind = .string) :
    List.Forall₂ Meets (c.children.filter fun x => !x.node.isMarker)
      (d.children.filter fun x => !x.node.isMarker) := by
  obtain ⟨c', d', hdown, hdown', haligned⟩ := h.down ht
  have hlevels := levels_down hdown ht
  obtain ⟨hc, hd, hahead, hcloses, houter⟩ := haligned
  rw [hc] at hlevels
  obtain ⟨hlevel, rfl⟩ := List.cons.inj hlevels
  obtain ⟨rfl, rfl⟩ := Prod.mk.inj hlevel
  rw [hkind] at hc hd hahead
  rw [Node.skeletons_string, List.map_cons] at hahead
  obtain ⟨hnode, rfl⟩ := List.cons.inj hahead
  rw [Cursor.children, Cursor.children, hdown, hdown']
  dsimp only
  rw [after_of_levels hd]
  exact forall₂_onward hc hd hnode hcloses houter

end Nesting.Cursor
