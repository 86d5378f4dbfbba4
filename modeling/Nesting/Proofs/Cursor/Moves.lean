import Mathlib.Data.List.Basic
import Nesting.Cursor

/-! # Moves of a cursor

What the moves of a cursor say about one another.  A move to the right keeps the parent and takes
one sibling from those ahead (`up_right`, `after_right`), a move to the left keeps the parent as
well (`up_left`), a move down can be taken back (`up_of_down`), and `follow?.child` is a number of
moves to the right.

A move to a sibling looks for it in the parent that the node was put into, so each of these begins
with what `settle` leaves as it is.  The stamps of the moves are of no account here. -/

namespace Nesting

namespace Frame

theorem fill_of_child {f : Frame} {n : Node} (h : f.tree.children[f.index]? = some n) :
    f.fill n = f.tree := by
  obtain ⟨hi, rfl⟩ := List.getElem?_eq_some_iff.mp h
  rw [fill, List.set_getElem_self]

@[simp] theorem after_patch (f : Frame) (n : Node) (origin : Origin) (stamp : Nat) :
    (f.patch n origin stamp).after = f.after :=
  List.drop_set_of_lt (Nat.lt_succ_self f.index)

end Frame

namespace Cursor

variable {c d p : Cursor} {stamp : Nat}

/-! ### Settling -/

theorem settle_of_unchanged (h : c.changed = false) (stamp : Nat) : c.settle stamp = c := by
  obtain ⟨n, origin, changed, frames, inStep⟩ := c
  cases h
  cases frames <;> rfl

section settle

variable (c) (stamp)

@[simp] theorem settle_after : (c.settle stamp).after = c.after := by
  obtain ⟨n, origin, changed, frames, inStep⟩ := c
  cases frames with
  | nil => cases changed <;> rfl
  | cons f frames =>
      cases changed with
      | false => rfl
      | true => exact f.after_patch n origin stamp

@[simp] theorem settle_depth : (c.settle stamp).depth = c.depth := by
  obtain ⟨n, origin, changed, frames, inStep⟩ := c
  cases changed <;> cases frames <;> rfl

@[simp] theorem settle_path : (c.settle stamp).path = c.path := by
  obtain ⟨n, origin, changed, frames, inStep⟩ := c
  cases changed <;> cases frames <;> rfl

@[simp] theorem settle_index? : (c.settle stamp).index? = c.index? := by
  obtain ⟨n, origin, changed, frames, inStep⟩ := c
  cases changed <;> cases frames <;> rfl

end settle

section frames

variable {f : Frame} {frames : List Frame}

/-- The parent that a settled cursor has is up to date. -/
theorem child_of_frames (h : (c.settle stamp).frames = f :: frames) :
    f.tree.children[f.index]? = some c.node := by
  obtain ⟨n, origin, changed, frames', inStep⟩ := c
  cases frames' with
  | nil => cases changed <;> cases h
  | cons g frames' =>
      cases changed with
      | false =>
          cases h
          exact inStep.child
      | true =>
          cases h
          exact (inStep.patched origin stamp).child

theorem path_of_frames (h : (c.settle stamp).frames = f :: frames) :
    c.path = (frames.map (·.index)).reverse ++ [f.index] := by
  rw [← settle_path c stamp, path, h, List.map_cons, List.reverse_cons]

theorem after_of_frames (h : (c.settle stamp).frames = f :: frames) : c.after = f.after := by
  rw [← settle_after c stamp, after, h]

theorem index?_of_frames (h : (c.settle stamp).frames = f :: frames) : c.index? = some f.index := by
  rw [← settle_index? c stamp, index?, h]
  rfl

end frames

/-! ### Up -/

theorem up_eq_some_iff :
    c.up stamp = some p ↔ ∃ f, (c.settle stamp).frames = f :: p.frames ∧
      p.node = f.tree.toNode ∧ p.origin = f.origin ∧ p.changed = f.changed := by
  unfold up
  generalize c.settle stamp = c
  obtain ⟨n, origin, changed, frames, inStep⟩ := c
  cases frames with
  | nil => simp
  | cons f frames =>
      constructor
      · intro h
        cases h
        exact ⟨f, rfl, rfl, rfl, rfl⟩
      · rintro ⟨g, hframes, hnode, horigin, hchanged⟩
        obtain ⟨rfl, rfl⟩ := List.cons.inj hframes
        exact congrArg some (Cursor.ext hnode.symm horigin.symm hchanged.symm rfl)

theorem exists_up_of_frames {f : Frame} {frames : List Frame}
    (h : (c.settle stamp).frames = f :: frames) :
    ∃ p, c.up stamp = some p ∧ p.node = f.tree.toNode ∧ p.frames = frames := by
  have hstep := (c.settle stamp).inStep
  rw [h] at hstep
  exact ⟨⟨f.tree.toNode, f.origin, f.changed, frames, hstep.outer⟩,
    up_eq_some_iff.mpr ⟨f, h, rfl, rfl, rfl⟩, rfl, rfl⟩

theorem children_up (h : c.up stamp = some p) :
    ∃ i, c.path = p.path ++ [i] ∧ p.node.children.drop i = c.node :: c.after := by
  obtain ⟨f, hframes, hnode, -⟩ := up_eq_some_iff.mp h
  obtain ⟨hi, hchild⟩ := List.getElem?_eq_some_iff.mp (child_of_frames hframes)
  refine ⟨f.index, path_of_frames hframes, ?_⟩
  rw [hnode, after_of_frames hframes, ← hchild]
  exact List.drop_eq_getElem_cons hi

theorem path_up (h : c.up stamp = some p) : ∃ i, c.path = p.path ++ [i] := by
  obtain ⟨i, hpath, -⟩ := children_up h
  exact ⟨i, hpath⟩

theorem length_path (c : Cursor) : c.path.length = c.depth := by
  rw [path, List.length_reverse, List.length_map, depth_eq]

theorem depth_up (h : c.up stamp = some p) : c.depth = p.depth + 1 := by
  obtain ⟨i, hpath⟩ := path_up h
  rw [← length_path, ← length_path, hpath, List.length_append, List.length_singleton]

theorem exists_up (h : c.depth ≠ 0) : ∃ p, c.up stamp = some p := by
  rw [← settle_depth c stamp, depth_eq] at h
  obtain ⟨f, frames, hframes⟩ := List.exists_cons_of_length_pos (Nat.pos_of_ne_zero h)
  obtain ⟨p, hp, -⟩ := exists_up_of_frames hframes
  exact ⟨p, hp⟩

theorem path_eq_nil_of_up (h : c.up stamp = none) : c.path = [] := by
  by_contra hpath
  have hdepth : c.depth ≠ 0 := fun hzero =>
    hpath (List.length_eq_zero_iff.mp (c.length_path.trans hzero))
  obtain ⟨p, hp⟩ : ∃ p, c.up stamp = some p := exists_up hdepth
  rw [h] at hp
  cases hp

/-! ### On the children of one parent -/

/-- A cursor is on the child at an index of a parent. -/
structure OnChild (d : Cursor) (f : Frame) (frames : List Frame) (i : Nat) : Prop where
  node : f.tree.children[i]? = some d.node
  origin : d.origin = f.origin.down i
  unchanged : d.changed = false
  frames : ∃ h, d.frames = f.turn i h :: frames

section OnChild

variable {f : Frame} {frames : List Frame} {i : Nat}

theorem OnChild.settle_frames (h : d.OnChild f frames i) (stamp : Nat) :
    ∃ hi, (d.settle stamp).frames = f.turn i hi :: frames := by
  rw [settle_of_unchanged h.unchanged]
  exact h.frames

theorem OnChild.path_eq (h : d.OnChild f frames i) :
    d.path = (frames.map (·.index)).reverse ++ [i] :=
  path_of_frames (h.settle_frames 0).2

theorem OnChild.index?_eq (h : d.OnChild f frames i) : d.index? = some i :=
  index?_of_frames (h.settle_frames 0).2

theorem OnChild.drop_eq (h : d.OnChild f frames i) :
    f.tree.children.drop i = d.node :: d.after := by
  obtain ⟨hi, hnode⟩ := List.getElem?_eq_some_iff.mp h.node
  rw [List.drop_eq_getElem_cons hi, hnode, after_of_frames (h.settle_frames 0).2]
  rfl

theorem OnChild.up_eq (h : d.OnChild f frames i) (hnode : p.node = f.tree.toNode)
    (horigin : p.origin = f.origin) (hchanged : p.changed = f.changed)
    (hframes : p.frames = frames) (stamp : Nat) : d.up stamp = some p := by
  obtain ⟨hi, hd⟩ := h.settle_frames stamp
  exact up_eq_some_iff.mpr ⟨f.turn i hi, hframes ▸ hd, hnode, horigin, hchanged⟩

theorem exists_onChild (hc : (c.settle stamp).frames = f :: frames)
    (hi : i < f.tree.children.length) : ∃ d : Cursor, d.OnChild f frames i := by
  have hstep := (c.settle stamp).inStep
  rw [hc] at hstep
  exact ⟨⟨f.tree.children[i], f.origin.down i, false, f.turn i hi :: frames, hstep.turned hi⟩,
    List.getElem?_eq_getElem hi, rfl, rfl, hi, rfl⟩

/-- A child has the parent that its neighbour has, which is settled. -/
theorem OnChild.up_eq_up (h : d.OnChild f frames i) (hc : (c.settle stamp).frames = f :: frames)
    (stamp' : Nat) : d.up stamp' = c.up stamp := by
  obtain ⟨p, hp, -⟩ := exists_up_of_frames hc
  obtain ⟨g, hg, hnode, horigin, hchanged⟩ := up_eq_some_iff.mp hp
  obtain ⟨rfl, rfl⟩ := List.cons.inj (hc.symm.trans hg)
  rw [hp, h.up_eq hnode horigin hchanged rfl]

end OnChild

theorem sibling_eq_some_iff {delta : Int} :
    c.sibling delta stamp = some d ↔ ∃ f frames i, (c.settle stamp).frames = f :: frames ∧
      (f.index + delta).toNat? = some i ∧ d.OnChild f frames i := by
  unfold sibling
  generalize c.settle stamp = c
  obtain ⟨n, origin, changed, frames, inStep⟩ := c
  cases frames with
  | nil => simp
  | cons f frames =>
      constructor
      · intro h
        obtain ⟨i, hi, h⟩ := Option.bind_eq_some_iff.mp h
        split at h
        · next hlt =>
          cases h
          exact ⟨f, frames, i, rfl, hi, List.getElem?_eq_getElem hlt, rfl, rfl, hlt, rfl⟩
        · cases h
      · rintro ⟨g, frames', i, hframes, hi, hnode, horigin, hchanged, hlt, hd⟩
        obtain ⟨rfl, rfl⟩ := List.cons.inj hframes
        refine Option.bind_eq_some_iff.mpr ⟨i, hi, ?_⟩
        obtain ⟨_, hnode⟩ := List.getElem?_eq_some_iff.mp hnode
        rw [dif_pos hlt]
        exact congrArg some (Cursor.ext hnode horigin.symm hchanged.symm hd.symm)

/-! ### To the right -/

/-- A move to the right goes from one sibling to the next on the same level. -/
theorem right_eq_some_iff :
    c.right stamp = some d ↔ ∃ f frames, (c.settle stamp).frames = f :: frames ∧
      d.OnChild f frames (f.index + 1) := by
  rw [right, sibling_eq_some_iff]
  constructor
  · rintro ⟨f, frames, i, hframes, hi, hd⟩
    obtain rfl := Option.some.inj (show some (f.index + 1) = some i from hi)
    exact ⟨f, frames, hframes, hd⟩
  · rintro ⟨f, frames, hframes, hd⟩
    exact ⟨f, frames, f.index + 1, hframes, rfl, hd⟩

theorem after_right (h : c.right stamp = some d) : c.after = d.node :: d.after := by
  obtain ⟨f, frames, hframes, hd⟩ := right_eq_some_iff.mp h
  rw [after_of_frames hframes, ← hd.drop_eq]
  rfl

theorem right_eq_none_iff : c.right stamp = none ↔ c.after = [] := by
  constructor
  · intro h
    cases hframes : (c.settle stamp).frames with
    | nil => rw [← settle_after c stamp, after, hframes]
    | cons f frames =>
        rw [after_of_frames hframes, Frame.after, List.drop_eq_nil_iff]
        by_contra hlt
        obtain ⟨d, hd⟩ := exists_onChild hframes (Nat.lt_of_not_le hlt)
        have hright := right_eq_some_iff.mpr ⟨f, frames, hframes, hd⟩
        rw [h] at hright
        cases hright
  · intro h
    cases hright : c.right stamp with
    | none => rfl
    | some d => rw [after_right hright] at h; cases h

theorem up_right {stamp' : Nat} (h : c.right stamp = some d) : d.up stamp' = c.up stamp := by
  obtain ⟨f, frames, hframes, hd⟩ := right_eq_some_iff.mp h
  exact hd.up_eq_up hframes stamp'

theorem path_right (h : c.right stamp = some d) :
    ∃ parent i, c.path = parent ++ [i] ∧ d.path = parent ++ [i + 1] ∧
      c.index? = some i ∧ d.index? = some (i + 1) := by
  obtain ⟨f, frames, hframes, hd⟩ := right_eq_some_iff.mp h
  exact ⟨_, f.index, path_of_frames hframes, hd.path_eq, index?_of_frames hframes, hd.index?_eq⟩

theorem depth_right (h : c.right stamp = some d) : d.depth = c.depth := by
  obtain ⟨parent, i, hc, hd, -, -⟩ := path_right h
  rw [← length_path, ← length_path, hc, hd, List.length_append, List.length_append]
  rfl

/-! ### To the left -/

theorem left_eq_some_iff :
    c.left stamp = some d ↔ ∃ f frames i, (c.settle stamp).frames = f :: frames ∧
      f.index = i + 1 ∧ d.OnChild f frames i := by
  have hback (f : Frame) (i : Nat) :
      ((f.index : Int) + -1).toNat? = some i ↔ f.index = i + 1 := by
    rw [Int.mem_toNat?]
    omega
  rw [left, sibling_eq_some_iff]
  simp only [hback]

theorem up_left {stamp' : Nat} (h : c.left stamp = some d) : d.up stamp' = c.up stamp := by
  obtain ⟨f, frames, i, hframes, -, hd⟩ := left_eq_some_iff.mp h
  exact hd.up_eq_up hframes stamp'

theorem path_left (h : c.left stamp = some d) :
    ∃ parent i, c.path = parent ++ [i + 1] ∧ d.path = parent ++ [i] := by
  obtain ⟨f, frames, i, hframes, hindex, hd⟩ := left_eq_some_iff.mp h
  exact ⟨_, i, hindex ▸ path_of_frames hframes, hd.path_eq⟩

/-! ### Down -/

/-- A move down adds the level of the node itself. -/
theorem onChild_of_down (h : c.down = some d) :
    ∃ f, d.OnChild f c.frames 0 ∧ f.index = 0 ∧ f.tree.toNode = c.node ∧ f.origin = c.origin ∧
      f.changed = c.changed := by
  unfold down at h
  split at h
  · next kind opening closing n right hnode =>
    cases h
    let f : Frame :=
      { tree := { kind, opening, closing, children := n :: right }, index := 0
        index_lt := Nat.succ_pos _, origin := c.origin, changed := c.changed
        depth := c.depth + 1 }
    exact ⟨f, ⟨rfl, rfl, rfl, f.index_lt, rfl⟩, rfl, hnode.symm, rfl, rfl⟩
  · cases h

theorem children_down (h : c.down = some d) : c.node.children = d.node :: d.after := by
  obtain ⟨f, hd, -, hnode, -, -⟩ := onChild_of_down h
  rw [← hnode, ← hd.drop_eq]
  rfl

theorem down_eq_none_iff : c.down = none ↔ c.node.children = [] := by
  constructor
  · unfold down
    intro h
    split at h
    · cases h
    · next hnode =>
      cases hn : c.node with
      | token t => rfl
      | tree kind opening closing children =>
          cases children with
          | nil => rfl
          | cons n right => exact absurd hn (hnode kind opening closing n right)
  · intro h
    cases hdown : c.down with
    | none => rfl
    | some d => rw [children_down hdown] at h; cases h

theorem up_of_down (h : c.down = some d) : d.up stamp = some c := by
  obtain ⟨f, hd, -, hnode, horigin, hchanged⟩ := onChild_of_down h
  exact hd.up_eq hnode.symm horigin.symm hchanged.symm rfl stamp

theorem path_down (h : c.down = some d) : d.path = c.path ++ [0] := by
  obtain ⟨f, hd, -⟩ := onChild_of_down h
  exact hd.path_eq

theorem depth_down (h : c.down = some d) : d.depth = c.depth + 1 := by
  have hup : d.up = some c := up_of_down h
  exact depth_up hup

/-! ### Several moves to the right -/

theorem child_succ (n : Nat) (c : Cursor) :
    follow?.child (n + 1) c = c.right.bind (follow?.child n) := rfl

theorem child_add {m n : Nat} {c d e : Cursor} (hd : follow?.child m c = some d)
    (he : follow?.child n d = some e) : follow?.child (m + n) c = some e := by
  induction m generalizing c with
  | zero =>
      cases hd
      rwa [Nat.zero_add]
  | succ m ih =>
      obtain ⟨c', hright, hd⟩ := Option.bind_eq_some_iff.mp hd
      rw [Nat.succ_add, child_succ, hright]
      exact ih hd

theorem length_after_child {n : Nat} {c d : Cursor} (h : follow?.child n c = some d) :
    c.after.length = d.after.length + n := by
  induction n generalizing c with
  | zero =>
      cases h
      rfl
  | succ n ih =>
      obtain ⟨c', hright, h⟩ := Option.bind_eq_some_iff.mp h
      rw [after_right hright, List.length_cons, ih h]
      rfl

theorem depth_child {n : Nat} {c d : Cursor} (h : follow?.child n c = some d) :
    d.depth = c.depth := by
  induction n generalizing c with
  | zero =>
      cases h
      rfl
  | succ n ih =>
      obtain ⟨c', hright, h⟩ := Option.bind_eq_some_iff.mp h
      rw [ih h, depth_right hright]

/-- A sibling that lies some places further has a larger index. -/
theorem path_child {n : Nat} {c d : Cursor} (h : follow?.child (n + 1) c = some d) :
    ∃ parent i, c.path = parent ++ [i] ∧ d.path = parent ++ [i + (n + 1)] ∧
      c.index? = some i ∧ d.index? = some (i + (n + 1)) := by
  induction n generalizing c with
  | zero =>
      obtain ⟨c', hright, h⟩ := Option.bind_eq_some_iff.mp h
      cases h
      exact path_right hright
  | succ n ih =>
      obtain ⟨c', hright, h⟩ := Option.bind_eq_some_iff.mp h
      obtain ⟨parent, i, hc, hc', hi, hi'⟩ := path_right hright
      obtain ⟨parent', j, hc'', hd, hj, hdj⟩ := ih h
      obtain ⟨rfl, hij⟩ := List.append_inj' (hc'.symm.trans hc'') rfl
      obtain rfl := List.singleton_inj.mp hij
      refine ⟨parent, i, hc, ?_, hi, ?_⟩
      · rw [hd, show i + 1 + (n + 1) = i + (n + 1 + 1) by omega]
      · rw [hdj, show i + 1 + (n + 1) = i + (n + 1 + 1) by omega]

theorem path_ne_of_child {n : Nat} {c d : Cursor} (h : follow?.child (n + 1) c = some d) :
    d.path ≠ c.path := by
  obtain ⟨parent, i, hc, hd, -, -⟩ := path_child h
  rw [hc, hd]
  intro heq
  have := List.singleton_inj.mp (List.append_cancel_left heq)
  omega

theorem dropLast_path_child {n : Nat} {c d : Cursor} (h : follow?.child n c = some d) :
    d.path.dropLast = c.path.dropLast := by
  cases n with
  | zero =>
      cases h
      rfl
  | succ n =>
      obtain ⟨parent, i, hc, hd, -, -⟩ := path_child h
      rw [hc, hd, List.dropLast_concat, List.dropLast_concat]

/-! ### Positions -/

theorem isSamePosition_self (c : Cursor) : c.isSamePosition c := by
  unfold isSamePosition
  cases c.frames <;> simp

theorem index?_eq_of_isSamePosition {c d : Cursor} (h : c.isSamePosition d) :
    c.index? = d.index? := by
  unfold isSamePosition at h
  unfold index?
  split at h
  · next hc hd => rw [hc, hd]
  · next hc hd =>
    rw [hc, hd]
    simp only [Bool.and_eq_true, beq_iff_eq] at h
    exact congrArg some h.1
  · cases h

theorem isSamePosition_of_child {n : Nat} {c d : Cursor}
    (h : follow?.child (n + 1) c = some d) : d.isSamePosition c = false := by
  obtain ⟨_, i, -, -, hc, hd⟩ := path_child h
  refine Bool.eq_false_iff.mpr fun hsame => ?_
  have heq := index?_eq_of_isSamePosition hsame
  rw [hc, hd] at heq
  have := Option.some.inj heq
  omega

end Cursor

end Nesting
