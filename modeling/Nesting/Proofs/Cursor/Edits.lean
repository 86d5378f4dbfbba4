import Nesting.Editor
import Nesting.Proofs.Cursor.Moves
import Nesting.Proofs.Tree.Paths

/-! # A cursor is a tree and a path

A cursor carries its replacements up late: a parent stays behind until the cursor leaves the child
that was replaced, and then only that parent is copied.  Seen from outside, a cursor is a whole
tree, in which all replacements are made, and the path of a node in it (`Cursor.location`).  Moves
change the path alone, and succeed when the tree has a node there; a replacement changes the tree at
the path (`Location.edit?`).

The whole tree is also what comes out if every parent is brought up to date at once
(`Frame.fillAll`).  A level whose child is not marked as changed is up to date already, so neither
climbing nor any other move changes that tree (`Cursor.root_eq_fillAll`).  What one step does is
`Cursor.location_edit?`, and so every run of a cursor is a run of trees and paths
(`Cursor.location_run`).  The steps of an editing session are such steps as well
(`Editor.location_move?`). -/

namespace Nesting

/-! ### Trees with a path -/

/-- A step of a run: a move, with the stamp for a copy of the parent, or the replacement of the node
by one that comes from somewhere. -/
inductive Edit
  | move (stamp : Nat) (direction : Direction)
  | replace (node : Node) (origin : Origin)
  deriving Repr

/-- The path that a move leads to. -/
def Direction.target? : Direction → List Nat → Option (List Nat)
  | .down, path => some (path ++ [0])
  | .up, path => if path = [] then none else some path.dropLast
  | .right, path => path.getLast?.map fun i => path.dropLast ++ [i + 1]
  | .left, path =>
    match path.getLast? with
    | some (i + 1) => some (path.dropLast ++ [i])
    | _ => none

/-- A tree and a path in it. -/
structure Location where
  whole : Node
  path : List Nat
  deriving DecidableEq, Repr

/-- The location after a step.  A move needs a node where it leads. -/
def Location.edit? (l : Location) : Edit → Option Location
  | .move _ d => do
    let path ← d.target? l.path
    if (l.whole.at? path).isSome then some { l with path } else none
  | .replace node _ => some { l with whole := l.whole.replaceAt l.path node }

section target

variable (above : List Nat) (i : Nat)

theorem target?_up_concat : Direction.up.target? (above ++ [i]) = some above := by
  simp [Direction.target?]

theorem target?_right_concat :
    Direction.right.target? (above ++ [i]) = some (above ++ [i + 1]) := by
  simp [Direction.target?]

theorem target?_left_concat_zero : Direction.left.target? (above ++ [0]) = none := by
  simp [Direction.target?]

theorem target?_left_concat_succ :
    Direction.left.target? (above ++ [i + 1]) = some (above ++ [i]) := by
  simp [Direction.target?]

end target

namespace Location

variable {l : Location} {stamp : Nat} {d : Direction} {path : List Nat}

theorem edit?_move_of_isSome (ht : d.target? l.path = some path) (h : (l.whole.at? path).isSome) :
    l.edit? (.move stamp d) = some { l with path } := by
  simp [edit?, ht, h]

theorem edit?_move_of_none (ht : d.target? l.path = some path) (h : l.whole.at? path = none) :
    l.edit? (.move stamp d) = none := by
  simp [edit?, ht, h]

theorem edit?_move_of_target?_eq_none (ht : d.target? l.path = none) :
    l.edit? (.move stamp d) = none := by
  simp [edit?, ht]

end Location

/-! ### Levels up to date -/

namespace Frame

theorem getElem?_fill (f : Frame) (n : Node) : (f.fill n).children[f.index]? = some n :=
  List.getElem?_set_self f.index_lt

theorem replaceAt_fill (f : Frame) (n m : Node) :
    (f.fill n).toNode.replaceAt [f.index] m = (f.fill m).toNode := by
  have hmodify : (f.tree.children.set f.index n).modify f.index (·.replaceAt [] m) =
      f.tree.children.set f.index m := by
    apply List.ext_getElem?
    intro j
    rw [List.getElem?_modify, List.getElem?_set, List.getElem?_set]
    split
    · simp [f.index_lt]
    · simp
  rw [fill, fill, Tree.toNode, Tree.toNode, Node.replaceAt, hmodify]

/-- The whole tree around a node, with the node below put into every parent. -/
def fillAll (frames : List Frame) (n : Node) : Node :=
  frames.foldl (fun n f => (f.fill n).toNode) n

theorem fillAll_cons (f : Frame) (frames : List Frame) (n : Node) :
    fillAll (f :: frames) n = fillAll frames (f.fill n).toNode := rfl

theorem at?_fillAll (frames : List Frame) (n : Node) :
    (fillAll frames n).at? (frames.map (·.index)).reverse = some n := by
  induction frames generalizing n with
  | nil => rfl
  | cons f frames ih =>
      rw [List.map_cons, List.reverse_cons, fillAll_cons, Node.at?_concat, ih]
      exact getElem?_fill f n

theorem fillAll_eq_replaceAt (frames : List Frame) (n m : Node) :
    fillAll frames m = (fillAll frames n).replaceAt (frames.map (·.index)).reverse m := by
  induction frames generalizing n m with
  | nil => exact (Node.replaceAt_nil n m).symm
  | cons f frames ih =>
      -- The parent is found at its path, and the replacement is made inside it.
      rw [List.map_cons, List.reverse_cons, fillAll_cons, fillAll_cons,
        Node.replaceAt_append (at?_fillAll frames (f.fill n).toNode), replaceAt_fill]
      exact ih _ _

end Frame

namespace Cursor

variable {c c' d p : Cursor} {stamp : Nat}

open Nesting.Frame (fillAll)

theorem fillAll_settle (c : Cursor) (stamp : Nat) :
    fillAll (c.settle stamp).frames c.node = fillAll c.frames c.node := by
  obtain ⟨n, origin, changed, frames, inStep⟩ := c
  cases changed with
  | false => cases frames <;> rfl
  | true =>
      cases frames with
      | nil => rfl
      | cons f frames =>
          -- The copy of the parent has the node in it, and takes it in once more.
          have hfill : (f.patch n origin stamp).fill n = f.fill n := by
            simp [Frame.fill, Frame.patch, List.set_set]
          show fillAll frames ((f.patch n origin stamp).fill n).toNode = _
          rw [hfill]
          rfl

/-- A move up does not change the whole tree: the parent that it leads to is up to date. -/
theorem fillAll_up (h : c.up stamp = some p) :
    fillAll p.frames p.node = fillAll c.frames c.node := by
  obtain ⟨f, hframes, hnode, -⟩ := up_eq_some_iff.mp h
  rw [← fillAll_settle c stamp, hframes, Frame.fillAll_cons,
    Frame.fill_of_child (child_of_frames hframes), hnode]

theorem go_climb {n : Nat} (hn : c.depth = n) (stamp : Nat) :
    (climb.go n stamp c).frames = [] ∧
      (climb.go n stamp c).node = fillAll c.frames c.node := by
  induction n generalizing c stamp with
  | zero =>
      have hframes : c.frames = [] := List.length_eq_zero_iff.mp (c.depth_eq ▸ hn)
      exact ⟨hframes, by rw [hframes]; rfl⟩
  | succ n ih =>
      obtain ⟨p, hup⟩ : ∃ p, c.up stamp = some p := exists_up (hn ▸ Nat.succ_ne_zero n)
      have hdepth : p.depth = n := Nat.succ.inj ((depth_up hup).symm.trans hn)
      rw [climb.go, hup, ← fillAll_up hup]
      exact ih hdepth (stamp + 1)

theorem frames_climb (c : Cursor) (stamp : Nat) : (c.climb stamp).frames = [] :=
  (go_climb rfl stamp).1

/-- Climbing gives the tree in which every level is up to date. -/
theorem root_eq_fillAll (c : Cursor) : c.root = fillAll c.frames c.node := (go_climb rfl 0).2

/-- The stamps of the copies are of no account for the tree. -/
theorem node_climb (c : Cursor) (stamp : Nat) : (c.climb stamp).node = c.root :=
  (go_climb rfl stamp).2.trans c.root_eq_fillAll.symm

/-! ### What a cursor stands for -/

/-- The cursor after a step. -/
def edit? (c : Cursor) : Edit → Option Cursor
  | .move stamp d => c.move stamp d
  | .replace node origin => some (c.put node origin)

/-- The whole tree and the path of the node. -/
def location (c : Cursor) : Location := { whole := c.root, path := c.path }

/-- The path of a node leads to it. -/
theorem at?_path (c : Cursor) : c.root.at? c.path = some c.node := by
  rw [root_eq_fillAll]
  exact Frame.at?_fillAll c.frames c.node

theorem root_put (c : Cursor) (m : Node) (origin : Origin) :
    (c.put m origin).root = c.root.replaceAt c.path m := by
  rw [root_eq_fillAll, root_eq_fillAll]
  exact Frame.fillAll_eq_replaceAt c.frames c.node m

/-! ### What a move does -/

theorem root_up (h : c.up stamp = some p) : p.root = c.root := by
  rw [root_eq_fillAll, root_eq_fillAll, fillAll_up h]

theorem root_eq_of_up_eq {stamp' : Nat} (hc : c.path ≠ []) (h : d.up stamp' = c.up stamp) :
    d.root = c.root := by
  cases hp : c.up stamp with
  | none => exact absurd (path_eq_nil_of_up hp) hc
  | some p => rw [← root_up hp, root_up (h.trans hp)]

theorem location_move_of_some {d : Direction} (hroot : c'.root = c.root)
    (ht : d.target? c.path = some c'.path) :
    some c'.location = c.location.edit? (.move stamp d) := by
  have hnode : (c.root.at? c'.path).isSome := by
    rw [← hroot, at?_path]
    rfl
  rw [Location.edit?_move_of_isSome (l := c.location) ht hnode]
  simp [location, hroot]

theorem location_down (c : Cursor) (stamp : Nat) :
    c.down.map location = c.location.edit? (.move stamp .down) := by
  cases h : c.down with
  | some d =>
      have hup : d.up = some c := up_of_down h
      exact location_move_of_some (root_up hup).symm (congrArg some (path_down h).symm)
  | none =>
      have hnone : c.root.at? (c.path ++ [0]) = none := by
        rw [Node.at?_concat, at?_path]
        simp [down_eq_none_iff.mp h]
      rw [Location.edit?_move_of_none (l := c.location) rfl hnone]
      rfl

theorem location_up (c : Cursor) (stamp : Nat) :
    (c.up stamp).map location = c.location.edit? (.move stamp .up) := by
  cases h : c.up stamp with
  | some p =>
      obtain ⟨i, hpath⟩ := path_up h
      exact location_move_of_some (root_up h) (hpath ▸ target?_up_concat p.path i)
  | none =>
      have htarget : Direction.up.target? c.location.path = none := if_pos (path_eq_nil_of_up h)
      rw [Location.edit?_move_of_target?_eq_none htarget]
      rfl

theorem location_right (c : Cursor) (stamp : Nat) :
    (c.right stamp).map location = c.location.edit? (.move stamp .right) := by
  cases h : c.right stamp with
  | some d =>
      obtain ⟨above, i, hc, hd, -, -⟩ := path_right h
      have hup : d.up = c.up stamp := up_right h
      refine location_move_of_some (root_eq_of_up_eq (by simp [hc]) hup) ?_
      rw [hc, hd]
      exact target?_right_concat above i
  | none =>
      cases hup : c.up stamp with
      | none =>
          have htarget : Direction.right.target? c.location.path = none := by
            simp [location, path_eq_nil_of_up hup, Direction.target?]
          rw [Location.edit?_move_of_target?_eq_none htarget]
          rfl
      | some p =>
          obtain ⟨i, hpath, hchildren⟩ := children_up hup
          have htarget : Direction.right.target? c.location.path = some (p.path ++ [i + 1]) := by
            rw [location, hpath]
            exact target?_right_concat p.path i
          have hnone : c.location.whole.at? (p.path ++ [i + 1]) = none := by
            rw [location, ← root_up hup, Node.at?_concat, at?_path, Option.bind_some]
            rw [right_eq_none_iff.mp h] at hchildren
            have hnext := congrArg (·[1]?) hchildren
            rwa [List.getElem?_drop] at hnext
          rw [Location.edit?_move_of_none htarget hnone]
          rfl

theorem location_left (c : Cursor) (stamp : Nat) :
    (c.left stamp).map location = c.location.edit? (.move stamp .left) := by
  cases h : c.left stamp with
  | some d =>
      obtain ⟨above, i, hc, hd⟩ := path_left h
      have hup : d.up = c.up stamp := up_left h
      refine location_move_of_some (root_eq_of_up_eq (by simp [hc]) hup) ?_
      rw [hc, hd]
      exact target?_left_concat_succ above i
  | none =>
      have htarget : Direction.left.target? c.location.path = none := by
        cases hframes : (c.settle stamp).frames with
        | nil =>
            have hpath : c.path = [] := by
              rw [← settle_path c stamp, path, hframes]
              rfl
            simp [location, hpath, Direction.target?]
        | cons f frames =>
            have hindex : f.index = 0 := by
              by_contra hne
              obtain ⟨i, hi⟩ := Nat.exists_eq_succ_of_ne_zero hne
              have hlt : i < f.tree.children.length := by
                have := f.index_lt
                omega
              obtain ⟨d, hd⟩ := exists_onChild hframes hlt
              rw [left_eq_some_iff.mpr ⟨f, frames, i, hframes, hi, hd⟩] at h
              cases h
            rw [location, path_of_frames hframes, hindex]
            exact target?_left_concat_zero _
      rw [Location.edit?_move_of_target?_eq_none htarget]
      rfl

/-! ### Runs -/

/-- A step of a cursor is the step of its tree and path. -/
theorem location_edit? (c : Cursor) (e : Edit) :
    (c.edit? e).map location = c.location.edit? e := by
  cases e with
  | move stamp d =>
      cases d with
      | down => exact location_down c stamp
      | up => exact location_up c stamp
      | left => exact location_left c stamp
      | right => exact location_right c stamp
  | replace node origin =>
      have hroot := root_put c node origin
      show some (c.put node origin).location = _
      rw [location, hroot]
      rfl

theorem location_foldlM (edits : List Edit) (c : Cursor) :
    (edits.foldlM edit? c).map location = edits.foldlM Location.edit? c.location := by
  induction edits generalizing c with
  | nil => rfl
  | cons e edits ih =>
      rw [List.foldlM_cons, List.foldlM_cons, ← location_edit?]
      cases h : c.edit? e with
      | none => rfl
      | some d => exact ih d

/-- **A cursor is a whole tree and a path.**  A run from the top of a tree has a next step exactly
when the tree, with all replacements made so far, has a node where the step leads, and then the
path, the index, the depth, the node and the whole tree are those of that run, whatever parents are
still behind.  Every index on the path is the index of a child, in the whole tree as well as in the
parent that its level holds. -/
theorem location_run (tree : Node) (id : Nat) (edits : List Edit) :
    (edits.foldlM edit? (top tree id)).map location =
      edits.foldlM Location.edit? { whole := tree, path := [] } ∧
    ∀ c, edits.foldlM edit? (top tree id) = some c →
      c.root.at? c.path = some c.node ∧ c.depth = c.path.length ∧ c.index? = c.path.getLast? ∧
      (∀ f ∈ c.frames, f.index < f.tree.children.length) ∧
      ∀ above i below, c.path = above ++ i :: below →
        ∃ parent, c.root.at? above = some parent ∧ i < parent.children.length := by
  refine ⟨location_foldlM edits (top tree id), fun c _ => ⟨at?_path c, ?_, ?_, ?_, ?_⟩⟩
  · exact (length_path c).symm
  · rw [index?, path, List.getLast?_reverse, List.head?_map]
  · exact fun f _ => f.index_lt
  · intro above i below hpath
    exact Node.lt_of_at?_eq_some (hpath ▸ at?_path c)

/-- A symbol before another one in brackets. -/
def symbolAndBrackets : Node :=
  .tree .root none none
    [.token (.make .symbol "a" ⟨0, 1, 1⟩),
     .tree .wrapped (some (.make .bracketLeft "(" ⟨1, 1, 2⟩))
      (some (.make .bracketRight ")" ⟨3, 1, 4⟩)) [.token (.make .symbol "b" ⟨2, 1, 3⟩)]]

/-- Replaces a symbol by two in brackets, then the second of these, and goes to what follows. -/
def replacingInside : List Edit :=
  [.move 1 .down,
   .replace (.tree .wrapped none none
     [.token (.make .symbol "x" {}), .token (.make .symbol "y" {})]) (.given 2),
   .move 3 .down, .move 4 .right, .replace (.token (.make .symbol "z" {})) (.given 5),
   .move 6 .left, .move 7 .up, .move 8 .right]

/-- Both replacements are in the tree, the second one inside the first. -/
theorem location_run_replacingInside :
    ∃ c, replacingInside.foldlM edit? (top symbolAndBrackets 0) = some c ∧
      c.path = [1] ∧ c.root.text = "xz(b)" ∧ c.node.text = "(b)" ∧
      c.root.at? c.path = some c.node ∧ c.depth = c.path.length ∧ c.index? = c.path.getLast? := by
  obtain ⟨c, hrun, hpath, hroot, hnode⟩ : ∃ c,
      replacingInside.foldlM edit? (top symbolAndBrackets 0) = some c ∧ c.path = [1] ∧
      c.root.text = "xz(b)" ∧ c.node.text = "(b)" := ⟨_, rfl, rfl, by decide, by decide⟩
  obtain ⟨hat, hdepth, hindex, -⟩ := (location_run symbolAndBrackets 0 replacingInside).2 c hrun
  exact ⟨c, hrun, hpath, hroot, hnode, hat, hdepth, hindex⟩

end Cursor

/-! ### Editing sessions -/

namespace Editor

/-- A session moves as a tree and a path do, whatever copies of parents it makes. -/
theorem location_move? (e : Editor) (d : Direction) :
    (e.move? d).map (·.cursor.location) = e.cursor.location.edit? (.move e.fresh d) := by
  rw [move?, Option.map_map]
  exact Cursor.location_edit? e.cursor (.move e.fresh d)

theorem location_replace (e : Editor) (node : Node) :
    some (e.replace node).cursor.location =
      e.cursor.location.edit? (.replace node (.given e.fresh)) :=
  Cursor.location_edit? e.cursor (.replace node (.given e.fresh))

end Editor

end Nesting
