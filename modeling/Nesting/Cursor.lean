import Nesting.Tree.Basic

/-! # Cursors

A `Cursor` is a node of a tree together with the levels above it, each of which holds the parent
and the index of the child in it.  Moves and replacements give new cursors, and nothing is changed
in place.

A replacement is carried up late.  The new node stands below a parent that still has the old child,
and is marked as changed.  The first move away from it puts it into a copy of the parent
(`Cursor.settle`), which is then marked as changed in its turn, and so on to the top.  Climbing
there (`Cursor.climb`) gives the tree with every replacement made (`Cursor.root`).  What is not
marked is in step with what is above it (`Frame.InStep`), and every cursor carries a proof of that.

Nodes also have an identity, which tells a node from an equal one elsewhere and survives moves:
an `Origin` says where a node comes from.  A copy of a parent is a new node, and its origin holds
the stamp of the move that made it: two such copies are the same only if they were made with the
same stamp.  Where nothing was replaced no copies are made, and the stamp, which is zero unless it
is given, makes no difference. -/

namespace Nesting

/-! ### Identity -/

/-- Where a node comes from. -/
inductive Origin
  /-- A whole tree that was given from outside. -/
  | given (id : Nat)
  /-- The child at an index of an older node. -/
  | child (parent : Origin) (index : Nat)
  /-- A copy of a node in which the child at an index was replaced. -/
  | rebuilt (stamp : Nat) (base : Origin) (index : Nat) (replacement : Origin)
  deriving DecidableEq, Repr, Inhabited

/-- Where the child at an index comes from.  A copy shares all children but the replaced one. -/
def Origin.down : Origin → Nat → Origin
  | rebuilt _ base j replacement, i => if i = j then replacement else base.down i
  | origin, i => .child origin i

/-! ### Levels -/

/-- One level above a cursor: the parent, and the child of it that the cursor is in. -/
structure Frame where
  tree : Tree
  index : Nat
  index_lt : index < tree.children.length
  /-- Where the parent comes from. -/
  origin : Origin
  /-- The parent is not the child that its own parent has there. -/
  changed : Bool
  /-- The number of levels from here to the top. -/
  depth : Nat
  deriving Repr

namespace Frame

def after (f : Frame) : List Node := f.tree.children.drop (f.index + 1)

/-- The parent with a node in the place of the child. -/
def fill (f : Frame) (n : Node) : Tree :=
  { f.tree with children := f.tree.children.set f.index n }

/-- The level with a copy of the parent that has a node in the place of the child. -/
def patch (f : Frame) (n : Node) (origin : Origin) (stamp : Nat) : Frame :=
  { f with
    tree := f.fill n
    index_lt := by simpa [fill] using f.index_lt
    origin := .rebuilt stamp f.origin f.index origin
    changed := true }

/-- The level with another child of the same parent. -/
def turn (f : Frame) (index : Nat) (h : index < f.tree.children.length) : Frame :=
  { f with index, index_lt := h }

/-- Levels that fit a node below them.  The parent has the node as its child unless the node is
marked as changed, and so for each parent in turn; and each level knows how deep it is. -/
inductive InStep : Bool → Node → List Frame → Prop
  | top {changed n} : InStep changed n []
  | level {changed n f frames} : (changed = false → f.tree.children[f.index]? = some n) →
      f.depth = frames.length + 1 → InStep f.changed f.tree.toNode frames →
      InStep changed n (f :: frames)

section InStep

variable {changed : Bool} {n : Node} {f : Frame} {frames : List Frame}

theorem InStep.outer : InStep changed n (f :: frames) → InStep f.changed f.tree.toNode frames
  | .level _ _ h => h

theorem InStep.depth_eq : InStep changed n (f :: frames) → f.depth = frames.length + 1
  | .level _ h _ => h

theorem InStep.child : InStep false n (f :: frames) → f.tree.children[f.index]? = some n
  | .level h _ _ => h rfl

/-- A node that is marked as changed can be any node. -/
theorem InStep.replaced (h : InStep changed n frames) (m : Node) : InStep true m frames := by
  cases h with
  | top => exact .top
  | level _ hdepth houter => exact .level nofun hdepth houter

theorem InStep.patched (h : InStep changed n (f :: frames)) (origin : Origin) (stamp : Nat) :
    InStep false n (f.patch n origin stamp :: frames) :=
  .level (fun _ => List.getElem?_set_self f.index_lt) h.depth_eq (h.outer.replaced _)

theorem InStep.turned (h : InStep changed n (f :: frames)) {i : Nat}
    (hi : i < f.tree.children.length) :
    InStep false f.tree.children[i] (f.turn i hi :: frames) :=
  .level (fun _ => List.getElem?_eq_getElem hi) h.depth_eq h.outer

end InStep

end Frame

/-! ### Cursors -/

/-- A node and all that lies around it. -/
@[ext]
structure Cursor where
  node : Node
  /-- Where the node comes from. -/
  origin : Origin
  /-- The node is not the child that its parent has there. -/
  changed : Bool
  /-- The levels above, the nearest first. -/
  frames : List Frame
  inStep : Frame.InStep changed node frames
  deriving Repr

inductive Direction
  | down
  | up
  | left
  | right
  deriving DecidableEq, Repr

namespace Cursor

/-- A cursor at the top of a tree, which has an identity of its own. -/
def top (node : Node) (id : Nat) : Cursor :=
  { node, origin := .given id, changed := false, frames := [], inStep := .top }

/-- The number of levels above. -/
def depth (c : Cursor) : Nat := c.frames.head?.elim 0 (·.depth)

theorem depth_eq (c : Cursor) : c.depth = c.frames.length := by
  obtain ⟨n, origin, changed, frames, inStep⟩ := c
  cases frames with
  | nil => rfl
  | cons f frames => exact inStep.depth_eq

/-- The index among the siblings; the top has none. -/
def index? (c : Cursor) : Option Nat := c.frames.head?.map (·.index)

def after (c : Cursor) : List Node :=
  match c.frames with
  | [] => []
  | f :: _ => f.after

/-- The indices that lead from the top to the node. -/
def path (c : Cursor) : List Nat := (c.frames.map (·.index)).reverse

/-! ### Moves -/

/-- The same cursor, with a copy of the parent around the node if that is marked as changed. -/
def settle (c : Cursor) (stamp : Nat) : Cursor :=
  match c with
  | { node, origin, changed := true, frames := f :: frames, inStep } =>
    { node, origin, changed := false, frames := f.patch node origin stamp :: frames
      inStep := inStep.patched origin stamp }
  | c => c

def down (c : Cursor) : Option Cursor :=
  match h : c.node with
  | .tree kind opening closing (n :: right) =>
    have outer : Frame.InStep c.changed (.tree kind opening closing (n :: right)) c.frames :=
      h ▸ c.inStep
    let f : Frame :=
      { tree := { kind, opening, closing, children := n :: right }, index := 0
        index_lt := Nat.succ_pos _, origin := c.origin, changed := c.changed
        depth := c.depth + 1 }
    some
      { node := n, origin := c.origin.down 0, changed := false, frames := f :: c.frames
        inStep := .level (fun _ => rfl) (congrArg (· + 1) c.depth_eq) outer }
  | _ => none

def up (c : Cursor) (stamp : Nat := 0) : Option Cursor :=
  match c.settle stamp with
  | { frames := [], .. } => none
  | { frames := f :: frames, inStep, .. } =>
    some
      { node := f.tree.toNode, origin := f.origin, changed := f.changed, frames
        inStep := inStep.outer }

def sibling (c : Cursor) (delta : Int) (stamp : Nat) : Option Cursor :=
  match c.settle stamp with
  | { frames := [], .. } => none
  | { frames := f :: frames, inStep, .. } => do
    let index ← (f.index + delta).toNat?
    if h : index < f.tree.children.length then
      some
        { node := f.tree.children[index], origin := f.origin.down index, changed := false
          frames := f.turn index h :: frames, inStep := inStep.turned h }
    else
      none

def right (c : Cursor) (stamp : Nat := 0) : Option Cursor := c.sibling 1 stamp

def left (c : Cursor) (stamp : Nat := 0) : Option Cursor := c.sibling (-1) stamp

/-- Moves a cursor.  The stamp is for the copy of the parent that a move away from a changed node
makes. -/
def move (c : Cursor) (stamp : Nat) : Direction → Option Cursor
  | .down => c.down
  | .up => c.up stamp
  | .left => c.left stamp
  | .right => c.right stamp

/-- The cursor and those of the siblings after it, which are given. -/
def onward : List Node → Cursor → List Cursor
  | [], c => [c]
  | _ :: after, c =>
    match c.right with
    | some d => c :: onward after d
    | none => [c]

def children (c : Cursor) : List Cursor :=
  match c.down with
  | some d => onward d.after d
  | none => []

/-! ### Replacements -/

/-- Another node in place of this one, which comes from somewhere. -/
def put (c : Cursor) (node : Node) (origin : Origin) : Cursor :=
  { c with node, origin, changed := true, inStep := c.inStep.replaced node }

/-- Another node in place of this one, with an identity of its own. -/
def replace (c : Cursor) (node : Node) (id : Nat) : Cursor := c.put node (.given id)

/-- The cursor after as many moves up as there are levels.  The copies of the parents are made with
one stamp after the other. -/
def climb (c : Cursor) (stamp : Nat) : Cursor := go c.depth stamp c
where
  /-- Moves up a number of levels. -/
  go : Nat → Nat → Cursor → Cursor
    | 0, _, c => c
    | n + 1, stamp, c =>
      match c.up stamp with
      | some p => go n (stamp + 1) p
      | none => c

/-- The whole tree, with every replacement made. -/
def root (c : Cursor) : Node := (c.climb 0).node

/-! ### Paths -/

/-- The descendant at a path of indices. -/
def follow? : List Nat → Cursor → Option Cursor
  | [], c => some c
  | i :: path, c => do follow? path (← child i (← c.down))
where
  /-- The sibling that lies `n` places further. -/
  child : Nat → Cursor → Option Cursor
    | 0, c => some c
    | n + 1, c => do child n (← c.right)

/-! ### Comparing cursors -/

/-- Two cursors are at the same place of the same parent, or both at the top of the same tree. -/
def isSamePosition (c d : Cursor) : Bool :=
  match c.frames, d.frames with
  | [], [] => c.origin == d.origin
  | f :: _, g :: _ => f.index == g.index && f.origin == g.origin
  | _, _ => false

def isSameNode (c d : Cursor) : Bool := c.origin == d.origin

end Cursor

end Nesting
