import Mathlib.Data.List.Induction
import Nesting.Proofs.Cursor.Edits

/-! # The identity of nodes

Moves make new parents, but only around a node that was replaced.  `Cursor.Reached` relates a tree
to the cursors that moves and replacements lead to, and lists the paths of the replacements.
Without replacements every node on the way up is the one that the tree was given with, so a cursor
is known by its path, and the stamps of moves make no difference (`Cursor.Reached.move_eq`).  With
them, a node that lies at none of these paths, not below one and not above one, is still the node of
the tree (`Cursor.identities_of_runs`).

A parent that was left without its new child is behind: its origin is right only for the nodes
that no replacement has touched.  So what a run keeps (`Cursor.Kept`) is said of these nodes, for
the cursor and for every level above it. -/

namespace Nesting

/-! ### Origins along a path -/

namespace Origin

/-- Where the descendant at a path comes from. -/
def along (o : Origin) (p : List Nat) : Origin := p.foldl down o

theorem along_append (o : Origin) (p q : List Nat) : o.along (p ++ q) = (o.along p).along q :=
  List.foldl_append

theorem along_cons (o : Origin) (i : Nat) (p : List Nat) : o.along (i :: p) = (o.down i).along p :=
  rfl

theorem along_given_concat (id : Nat) (p : List Nat) (i : Nat) :
    (given id).along (p ++ [i]) = child ((given id).along p) i := by
  induction p using List.reverseRecOn generalizing i with
  | nil => rfl
  | append_singleton p j ih =>
      rw [along_append, ih]
      rfl

/-- Distinct positions of a tree that was given hold distinct nodes. -/
theorem along_given_inj {id : Nat} {p q : List Nat} (h : (given id).along p = (given id).along q) :
    p = q := by
  induction p using List.reverseRecOn generalizing q with
  | nil =>
      rcases List.eq_nil_or_concat' q with rfl | ⟨q, j, rfl⟩
      · rfl
      · rw [along_given_concat] at h
        cases h
  | append_singleton p i ih =>
      rcases List.eq_nil_or_concat' q with rfl | ⟨q, j, rfl⟩
      · rw [along_given_concat] at h
        cases h
      · rw [along_given_concat, along_given_concat] at h
        obtain ⟨hpq, rfl⟩ := Origin.child.inj h
        rw [ih hpq]

end Origin

/-- A path that is neither at, nor below, nor above any of some paths. -/
def Untouched (replaced : List (List Nat)) (p : List Nat) : Prop :=
  ∀ r ∈ replaced, ¬ r <+: p ∧ ¬ p <+: r

instance (replaced : List (List Nat)) (p : List Nat) : Decidable (Untouched replaced p) :=
  inferInstanceAs (Decidable (∀ r ∈ replaced, ¬ r <+: p ∧ ¬ p <+: r))

theorem Untouched.of_cons {replaced : List (List Nat)} {r p : List Nat}
    (h : Untouched (r :: replaced) p) : Untouched replaced p :=
  fun s hs => h s (List.mem_cons_of_mem r hs)

namespace Cursor

/-! ### Runs -/

/-- The cursors that moves and replacements lead to from the top of a tree, with the paths of the
nodes that were replaced on the way.  A new node may come from anywhere, from the tree as well. -/
inductive Reached (tree : Node) (id : Nat) : List (List Nat) → Cursor → Prop
  | top : Reached tree id [] (.top tree id)
  | move {replaced c d} (stamp : Nat) (direction : Direction) : Reached tree id replaced c →
      c.move stamp direction = some d → Reached tree id replaced d
  | replace {replaced c} (node : Node) (origin : Origin) : Reached tree id replaced c →
      Reached tree id (c.path :: replaced) (c.put node origin)

theorem root_move {c d : Cursor} {stamp : Nat} {direction : Direction}
    (h : c.move stamp direction = some d) : d.root = c.root := by
  have hlocation := location_edit? c (.move stamp direction)
  rw [edit?, h, Option.map_some, Location.edit?] at hlocation
  obtain ⟨path, -, hpath⟩ := Option.bind_eq_some_iff.mp hlocation.symm
  split at hpath
  · exact (congrArg Location.whole (Option.some.inj hpath)).symm
  · cases hpath

/-! ### What a run keeps -/

/-- An origin at a path is that of the given tree as far as nothing was replaced, and the node
there is only marked as changed where something was. -/
structure IsKept (id : Nat) (replaced : List (List Nat)) (o : Origin) (changed : Bool)
    (p : List Nat) : Prop where
  along : ∀ q, Untouched replaced (p ++ q) → o.along q = (Origin.given id).along (p ++ q)
  changed : changed → ∃ r ∈ replaced, p <+: r

/-- The path of the node whose levels above are given. -/
def pathOf (frames : List Frame) : List Nat := (frames.map (·.index)).reverse

theorem pathOf_cons (f : Frame) (frames : List Frame) :
    pathOf (f :: frames) = pathOf frames ++ [f.index] := by
  rw [pathOf, List.map_cons, List.reverse_cons]
  rfl

/-- The same for all levels above a cursor. -/
def FramesKept (id : Nat) (replaced : List (List Nat)) : List Frame → Prop
  | [] => True
  | f :: frames =>
    IsKept id replaced f.origin f.changed (pathOf frames) ∧ FramesKept id replaced frames

/-- The same for a cursor and all levels above it. -/
structure Kept (id : Nat) (replaced : List (List Nat)) (c : Cursor) : Prop where
  node : IsKept id replaced c.origin c.changed (pathOf c.frames)
  frames : FramesKept id replaced c.frames

section kept

variable {id : Nat} {replaced : List (List Nat)} {o : Origin} {changed : Bool} {p : List Nat}

theorem IsKept.down (h : IsKept id replaced o changed p) (i : Nat) :
    IsKept id replaced (o.down i) false (p ++ [i]) where
  along q hq := by
    rw [List.append_assoc, List.singleton_append] at hq ⊢
    exact h.along (i :: q) hq
  changed := nofun

theorem IsKept.cons (h : IsKept id replaced o changed p) (r : List Nat) :
    IsKept id (r :: replaced) o changed p where
  along q hq := h.along q hq.of_cons
  changed hchanged := by
    obtain ⟨s, hs, hp⟩ := h.changed hchanged
    exact ⟨s, List.mem_cons_of_mem r hs, hp⟩

theorem FramesKept.cons {frames : List Frame} (h : FramesKept id replaced frames) (r : List Nat) :
    FramesKept id (r :: replaced) frames := by
  induction frames with
  | nil => trivial
  | cons f frames ih => exact ⟨h.1.cons r, ih h.2⟩

/-- A new parent around a changed node.  It is itself above a replacement. -/
theorem IsKept.rebuilt {i : Nat} {child : Origin} (h : IsKept id replaced o changed p)
    (hchild : IsKept id replaced child true (p ++ [i])) (stamp : Nat) :
    IsKept id replaced (.rebuilt stamp o i child) true p := by
  obtain ⟨r, hr, hprefix⟩ := hchild.changed rfl
  have habove : p <+: r := (List.prefix_append p [i]).trans hprefix
  refine ⟨fun q hq => ?_, fun _ => ⟨r, hr, habove⟩⟩
  cases q with
  | nil =>
      rw [List.append_nil] at hq
      exact absurd habove (hq r hr).2
  | cons j q =>
      rw [Origin.along_cons, Origin.down]
      split
      · next hji =>
        subst hji
        rw [← List.singleton_append, ← List.append_assoc] at hq ⊢
        exact hchild.along q hq
      · exact h.along (j :: q) hq

variable {c d : Cursor} {stamp : Nat}

theorem OnChild.kept {f : Frame} {frames : List Frame} {i : Nat} (hd : d.OnChild f frames i)
    (hf : IsKept id replaced f.origin f.changed (pathOf frames))
    (hframes : FramesKept id replaced frames) : d.Kept id replaced := by
  obtain ⟨-, horigin, hchanged, hi, hdframes⟩ := hd
  have hnode := hf.down i
  rw [← horigin, ← hchanged] at hnode
  refine ⟨?_, ?_⟩
  · rw [hdframes, pathOf_cons]
    exact hnode
  · rw [hdframes]
    exact ⟨hf, hframes⟩

theorem Kept.settle (h : c.Kept id replaced) (stamp : Nat) : (c.settle stamp).Kept id replaced := by
  obtain ⟨n, origin, changed, frames, inStep⟩ := c
  cases changed with
  | false => cases frames <;> exact h
  | true =>
      cases frames with
      | nil => exact h
      | cons f frames =>
          obtain ⟨hnode, hframe, hframes⟩ := h
          have hchild : IsKept id replaced origin true (pathOf frames ++ [f.index]) :=
            pathOf_cons f frames ▸ hnode
          exact ⟨⟨hnode.along, nofun⟩, hframe.rebuilt hchild stamp, hframes⟩

theorem Kept.down (h : c.Kept id replaced) (hd : c.down = some d) : d.Kept id replaced := by
  obtain ⟨f, hchild, -, -, horigin, hchanged⟩ := onChild_of_down hd
  exact hchild.kept (horigin ▸ hchanged ▸ h.node) h.frames

theorem Kept.up (h : c.Kept id replaced) (hd : c.up stamp = some d) : d.Kept id replaced := by
  obtain ⟨f, hframes, -, horigin, hchanged⟩ := up_eq_some_iff.mp hd
  have hall := (h.settle stamp).frames
  rw [hframes] at hall
  exact ⟨horigin ▸ hchanged ▸ hall.1, hall.2⟩

theorem Kept.right (h : c.Kept id replaced) (hd : c.right stamp = some d) :
    d.Kept id replaced := by
  obtain ⟨f, frames, hframes, hchild⟩ := right_eq_some_iff.mp hd
  have hall := (h.settle stamp).frames
  rw [hframes] at hall
  exact hchild.kept hall.1 hall.2

theorem Kept.left (h : c.Kept id replaced) (hd : c.left stamp = some d) : d.Kept id replaced := by
  obtain ⟨f, frames, i, hframes, -, hchild⟩ := left_eq_some_iff.mp hd
  have hall := (h.settle stamp).frames
  rw [hframes] at hall
  exact hchild.kept hall.1 hall.2

theorem Kept.move (h : c.Kept id replaced) {direction : Direction}
    (hd : c.move stamp direction = some d) : d.Kept id replaced := by
  cases direction with
  | down => exact h.down hd
  | up => exact h.up hd
  | left => exact h.left hd
  | right => exact h.right hd

theorem Kept.put (h : c.Kept id replaced) (node : Node) (origin : Origin) :
    Kept id (c.path :: replaced) (c.put node origin) := by
  refine ⟨⟨fun q hq => ?_, fun _ => ?_⟩, h.frames.cons c.path⟩
  · exact absurd (List.prefix_append _ q) (hq c.path List.mem_cons_self).1
  · exact ⟨c.path, List.mem_cons_self, List.prefix_rfl⟩

end kept

namespace Reached

variable {tree : Node} {id : Nat} {replaced : List (List Nat)} {c d : Cursor}

theorem kept (h : Reached tree id replaced c) : c.Kept id replaced := by
  induction h with
  | top => exact ⟨⟨fun _ _ => rfl, nofun⟩, trivial⟩
  | move _ _ _ hmove ih => exact ih.move hmove
  | replace node origin _ ih => exact ih.put node origin

/-- What no replacement has touched is what the tree has there. -/
theorem at?_root (h : Reached tree id replaced c) {p : List Nat} (hp : Untouched replaced p) :
    c.root.at? p = tree.at? p := by
  induction h with
  | top => rfl
  | move _ _ _ hmove ih => rw [root_move hmove, ih hp]
  | @replace replaced c node origin _ ih =>
      obtain ⟨hbelow, habove⟩ := hp c.path List.mem_cons_self
      rw [root_put, Node.at?_replaceAt_of_apart hbelow habove, ih hp.of_cons]

theorem root_eq (h : Reached tree id [] c) : c.root = tree :=
  Option.some.inj (h.at?_root (p := []) nofun)

theorem origin_eq (h : Reached tree id [] c) : c.origin = (Origin.given id).along c.path := by
  have horigin := h.kept.node.along [] nofun
  rwa [List.append_nil] at horigin

theorem unchanged (h : Reached tree id [] c) : c.changed = false := by
  refine Bool.eq_false_iff.mpr fun hchanged => ?_
  obtain ⟨r, hr, -⟩ := h.kept.node.changed hchanged
  cases hr

theorem frame_origin (h : Reached tree id [] c) {f : Frame} {frames : List Frame}
    (hframes : c.frames = f :: frames) : f.origin = (Origin.given id).along (pathOf frames) := by
  have hall := h.kept.frames
  rw [hframes] at hall
  have horigin := hall.1.along [] nofun
  rwa [List.append_nil] at horigin

/-- Without replacements a cursor is known by its path. -/
theorem isSamePosition_iff (hc : Reached tree id [] c) (hd : Reached tree id [] d) :
    c.isSamePosition d ↔ c.path = d.path := by
  have hcpath : c.path = pathOf c.frames := rfl
  have hdpath : d.path = pathOf d.frames := rfl
  have hcorigin := hc.origin_eq
  have hdorigin := hd.origin_eq
  unfold isSamePosition
  rw [hcpath, hdpath] at *
  cases hcframes : c.frames with
  | nil =>
      cases hdframes : d.frames with
      | nil =>
          rw [hcframes] at hcorigin
          rw [hdframes] at hdorigin
          simp [hcorigin, hdorigin]
      | cons g frames' => simp [pathOf]
  | cons f frames =>
      cases hdframes : d.frames with
      | nil => simp [pathOf]
      | cons g frames' =>
          have hf := hc.frame_origin hcframes
          have hg := hd.frame_origin hdframes
          simp only [Bool.and_eq_true, beq_iff_eq, hf, hg, pathOf_cons]
          constructor
          · rintro ⟨hindex, horigin⟩
            rw [Origin.along_given_inj horigin, hindex]
          · intro hpath
            obtain ⟨habove, hindex⟩ := List.append_inj' hpath rfl
            rw [habove]
            exact ⟨List.singleton_inj.mp hindex, rfl⟩

theorem go_climb (h : Reached tree id replaced c) (n stamp : Nat) :
    Reached tree id replaced (climb.go n stamp c) := by
  induction n generalizing c stamp with
  | zero => exact h
  | succ n ih =>
      rw [climb.go]
      cases hup : c.up stamp with
      | none => exact h
      | some p => exact ih (h.move stamp .up hup) (stamp + 1)

theorem climb (h : Reached tree id replaced c) (stamp : Nat) :
    Reached tree id replaced (c.climb stamp) := h.go_climb c.depth stamp

/-- Without replacements the stamps of the moves make no difference. -/
theorem move_eq (h : Reached tree id [] c) (stamp stamp' : Nat) (direction : Direction) :
    c.move stamp direction = c.move stamp' direction := by
  have hsettle (stamp : Nat) : c.settle stamp = c := settle_of_unchanged h.unchanged stamp
  cases direction with
  | down => rfl
  | up =>
      show c.up stamp = c.up stamp'
      rw [up, up, hsettle, hsettle]
  | left =>
      show c.sibling (-1) stamp = c.sibling (-1) stamp'
      rw [sibling, sibling, hsettle, hsettle]
  | right =>
      show c.sibling 1 stamp = c.sibling 1 stamp'
      rw [sibling, sibling, hsettle, hsettle]

/-- Without replacements climbing ends at the top of the given tree. -/
theorem climb_eq_top (h : Reached tree id [] c) (stamp : Nat) : c.climb stamp = .top tree id := by
  have hreached := h.climb stamp
  have hframes := c.frames_climb stamp
  refine Cursor.ext ((c.node_climb stamp).trans h.root_eq) ?_ hreached.unchanged hframes
  rw [hreached.origin_eq, path, hframes]
  rfl

end Reached

/-! ### Nodes on a path -/

theorem node_child (n : Nat) (c : Cursor) :
    (follow?.child n c).map node = (c.node :: c.after)[n]? := by
  induction n generalizing c with
  | zero => rfl
  | succ n ih =>
      rw [child_succ, List.getElem?_cons_succ]
      cases hright : c.right with
      | none => simp [right_eq_none_iff.mp hright]
      | some d => exact after_right hright ▸ ih d

theorem getElem?_onward {c : Cursor} {after : List Node} (hafter : c.after = after) (n : Nat) :
    (onward after c)[n]? = follow?.child n c := by
  induction after generalizing c n with
  | nil =>
      cases n with
      | zero => rfl
      | succ n =>
          rw [child_succ, right_eq_none_iff.mpr hafter]
          rfl
  | cons m after ih =>
      cases hright : c.right with
      | none => simp [right_eq_none_iff.mp hright] at hafter
      | some d =>
          rw [onward, hright]
          cases n with
          | zero => rfl
          | succ n =>
              rw [child_succ, hright]
              refine ih ?_ n
              rw [after_right hright] at hafter
              exact (List.cons.inj hafter).2

theorem getElem?_children (c : Cursor) (n : Nat) : c.children[n]? = c.follow? [n] := by
  rw [follow?, children]
  cases c.down with
  | none => rfl
  | some d =>
      dsimp only
      rw [getElem?_onward rfl]
      exact (Option.bind_fun_some (follow?.child n d)).symm

theorem exists_down_of_children {c : Cursor} {n : Node} {ns : List Node}
    (h : c.node.children = n :: ns) : ∃ d, c.down = some d ∧ d.node = n := by
  cases hdown : c.down with
  | none => simp [down_eq_none_iff.mp hdown] at h
  | some d =>
      rw [children_down hdown] at h
      exact ⟨d, rfl, (List.cons.inj h).1⟩

theorem map_node_children (c : Cursor) : c.children.map node = c.node.children := by
  apply List.ext_getElem?
  intro n
  rw [List.getElem?_map, children]
  cases hdown : c.down with
  | none => simp [down_eq_none_iff.mp hdown]
  | some d =>
      dsimp only
      rw [getElem?_onward rfl, node_child, children_down hdown]

theorem OnChild.origin_child {n i : Nat} {c d : Cursor} {f : Frame} {frames : List Frame}
    (hc : c.OnChild f frames i) (h : follow?.child n c = some d) :
    d.origin = f.origin.down (i + n) := by
  induction n generalizing c f i with
  | zero =>
      cases h
      exact hc.origin
  | succ n ih =>
      obtain ⟨c', hright, h⟩ := Option.bind_eq_some_iff.mp h
      obtain ⟨g, frames', hframes, hc'⟩ := right_eq_some_iff.mp hright
      obtain ⟨hi, hturn⟩ := hc.settle_frames 0
      obtain ⟨rfl, rfl⟩ := List.cons.inj (hturn.symm.trans hframes)
      rw [ih hc' h, Nat.add_comm n 1, ← Nat.add_assoc]
      rfl

/-- The node on a path below a cursor, and where it comes from. -/
theorem follow?_eq (p : List Nat) (c : Cursor) :
    (c.follow? p).map (fun d => (d.origin, d.node)) =
      (c.node.at? p).map fun n => (c.origin.along p, n) := by
  induction p generalizing c with
  | nil => rfl
  | cons i p ih =>
      rw [follow?, Node.at?_cons]
      cases hdown : c.down with
      | none => simp [down_eq_none_iff.mp hdown]
      | some d =>
          have hnode := node_child i d
          rw [← children_down hdown] at hnode
          rw [← hnode]
          cases hchild : follow?.child i d with
          | none => simp [hchild]
          | some e =>
              have horigin : e.origin = c.origin.down i := by
                obtain ⟨f, hd, -, -, hf, -⟩ := onChild_of_down hdown
                rw [hd.origin_child hchild, hf, Nat.zero_add]
              rw [Origin.along_cons, ← horigin]
              simpa [hchild] using ih e

end Cursor

/-! ### Sessions -/

namespace Editor

/-- What can be done in an editing session. -/
inductive Action
  | move (direction : Direction)
  | replace (node : Node)
  | save (name : String)
  | load (name : String)
  deriving Repr

/-- A session after one more action. -/
def act? (e : Editor) : Action → Option Editor
  | .move direction => e.move? direction
  | .replace node => some (e.replace node)
  | .save name => some (e.save name)
  | .load name => e.load? name

/-- The cursor of a session, and all cursors that it keeps, have a property. -/
def All (P : Cursor → Prop) (e : Editor) : Prop := P e.cursor ∧ ∀ entry ∈ e.saved, P entry.2

variable {P : Cursor → Prop} {e s : Editor}

theorem All.start {tree : Node} (h : P (.top tree 0)) : (start tree).All P :=
  ⟨h, fun _ hentry => absurd hentry List.not_mem_nil⟩

theorem mem_of_savedAs? {name : String} {c : Cursor} (h : e.savedAs? name = some c) :
    ∃ entry ∈ e.saved, entry.2 = c := by
  obtain ⟨before, after, hsaved, -⟩ := List.lookup_eq_some_iff.mp h
  exact ⟨(name, c), by rw [hsaved]; simp, rfl⟩

/-- What moves and, if any are made, replacements keep is kept by a session. -/
theorem All.foldlM {actions : List Action}
    (move : ∀ c stamp direction d, P c → c.move stamp direction = some d → P d)
    (replace : ∀ node, .replace node ∈ actions → ∀ c id, P c → P (c.replace node id))
    (he : e.All P) (h : actions.foldlM act? e = some s) : s.All P := by
  induction actions generalizing e with
  | nil =>
      cases h
      exact he
  | cons a actions ih =>
      rw [List.foldlM_cons] at h
      obtain ⟨e', ha, h⟩ := Option.bind_eq_some_iff.mp h
      refine ih (fun node hnode => replace node (List.mem_cons_of_mem a hnode)) ?_ h
      cases a with
      | move direction =>
          obtain ⟨d, hd, rfl⟩ := Option.map_eq_some_iff.mp ha
          exact ⟨move e.cursor e.fresh direction d he.1 hd, he.2⟩
      | replace node =>
          cases ha
          exact ⟨replace node List.mem_cons_self e.cursor e.fresh he.1, he.2⟩
      | save name =>
          cases ha
          exact ⟨he.1, List.forall_mem_cons.mpr ⟨he.1, he.2⟩⟩
      | load name =>
          obtain ⟨c, hc, rfl⟩ := Option.map_eq_some_iff.mp ha
          obtain ⟨entry, hentry, rfl⟩ := mem_of_savedAs? hc
          exact ⟨he.2 entry hentry, he.2⟩

/-- A cursor stays under its name until another one is kept there. -/
theorem savedAs?_foldlM {actions : List Action} {name : String} (hname : .save name ∉ actions)
    (h : actions.foldlM act? e = some s) : s.savedAs? name = e.savedAs? name := by
  induction actions generalizing e with
  | nil =>
      cases h
      rfl
  | cons a actions ih =>
      rw [List.foldlM_cons] at h
      obtain ⟨e', ha, h⟩ := Option.bind_eq_some_iff.mp h
      rw [List.mem_cons, not_or] at hname
      rw [ih hname.2 h]
      cases a with
      | move direction =>
          obtain ⟨d, -, rfl⟩ := Option.map_eq_some_iff.mp ha
          rfl
      | replace node =>
          cases ha
          rfl
      | save other =>
          cases ha
          have hne : (name == other) = false := beq_false_of_ne fun heq => hname.1 (by rw [heq])
          show List.lookup name ((other, e.cursor) :: e.saved) = _
          rw [List.lookup_cons, hne]
          rfl
      | load other =>
          obtain ⟨c, -, rfl⟩ := Option.map_eq_some_iff.mp ha
          rfl

end Editor

namespace Cursor

/-- **The identity of nodes under moves and replacements.**  In this order: distinct positions of a
tree hold distinct nodes; runs without replacements end in the same tree; their cursors are at the
same position exactly if they have the same path; with replacements, what lies apart from them is
the same node as in the given tree.  In an editing session, a cursor that was kept before the first
replacement still stands in the given tree, and all cursors are those of runs. -/
theorem identities_of_runs (tree : Node) (id : Nat) :
    (∀ p q c d, (top tree id).follow? p = some c → (top tree id).follow? q = some d →
      (c.isSameNode d ↔ p = q)) ∧
    (∀ c, Reached tree id [] c → c.root = tree ∧ ∀ stamp, c.climb stamp = top tree id) ∧
    (∀ c d, Reached tree id [] c → Reached tree id [] d →
      (c.isSamePosition d ↔ c.path = d.path)) ∧
    (∀ replaced c, Reached tree id replaced c → ∀ stamp,
      (c.climb stamp).frames = [] ∧ (c.climb stamp).node = c.root ∧
      ∀ p, Untouched replaced p →
        Option.Rel (fun new old => new.isSameNode old ∧ new.node = old.node)
          ((c.climb stamp).follow? p) ((top tree id).follow? p)) ∧
    (∀ (earlier later : List Editor.Action) (name : String) (e s : Editor),
      (∀ node, .replace node ∉ earlier) →
      earlier.foldlM Editor.act? (.start tree) = some e →
      later.foldlM Editor.act? (e.save name) = some s → .save name ∉ later →
      s.savedAs? name = some e.cursor ∧ e.cursor.root = tree ∧
      ∀ stamp, e.cursor.climb stamp = top tree 0) ∧
    ∀ (actions : List Editor.Action) (s : Editor),
      actions.foldlM Editor.act? (.start tree) = some s →
      s.All fun c => ∃ replaced, Reached tree 0 replaced c := by
  refine ⟨?_, ?_, ?_, ?_, ?_, ?_⟩
  · intro p q c d hc hd
    have origin_eq {p : List Nat} {c : Cursor} (h : (top tree id).follow? p = some c) :
        c.origin = (Origin.given id).along p := by
      have hview := follow?_eq p (top tree id)
      rw [h] at hview
      obtain ⟨n, -, hn⟩ := Option.map_eq_some_iff.mp hview.symm
      exact (Prod.mk.inj hn).1.symm
    rw [isSameNode, beq_iff_eq, origin_eq hc, origin_eq hd]
    exact ⟨Origin.along_given_inj, fun h => h ▸ rfl⟩
  · exact fun c h => ⟨h.root_eq, h.climb_eq_top⟩
  · exact fun c d hc hd => hc.isSamePosition_iff hd
  · intro replaced c h stamp
    have hreached := h.climb stamp
    have hframes := c.frames_climb stamp
    have hnode := c.node_climb stamp
    refine ⟨hframes, hnode, fun p hp => ?_⟩
    have hnew := follow?_eq p (c.climb stamp)
    have horigin : (c.climb stamp).origin.along p = (Origin.given id).along p := by
      have hkept := hreached.kept.node
      rw [hframes] at hkept
      exact hkept.along p hp
    rw [horigin, hnode, h.at?_root hp] at hnew
    have hviews := hnew.trans (follow?_eq p (top tree id)).symm
    generalize (c.climb stamp).follow? p = new at hviews
    generalize (top tree id).follow? p = old at hviews
    cases new with
    | none =>
        cases old with
        | none => exact .none
        | some old => cases hviews
    | some new =>
        cases old with
        | none => cases hviews
        | some old =>
            obtain ⟨horigins, hnodes⟩ := Prod.mk.inj (Option.some.inj hviews)
            exact .some ⟨beq_iff_eq.mpr horigins, hnodes⟩
  · intro earlier later name e s hearlier he hs hlater
    have hall : e.All (Reached tree 0 []) :=
      .foldlM (fun c stamp direction d h => h.move stamp direction)
        (fun node hnode => absurd hnode (hearlier node)) (.start .top) he
    refine ⟨?_, hall.1.root_eq, hall.1.climb_eq_top⟩
    rw [Editor.savedAs?_foldlM hlater hs]
    exact List.lookup_cons_self
  · intro actions s hs
    refine .foldlM ?_ ?_ (.start ⟨[], .top⟩) hs
    · rintro c stamp direction d ⟨replaced, h⟩ hd
      exact ⟨replaced, h.move stamp direction hd⟩
    · rintro node - c id ⟨replaced, h⟩
      exact ⟨c.path :: replaced, h.replace node (.given id)⟩

/-- The symbol in the brackets is replaced, and the cursor moves to the symbol before them.  That
one is the same node as before, and the cursor that was kept still stands in the given tree, where
a move up leads back to the brackets. -/
theorem identities_of_runs_symbolInBrackets :
    ∃ (e s : Editor) (brackets back : Cursor),
      [.move .down, .move .right, .move .down].foldlM Editor.act? (.start symbolAndBrackets) =
        some e ∧
      [.replace (.token (.make .symbol "z" {})), .move .up, .move .left].foldlM Editor.act?
        (e.save "b") = some s ∧
      s.savedAs? "b" = some e.cursor ∧ e.cursor.climb 0 = top symbolAndBrackets 0 ∧
      brackets.down = some e.cursor ∧ e.cursor.up = some back ∧ back.isSamePosition brackets ∧
      s.cursor.root.text = "a(z)" ∧ (s.cursor.climb 7).node = s.cursor.root ∧
      Reached symbolAndBrackets 0 [[1, 0]] s.cursor ∧
      Option.Rel (fun new old => new.isSameNode old ∧ new.node = old.node)
        ((s.cursor.climb 7).follow? [0]) ((top symbolAndBrackets 0).follow? [0]) := by
  obtain ⟨-, -, hposition, happart, hkept, -⟩ := identities_of_runs symbolAndBrackets 0
  have hbrackets : Reached symbolAndBrackets 0 [] _ :=
    (Reached.top.move 1 .down rfl).move 2 .right rfl
  have hb : Reached symbolAndBrackets 0 [] _ := hbrackets.move 3 .down rfl
  have hz : Reached symbolAndBrackets 0 [[1, 0]] _ :=
    ((hb.replace (.token (.make .symbol "z" {})) (.given 4)).move 5 .up rfl).move 6 .left rfl
  obtain ⟨-, hnode, hrest⟩ := happart _ _ hz 7
  have hsession := hkept [.move .down, .move .right, .move .down]
    [.replace (.token (.make .symbol "z" {})), .move .up, .move .left] "b" _ _ (by simp) rfl rfl
    (by simp)
  have hback := (hposition _ _ (hb.move 4 .up rfl) hbrackets).mpr rfl
  exact ⟨_, _, _, _, rfl, rfl, hsession.1, hsession.2.2 0, rfl, rfl, hback, by decide +kernel,
    hnode, hz, hrest [0] (by decide)⟩

end Cursor

end Nesting
