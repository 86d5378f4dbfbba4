import Nesting.Proofs.Cursor.Moves

/-! # Document order

`Cursor.descendants` lists the cursors below a cursor as a reader meets them: a child, what is
below it, and then the next child.  It holds every descendant exactly once
(`mem_descendants_iff`), and the paths rise lexicographically (`pairwise_descendants`).

What comes after a cursor and all that is below it is found by climbing: `forward` is what lies at
and below the siblings ahead, and `following` goes on with the siblings ahead of the parents. -/

namespace Nesting

/-! ### Paths -/

theorem lt_append_cons (p : List Nat) (i : Nat) (q : List Nat) : p < p ++ i :: q := by
  induction p with
  | nil => exact List.nil_lt_cons i q
  | cons j p ih => exact List.cons_lt_cons_self.mpr ih

theorem append_cons_lt_append_cons {i j : Nat} (h : i < j) (p q r : List Nat) :
    p ++ i :: q < p ++ j :: r := by
  induction p with
  | nil => exact List.cons_lt_cons_iff.mpr (.inl h)
  | cons k p ih => exact List.cons_lt_cons_self.mpr ih

namespace Cursor

/-! ### Descendants -/

mutual

/-- The cursors below a cursor, whose node is given. -/
def visit : Node → Cursor → List Cursor
  | .token _, _ => []
  | .tree _ _ _ children, c => visitAll children c.down

/-- The cursors at and below some siblings, the first of which is given with their nodes. -/
def visitAll : List Node → Option Cursor → List Cursor
  | n :: ns, some c => c :: visit n c ++ visitAll ns c.right
  | _, _ => []

end

/-- The cursors below a cursor, in document order. -/
def descendants (c : Cursor) : List Cursor := visit c.node c

/-- The cursors at and below the siblings ahead, in document order. -/
def forward (c : Cursor) : List Cursor := visitAll c.after c.right

/-- The cursors at and below the siblings ahead of a cursor and of the parents around it, for a
number of levels. -/
def following : Nat → Cursor → List Cursor
  | 0, _ => []
  | n + 1, c => c.forward ++ c.up.elim [] (following n)

theorem visitAll_none (ns : List Node) : visitAll ns none = [] := by
  cases ns <;> rfl

theorem forward_of_right {c d : Cursor} (h : c.right = some d) :
    c.forward = d :: d.descendants ++ d.forward := by
  rw [forward, after_right h, h, visitAll]
  rfl

theorem forward_eq_nil {c : Cursor} (h : c.right = none) : c.forward = [] := by
  rw [forward, h, visitAll_none]

theorem descendants_of_down {c d : Cursor} (h : c.down = some d) :
    c.descendants = d :: d.descendants ++ d.forward := by
  have hchildren := children_down h
  rw [descendants]
  cases hnode : c.node with
  | token t =>
      rw [hnode] at hchildren
      cases hchildren
  | tree kind opening closing children =>
      rw [hnode] at hchildren
      obtain rfl : children = d.node :: d.after := hchildren
      rw [visit, h, visitAll]
      rfl

theorem descendants_eq_nil {c : Cursor} (h : c.down = none) : c.descendants = [] := by
  rw [descendants]
  cases c.node with
  | token t => rfl
  | tree kind opening closing children => rw [visit, h, visitAll_none]

/-- What is proved of a cursor from its children, and of siblings from the first of them and the
siblings after it, holds of every cursor, and of every one with the siblings ahead. -/
theorem document_induction {below ahead : Cursor → Prop}
    (leaf : ∀ c, c.down = none → below c)
    (tree : ∀ c d, c.down = some d → ahead d → below c)
    (last : ∀ c, c.right = none → below c → ahead c)
    (next : ∀ c d, c.right = some d → below c → ahead d → ahead c) :
    (∀ c, below c) ∧ ∀ c, ahead c := by
  -- The induction is on the nodes, not on the cursors.
  have all : (∀ n c, c.node = n → below c) ∧
      ∀ ns oc c, oc = some c → ns = c.node :: c.after → ahead c := by
    refine visit.mutual_induct (fun n c => c.node = n → below c)
      (fun ns oc => ∀ c, oc = some c → ns = c.node :: c.after → ahead c) ?_ ?_ ?_ ?_
    · intro t c hnode
      exact leaf c (down_eq_none_iff.mpr (by rw [hnode]; rfl))
    · intro kind opening closing children c ih hnode
      cases hdown : c.down with
      | none => exact leaf c hdown
      | some d =>
          have hchildren := children_down hdown
          rw [hnode] at hchildren
          exact tree c d hdown (ih d hdown hchildren)
    · intro n ns c ih ihs c' hc hns
      cases hc
      obtain ⟨hn, hns⟩ := List.cons.inj hns
      cases hright : c.right with
      | none => exact last c hright (ih hn.symm)
      | some d =>
          have hafter := after_right hright
          exact next c d hright (ih hn.symm) (ihs d hright (hns.trans hafter))
    · intro ns oc hno c hoc hns
      exact absurd hoc (hno _ _ _ hns)
  refine ⟨fun c => all.1 c.node c rfl, fun c => all.2 _ _ c rfl rfl⟩

/-! ### How many there are -/

theorem length_descendants_forward :
    (∀ c : Cursor, c.descendants.length + 1 = c.node.size) ∧
    ∀ c : Cursor, (c :: c.descendants ++ c.forward).length = Node.sizeAll (c.node :: c.after) := by
  have size_eq (n : Node) : n.size = Node.sizeAll n.children + 1 := by
    cases n <;> rfl
  apply document_induction
  · intro c hdown
    rw [size_eq, descendants_eq_nil hdown, down_eq_none_iff.mp hdown]
    rfl
  · intro c d hdown ih
    rw [size_eq, descendants_of_down hdown, children_down hdown, ih]
  · intro c hright ih
    rw [forward_eq_nil hright, right_eq_none_iff.mp hright, List.append_nil, List.length_cons, ih]
    rfl
  · intro c d hright ih ihs
    rw [List.length_append, List.length_cons, ih, forward_of_right hright, ihs,
      after_right hright]
    rfl

/-! ### Where they are -/

theorem path_descendants_forward :
    (∀ c : Cursor, ∀ x ∈ c.descendants, ∃ i q, x.path = c.path ++ i :: q) ∧
    ∀ c : Cursor, ∀ x ∈ c :: c.descendants ++ c.forward, ∀ parent i, c.path = parent ++ [i] →
      ∃ j q, i ≤ j ∧ x.path = parent ++ j :: q := by
  -- Siblings ahead aside, what is at and below a cursor is behind its index.
  have here {c : Cursor} (ih : ∀ x ∈ c.descendants, ∃ i q, x.path = c.path ++ i :: q) :
      ∀ x ∈ c :: c.descendants, ∀ parent i, c.path = parent ++ [i] →
        ∃ j q, i ≤ j ∧ x.path = parent ++ j :: q := by
    intro x hx parent i hpath
    rcases List.mem_cons.mp hx with rfl | hx
    · exact ⟨i, [], Nat.le_refl _, hpath⟩
    · obtain ⟨j, q, hq⟩ := ih x hx
      exact ⟨i, j :: q, Nat.le_refl i, by rw [hq, hpath, List.append_assoc]; rfl⟩
  apply document_induction
  · intro c hdown x hx
    rw [descendants_eq_nil hdown] at hx
    cases hx
  · intro c d hdown ih x hx
    rw [descendants_of_down hdown] at hx
    obtain ⟨j, q, -, hq⟩ := ih x hx c.path 0 (path_down hdown)
    exact ⟨j, q, hq⟩
  · intro c hright ih x hx
    rw [forward_eq_nil hright, List.append_nil] at hx
    exact here ih x hx
  · intro c d hright ih ihs x hx parent i hpath
    rcases List.mem_append.mp hx with hx | hx
    · exact here ih x hx parent i hpath
    · rw [forward_of_right hright] at hx
      obtain ⟨parent', i', hc, hd, -, -⟩ := path_right hright
      obtain ⟨rfl, hi⟩ := List.append_inj' (hc.symm.trans hpath) rfl
      obtain rfl := List.singleton_inj.mp hi
      obtain ⟨j, q, hj, hq⟩ := ihs x hx parent' (i' + 1) hd
      exact ⟨j, q, by omega, hq⟩

theorem path_of_mem_descendants {c x : Cursor} (h : x ∈ c.descendants) :
    ∃ i q, x.path = c.path ++ i :: q := path_descendants_forward.1 c x h

theorem path_of_mem_forward {c x : Cursor} (h : x ∈ c.forward) :
    ∃ parent i j q, c.path = parent ++ [i] ∧ i < j ∧ x.path = parent ++ j :: q := by
  cases hright : c.right with
  | none =>
      rw [forward_eq_nil hright] at h
      cases h
  | some d =>
      rw [forward_of_right hright] at h
      obtain ⟨parent, i, hc, hd, -, -⟩ := path_right hright
      obtain ⟨j, q, hj, hq⟩ := path_descendants_forward.2 d x h parent (i + 1) hd
      exact ⟨parent, i, j, q, hc, hj, hq⟩

/-- What follows a cursor is not below it. -/
theorem not_prefix_of_mem_following {n : Nat} {c x : Cursor} (h : x ∈ following n c) :
    ¬ c.path <+: x.path := by
  induction n generalizing c with
  | zero => cases h
  | succ n ih =>
      rcases List.mem_append.mp h with h | h
      · obtain ⟨parent, i, j, q, hc, hj, hx⟩ := path_of_mem_forward h
        rw [hc, hx, List.prefix_append_right_inj, List.prefix_cons_iff]
        rintro (hnil | ⟨t, ht, -⟩)
        · cases hnil
        · obtain ⟨rfl, -⟩ := List.cons.inj ht
          exact absurd hj (Nat.lt_irrefl _)
      · cases hup : c.up with
        | none =>
            rw [hup] at h
            cases h
        | some p =>
            rw [hup] at h
            obtain ⟨i, hc⟩ := path_up hup
            intro hprefix
            rw [hc] at hprefix
            exact ih h ((List.prefix_append _ _).trans hprefix)

theorem pairwise_descendants_forward :
    (∀ c : Cursor, (c :: c.descendants).Pairwise fun x y => x.path < y.path) ∧
    ∀ c : Cursor, (c :: c.descendants ++ c.forward).Pairwise fun x y => x.path < y.path := by
  have above (c : Cursor) : ∀ x ∈ c.descendants, c.path < x.path := by
    intro x hx
    obtain ⟨i, q, hq⟩ := path_of_mem_descendants hx
    exact hq ▸ lt_append_cons c.path i q
  apply document_induction
  · intro c hdown
    rw [descendants_eq_nil hdown]
    exact List.pairwise_singleton _ c
  · intro c d hdown ih
    refine List.pairwise_cons.mpr ⟨above c, ?_⟩
    rw [descendants_of_down hdown]
    exact ih
  · intro c hright ih
    rw [forward_eq_nil hright, List.append_nil]
    exact ih
  · intro c d hright ih ihs
    refine List.pairwise_append.mpr ⟨ih, ?_, ?_⟩
    · rw [forward_of_right hright]
      exact ihs
    · intro x hx y hy
      obtain ⟨parent, i, j, r, hc, hj, hy⟩ := path_of_mem_forward hy
      have hx : ∃ q, x.path = parent ++ i :: q := by
        rcases List.mem_cons.mp hx with rfl | hx
        · exact ⟨[], hc⟩
        · obtain ⟨k, q, hq⟩ := path_of_mem_descendants hx
          exact ⟨k :: q, by rw [hq, hc, List.append_assoc]; rfl⟩
      obtain ⟨q, hx⟩ := hx
      rw [hx, hy]
      exact append_cons_lt_append_cons hj parent q r

/-- Descendants are listed in document order, each of them once. -/
theorem pairwise_descendants (c : Cursor) :
    c.descendants.Pairwise fun x y => x.path < y.path :=
  (List.pairwise_cons.mp (pairwise_descendants_forward.1 c)).2

/-! ### Which they are -/

theorem mem_descendants_forward_iff :
    (∀ c x : Cursor, x ∈ c.descendants ↔ ∃ p, p ≠ [] ∧ follow? p c = some x) ∧
    ∀ c x : Cursor, x ∈ c :: c.descendants ++ c.forward ↔
      ∃ n p, (follow?.child n c).bind (follow? p) = some x := by
  have here {c x : Cursor} (ih : x ∈ c.descendants ↔ ∃ p, p ≠ [] ∧ follow? p c = some x) :
      x ∈ c :: c.descendants ↔ ∃ p, follow? p c = some x := by
    rw [List.mem_cons, ih]
    constructor
    · rintro (rfl | ⟨p, -, hp⟩)
      · exact ⟨[], rfl⟩
      · exact ⟨p, hp⟩
    · rintro ⟨p, hp⟩
      cases p with
      | nil => exact .inl (Option.some.inj hp).symm
      | cons i p => exact .inr ⟨i :: p, nofun, hp⟩
  apply document_induction
  · intro c hdown x
    rw [descendants_eq_nil hdown]
    refine iff_of_false List.not_mem_nil ?_
    rintro ⟨p, hne, hp⟩
    cases p with
    | nil => exact hne rfl
    | cons i p =>
        rw [follow?, hdown] at hp
        cases hp
  · intro c d hdown ih x
    rw [descendants_of_down hdown, ih]
    constructor
    · rintro ⟨n, p, hp⟩
      refine ⟨n :: p, nofun, ?_⟩
      rw [follow?, hdown]
      exact hp
    · rintro ⟨p, hne, hp⟩
      cases p with
      | nil => exact absurd rfl hne
      | cons n p =>
          rw [follow?, hdown] at hp
          exact ⟨n, p, hp⟩
  · intro c hright ih x
    rw [forward_eq_nil hright, List.append_nil, here (ih x)]
    constructor
    · rintro ⟨p, hp⟩
      exact ⟨0, p, hp⟩
    · rintro ⟨n, p, hp⟩
      cases n with
      | zero => exact ⟨p, hp⟩
      | succ n =>
          rw [child_succ, hright] at hp
          cases hp
  · intro c d hright ih ihs x
    rw [List.mem_append, here (ih x), forward_of_right hright, ihs]
    constructor
    · rintro (⟨p, hp⟩ | ⟨n, p, hp⟩)
      · exact ⟨0, p, hp⟩
      · refine ⟨n + 1, p, ?_⟩
        rw [child_succ, hright]
        exact hp
    · rintro ⟨n, p, hp⟩
      cases n with
      | zero => exact .inl ⟨p, hp⟩
      | succ n =>
          rw [child_succ, hright] at hp
          exact .inr ⟨n, p, hp⟩

/-- The descendants are the cursors that are reached by a path. -/
theorem mem_descendants_iff {c x : Cursor} :
    x ∈ c.descendants ↔ ∃ p, p ≠ [] ∧ follow? p c = some x := mem_descendants_forward_iff.1 c x

theorem path_follow? {p : List Nat} {c x : Cursor} (h : follow? p c = some x) :
    x.path = c.path ++ p := by
  induction p generalizing c with
  | nil =>
      cases h
      rw [List.append_nil]
  | cons i p ih =>
      obtain ⟨d, hdown, h⟩ := Option.bind_eq_some_iff.mp h
      obtain ⟨e, hchild, h⟩ := Option.bind_eq_some_iff.mp h
      have he : e.path = c.path ++ [i] := by
        cases i with
        | zero =>
            cases hchild
            exact path_down hdown
        | succ i =>
            obtain ⟨parent, j, hd, he, -, -⟩ := path_child hchild
            obtain ⟨rfl, hj⟩ := List.append_inj' (hd.symm.trans (path_down hdown)) rfl
            rw [he, List.singleton_inj.mp hj, Nat.zero_add]
      rw [ih h, he, List.append_assoc]
      rfl

end Cursor

end Nesting
