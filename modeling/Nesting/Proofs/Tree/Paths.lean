import Mathlib.Data.List.Basic
import Nesting.Tree.Basic

/-! # Paths in a tree

A path of child indices leads from a node to a node inside it (`Node.at?`), and a node can be put
in the place that a path leads to (`Node.replaceAt`).  A path in two pieces leads where the second
piece leads from the end of the first (`at?_append`), and a node is replaced there by replacing it
inside the node in between (`replaceAt_append`).  A replacement leaves all nodes alone but those at
its place, below it and around it (`at?_replaceAt_of_apart`). -/

namespace Nesting.Node

/-! ### Reading -/

/-- The node that a path leads to. -/
def at? (n : Node) : List Nat → Option Node
  | [] => some n
  | i :: path => n.children[i]?.bind (·.at? path)

@[simp] theorem at?_nil (n : Node) : n.at? [] = some n := rfl

theorem at?_cons (n : Node) (i : Nat) (path : List Nat) :
    n.at? (i :: path) = n.children[i]?.bind (·.at? path) := rfl

theorem at?_append (n : Node) (p q : List Nat) : n.at? (p ++ q) = (n.at? p).bind (·.at? q) := by
  induction p generalizing n with
  | nil => rfl
  | cons i p ih =>
      rw [List.cons_append, at?_cons, at?_cons, Option.bind_assoc]
      congr 1
      funext child
      exact ih child

theorem at?_concat (n : Node) (p : List Nat) (i : Nat) :
    n.at? (p ++ [i]) = (n.at? p).bind (·.children[i]?) := by
  have hsingle (child : Node) : child.at? [i] = child.children[i]? := by
    cases h : child.children[i]? <;> simp [at?_cons, h]
  simp only [at?_append, hsingle]

theorem lt_of_at?_eq_some {n m : Node} {above below : List Nat} {i : Nat}
    (h : n.at? (above ++ i :: below) = some m) :
    ∃ parent, n.at? above = some parent ∧ i < parent.children.length := by
  rw [at?_append] at h
  obtain ⟨parent, hparent, h⟩ := Option.bind_eq_some_iff.mp h
  obtain ⟨child, hchild, -⟩ := Option.bind_eq_some_iff.mp h
  obtain ⟨hi, -⟩ := List.getElem?_eq_some_iff.mp hchild
  exact ⟨parent, hparent, hi⟩

/-! ### Replacing -/

/-- The node with another one in the place that a path leads to.  A path that leads nowhere
changes nothing. -/
def replaceAt : Node → List Nat → Node → Node
  | _, [], new => new
  | .token t, _ :: _, _ => .token t
  | .tree kind opening closing children, i :: path, new =>
    .tree kind opening closing (children.modify i (·.replaceAt path new))

@[simp] theorem replaceAt_nil (n new : Node) : n.replaceAt [] new = new := by
  cases n <;> rfl

/-- Replacing inside a node that a path leads to is replacing at the longer path. -/
theorem replaceAt_append {n m : Node} {p : List Nat} (h : n.at? p = some m) (q : List Nat)
    (new : Node) : n.replaceAt (p ++ q) new = n.replaceAt p (m.replaceAt q new) := by
  induction p generalizing n with
  | nil =>
      cases h
      rw [List.nil_append, replaceAt_nil]
  | cons i p ih =>
      obtain ⟨child, hchild, hm⟩ := Option.bind_eq_some_iff.mp h
      cases n with
      | token t => simp [children] at hchild
      | tree kind opening closing cs =>
          have hchild : cs[i]? = some child := hchild
          have hmodify : cs.modify i (·.replaceAt (p ++ q) new) =
              cs.modify i (·.replaceAt p (m.replaceAt q new)) := by
            apply List.ext_getElem?
            intro j
            rw [List.getElem?_modify, List.getElem?_modify]
            by_cases hij : i = j
            · rw [← hij, hchild]
              simp [ih hm]
            · simp [hij]
          rw [List.cons_append, replaceAt, replaceAt, hmodify]

/-- A replacement is seen at its place, below it and in the nodes around it, and nowhere else. -/
theorem at?_replaceAt_of_apart {n : Node} {r p : List Nat} (hr : ¬ r <+: p) (hp : ¬ p <+: r)
    (new : Node) : (n.replaceAt r new).at? p = n.at? p := by
  induction r generalizing n p with
  | nil => exact absurd List.nil_prefix hr
  | cons i r ih =>
      cases p with
      | nil => exact absurd List.nil_prefix hp
      | cons j p =>
          cases n with
          | token t => rfl
          | tree kind opening closing cs =>
              show (cs.modify i (·.replaceAt r new))[j]?.bind (·.at? p) = cs[j]?.bind (·.at? p)
              rw [List.getElem?_modify]
              by_cases hij : i = j
              · subst hij
                rw [List.cons_prefix_cons, and_iff_right rfl] at hr hp
                cases cs[i]? with
                | none => rfl
                | some child => simpa using ih hr hp
              · simp [hij]

end Nesting.Node
