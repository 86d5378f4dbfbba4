import Nesting.Tree.Basic

/-! # Layout

Whitespace, newlines and comments are the layout of a tree.  `Node.Spaced` relates a node to any
other one that has more layout between the markers of its trees, and whose tokens may have moved.
Strings are the exception: what stands in a string, other than in a template, is its text.

A node without its layout and without the places of its tokens is its skeleton.  More layout does
not change the skeleton (`Node.Spaced.skeleton_eq`), so two nodes that differ in layout are
compared through the one skeleton that they share. -/

namespace Nesting

/-! ### More layout -/

/-- The second token has the kind and the text of the first one. -/
structure Token.SameText (t u : Token) : Prop where
  kind : u.kind = t.kind
  value : u.value = t.value

mutual

/-- The second node is the first one with more layout. -/
inductive Node.Spaced : Node → Node → Prop
  | token {t u} : t.SameText u → Node.Spaced (.token t) (.token u)
  | tree {kind opening closing opening' closing' first first' ns ns'} :
      Option.Rel Token.SameText opening opening' → Option.Rel Token.SameText closing closing' →
      first.SameText first' → Node.Spread kind ns ns' →
      Node.Spaced (.tree kind opening closing (.token first :: ns))
        (.tree kind opening' closing' (.token first' :: ns'))

/-- The same for the children of a tree of a kind, without the first one.  Nothing is inserted
behind the last one, nor into a string. -/
inductive Node.Spread : TreeKind → List Node → List Node → Prop
  | last {kind t u} : t.SameText u → Node.Spread kind [.token t] [.token u]
  | keep {kind n n' ns ns'} : Node.Spaced n n' → Node.Spread kind ns ns' →
      Node.Spread kind (n :: ns) (n' :: ns')
  | insert {kind t ns ns'} : kind ≠ .string → t.kind.isTrivia → Node.Spread kind ns ns' →
      Node.Spread kind ns (.token t :: ns')

end

/-! ### Markers -/

mutual

/-- Every tree starts with the start marker, ends with the end marker and has no other one. -/
inductive Node.Framed : Node → Prop
  | token (t) : Node.Framed (.token t)
  | tree {kind opening closing first ns} : first.kind = .levelStart → Node.Closes ns →
      Node.Framed (.tree kind opening closing (.token first :: ns))

/-- Children up to the end of their level: the last one is the end marker, and the only one. -/
inductive Node.Closes : List Node → Prop
  | last {t} : t.kind = .levelEnd → Node.Closes [.token t]
  | cons {n ns} : n.isMarker = false → Node.Framed n → Node.Closes ns → Node.Closes (n :: ns)

end

namespace Node

theorem Closes.ne_nil {ns : List Node} (h : Closes ns) : ns ≠ [] := by
  cases h <;> simp

theorem Closes.cases_right {n : Node} {ns : List Node} (h : Closes (n :: ns)) :
    (ns = [] ∧ n.tokenKind? = some .levelEnd) ∨ (n.isMarker = false ∧ n.Framed ∧ Closes ns) := by
  cases h with
  | last ht => exact .inl ⟨rfl, congrArg some ht⟩
  | cons hn hframed hns => exact .inr ⟨hn, hframed, hns⟩

theorem Closes.ne_levelStart {ns : List Node} (h : Closes ns) :
    ∀ n ∈ ns, n.tokenKind? ≠ some .levelStart := by
  induction ns with
  | nil => nofun
  | cons n ns ih =>
      refine List.forall_mem_cons.mpr ?_
      rcases h.cases_right with ⟨rfl, hlast⟩ | ⟨hn, -, hns⟩
      · rw [hlast]
        exact ⟨nofun, nofun⟩
      · refine ⟨fun hstart => ?_, ih hns⟩
        rw [isMarker, hstart] at hn
        cases hn

theorem Spread.ne_nil {kind : TreeKind} {ns ns' : List Node} (h : Spread kind ns ns') :
    ns ≠ [] := by
  induction ns' generalizing ns with
  | nil => cases h
  | cons n' ns' ih =>
      cases h with
      | last => simp
      | keep => simp
      | insert _ _ h => exact ih h

theorem isMarker_of_isTrivia {t : Token} (h : t.kind.isTrivia) :
    (Node.token t).isMarker = false := by
  show t.kind.isMarker = false
  revert h
  cases t.kind <;> simp [TokenKind.isTrivia, TokenKind.isMarker]

theorem Spaced.tokenKind?_eq {n n' : Node} (h : n.Spaced n') : n'.tokenKind? = n.tokenKind? := by
  cases h with
  | token h => exact congrArg some h.kind
  | tree => rfl

theorem Spaced.isMarker_eq {n n' : Node} (h : n.Spaced n') : n'.isMarker = n.isMarker := by
  rw [isMarker, h.tokenKind?_eq, isMarker]

mutual

theorem Spaced.framed : ∀ {n n' : Node}, n.Spaced n' → n.Framed → n'.Framed
  | _, _, .token _, _ => .token _
  | _, _, .tree _ _ hfirst hspread, hframed => by
    cases hframed with
    | tree hstart hcloses => exact .tree (hfirst.kind.trans hstart) (hspread.closes hcloses)

theorem Spread.closes : ∀ {kind : TreeKind} {ns ns' : List Node}, Spread kind ns ns' →
    Closes ns → Closes ns'
  | _, _, _, .last hlast, hcloses => by
    cases hcloses with
    | last ht => exact .last (hlast.kind.trans ht)
    | cons _ _ hnil => exact absurd rfl hnil.ne_nil
  | _, _, _, .keep hn hspread, hcloses => by
    cases hcloses with
    | last => exact absurd rfl hspread.ne_nil
    | cons hmarker hframed hcloses =>
      exact .cons (hn.isMarker_eq.trans hmarker) (hn.framed hframed) (hspread.closes hcloses)
  | _, _, _, .insert _ htrivia hspread, hcloses =>
    .cons (isMarker_of_isTrivia htrivia) (.token _) (hspread.closes hcloses)

end

end Node

/-! ### Skeletons -/

/-- A token without its place. -/
def Token.unplaced (t : Token) : Token := { t with pos := {}, lineBreaks := 0 }

theorem Token.SameText.unplaced_eq {t u : Token} (h : t.SameText u) : u.unplaced = t.unplaced := by
  rw [unplaced, unplaced, h.kind, h.value]

namespace Node

/-- A child of a tree of a kind that is layout. -/
def isLayoutIn (kind : TreeKind) (n : Node) : Bool :=
  kind != .string && n.tokenKind?.any (·.isTrivia)

mutual

/-- A node without its layout, and without the places of its tokens. -/
def skeleton : Node → Node
  | .token t => .token t.unplaced
  | .tree kind opening closing children =>
    .tree kind (opening.map Token.unplaced) (closing.map Token.unplaced) (skeletons kind children)

/-- The same for children of a tree of a kind. -/
def skeletons (kind : TreeKind) : List Node → List Node
  | [] => []
  | n :: ns => if n.isLayoutIn kind then skeletons kind ns else skeleton n :: skeletons kind ns

end

end Node

/-- A tree without its layout, and without the places of its tokens. -/
def Tree.skeleton (t : Tree) : Tree :=
  { kind := t.kind
    opening := t.opening.map Token.unplaced
    closing := t.closing.map Token.unplaced
    children := Node.skeletons t.kind t.children }

namespace Node

theorem skeletons_of_layout {kind : TreeKind} {n : Node} (h : n.isLayoutIn kind) (ns : List Node) :
    skeletons kind (n :: ns) = skeletons kind ns := by
  rw [skeletons, if_pos h]

theorem skeletons_of_not_layout {kind : TreeKind} {n : Node} (h : n.isLayoutIn kind = false)
    (ns : List Node) : skeletons kind (n :: ns) = n.skeleton :: skeletons kind ns := by
  rw [skeletons, if_neg (Bool.not_eq_true _ ▸ h)]

theorem skeletons_string (ns : List Node) : skeletons .string ns = ns.map skeleton := by
  induction ns with
  | nil => rfl
  | cons n ns ih => rw [skeletons_of_not_layout rfl, ih, List.map_cons]

theorem mem_skeletons {kind : TreeKind} {ns : List Node} {x : Node} (h : x ∈ skeletons kind ns) :
    ∃ n ∈ ns, x = n.skeleton := by
  induction ns with
  | nil => cases h
  | cons n ns ih =>
      cases hlayout : n.isLayoutIn kind with
      | true =>
          rw [skeletons_of_layout hlayout] at h
          obtain ⟨n', hn', hx⟩ := ih h
          exact ⟨n', List.mem_cons_of_mem _ hn', hx⟩
      | false =>
          rw [skeletons_of_not_layout hlayout] at h
          rcases List.mem_cons.mp h with rfl | h
          · exact ⟨n, List.mem_cons_self, rfl⟩
          · obtain ⟨n', hn', hx⟩ := ih h
            exact ⟨n', List.mem_cons_of_mem _ hn', hx⟩

@[simp] theorem tokenKind?_skeleton (n : Node) : n.skeleton.tokenKind? = n.tokenKind? := by
  cases n <;> rfl

@[simp] theorem isMinor_skeleton (n : Node) : n.skeleton.isMinor = n.isMinor := by
  rw [isMinor, tokenKind?_skeleton, isMinor]

@[simp] theorem isMarker_skeleton (n : Node) : n.skeleton.isMarker = n.isMarker := by
  rw [isMarker, tokenKind?_skeleton, isMarker]

@[simp] theorem token?_skeleton (n : Node) :
    n.skeleton.token? = n.token?.map Token.unplaced := by
  cases n <;> rfl

@[simp] theorem tree?_skeleton (n : Node) : n.skeleton.tree? = n.tree?.map Tree.skeleton := by
  cases n <;> rfl

theorem tokenKind?_of_tree? {n : Node} {t : Tree} (h : n.tree? = some t) :
    n.tokenKind? = none := by
  cases n with
  | token => cases h
  | tree => rfl

theorem isMinor_of_isLayoutIn {kind : TreeKind} {n : Node} (h : n.isLayoutIn kind) :
    n.isMinor := by
  obtain ⟨-, h⟩ := Bool.and_eq_true_iff.mp h
  rw [isMinor]
  cases hkind : n.tokenKind? with
  | none => rw [hkind] at h; cases h
  | some k =>
      rw [hkind] at h
      exact Bool.or_eq_true_iff.mpr (.inl h)

theorem map_unplaced_eq {t u : Option Token} (h : Option.Rel Token.SameText t u) :
    u.map Token.unplaced = t.map Token.unplaced := by
  cases h with
  | none => rfl
  | some h => exact congrArg some h.unplaced_eq

theorem skeletons_cons_eq {kind : TreeKind} {n n' : Node} {ns ns' : List Node}
    (hkind : n'.tokenKind? = n.tokenKind?) (hn : n'.skeleton = n.skeleton)
    (hns : skeletons kind ns' = skeletons kind ns) :
    skeletons kind (n' :: ns') = skeletons kind (n :: ns) := by
  have hlayout : n'.isLayoutIn kind = n.isLayoutIn kind := by rw [isLayoutIn, hkind, isLayoutIn]
  rw [skeletons, skeletons, hlayout, hn, hns]

theorem skeletons_token_eq {kind : TreeKind} {t u : Token} (h : t.SameText u) {ns ns' : List Node}
    (hns : skeletons kind ns' = skeletons kind ns) :
    skeletons kind (.token u :: ns') = skeletons kind (.token t :: ns) :=
  skeletons_cons_eq (congrArg some h.kind) (congrArg Node.token h.unplaced_eq) hns

mutual

theorem Spaced.skeleton_eq : ∀ {n n' : Node}, n.Spaced n' → n'.skeleton = n.skeleton
  | _, _, .token h => congrArg Node.token h.unplaced_eq
  | _, _, .tree hopening hclosing hfirst hspread => by
    rw [skeleton, skeleton, map_unplaced_eq hopening, map_unplaced_eq hclosing,
      skeletons_token_eq hfirst hspread.skeletons_eq]

theorem Spread.skeletons_eq : ∀ {kind : TreeKind} {ns ns' : List Node}, Spread kind ns ns' →
    skeletons kind ns' = skeletons kind ns
  | _, _, _, .last hlast => skeletons_token_eq hlast rfl
  | _, _, _, .keep hn hspread =>
    skeletons_cons_eq hn.tokenKind?_eq hn.skeleton_eq hspread.skeletons_eq
  | kind, _, _, .insert hkind htrivia hspread => by
    rw [skeletons_of_layout, hspread.skeletons_eq]
    exact Bool.and_eq_true_iff.mpr ⟨bne_iff_ne.mpr hkind, htrivia⟩

end

end Node

end Nesting
