import Nesting.Proofs.Tree.Paths
import Nesting.Proofs.Tree.WellFormed

/-! # What the end of the tokens closes

Every tree inside a tree that was built is well-formed, and one that was force-closed stands at
the very end (`Tree.wellFormed_ofTokens`): nothing but end markers follows it on the way up to the
root.

No token force-closes a tree (`Builder.Step.unforced`).  The end of the tokens closes the levels
one inside another, so the trees that it closes are the last children of one another.  A node all
of whose force-closed trees lie on that line is `Node.ForcedAtEnd`, and closing a level keeps its
trees so (`OpenTree.ForcedAtEnd.close`). -/

namespace Nesting

/-! ### The end of a tree -/

namespace Node

/-- Nothing but end markers follows the node that a path leads to, on the way up from it: the
trees on the way have no closing token, and the children behind the one on the way are end
markers. -/
def EndsAt (n : Node) (path : List Nat) : Prop :=
  ∀ above i below, path = above ++ i :: below → ∀ parent : Tree, n.at? above = some parent.toNode →
    parent.closing = none ∧
      ∀ later ∈ parent.children.drop (i + 1), later.tokenKind? = some .levelEnd

theorem endsAt_nil (n : Node) : n.EndsAt [] := by
  intro above i below h
  simp at h

theorem endsAt_cons {t : Tree} {i : Nat} {child : Node} {path : List Nat}
    (hclosing : t.closing = none)
    (hlater : ∀ later ∈ t.children.drop (i + 1), later.tokenKind? = some .levelEnd)
    (hchild : t.children[i]? = some child) (h : child.EndsAt path) :
    t.toNode.EndsAt (i :: path) := by
  intro above j below hpath parent hparent
  cases above with
  | nil =>
      obtain ⟨rfl, rfl⟩ := List.cons.inj hpath
      have hsame : t.toNode.tree? = parent.toNode.tree? := congrArg tree? (Option.some.inj hparent)
      rw [tree?_toNode, tree?_toNode] at hsame
      obtain rfl := Option.some.inj hsame
      exact ⟨hclosing, hlater⟩
  | cons k above =>
      obtain ⟨rfl, rfl⟩ := List.cons.inj hpath
      have hstep : t.toNode.at? (i :: above) = child.at? above := by
        rw [at?_cons, show t.toNode.children = t.children from rfl, hchild]
        rfl
      exact h above j below rfl parent (hstep ▸ hparent)

theorem trees_subset_treesAll {n : Node} {ns : List Node} (h : n ∈ ns) :
    n.trees ⊆ treesAll ns := by
  obtain ⟨before, after, rfl⟩ := List.append_of_mem h
  intro x hx
  simp [treesAll, hx]

/-- A tree that a path leads to is one of the trees. -/
theorem mem_trees_of_at? {n : Node} {path : List Nat} {x : Tree}
    (h : n.at? path = some x.toNode) : x ∈ n.trees := by
  induction path generalizing n with
  | nil =>
      obtain rfl := Option.some.inj h
      rw [Tree.trees_toNode]
      exact List.mem_cons_self
  | cons i path ih =>
      obtain ⟨child, hchild, hx⟩ := Option.bind_eq_some_iff.mp h
      cases n with
      | token t => simp [children] at hchild
      | tree kind opening closing cs =>
          have hmem : child ∈ cs := List.mem_of_getElem? hchild
          exact List.mem_cons_of_mem _ (trees_subset_treesAll hmem (ih hx))

/-- A tree whose force-closed trees stand at its end, one in another. -/
inductive ForcedAtEnd : Node → Prop
  /-- No tree in it is force-closed. -/
  | inside {kind opening closing children} :
      (∀ x ∈ treesAll children, x.isForceClosed = false) →
      ForcedAtEnd (.tree kind opening closing children)
  /-- The force-closed trees in it are in the last child before its end marker. -/
  | last {kind opening earlier} {child : Node} {marker : Token} :
      (∀ x ∈ treesAll earlier, x.isForceClosed = false) → ForcedAtEnd child →
      marker.kind = .levelEnd →
      ForcedAtEnd (.tree kind opening none (earlier ++ [child] ++ [.token marker]))

/-- There, the way up from a force-closed tree passes nothing but end markers. -/
theorem ForcedAtEnd.endsAt {n : Node} (h : n.ForcedAtEnd) {path : List Nat} {x : Tree}
    (hpath : n.at? path = some x.toNode) (hx : x.isForceClosed) : n.EndsAt path := by
  induction h generalizing path with
  | @inside kind opening closing children hnone =>
      cases path with
      | nil => exact endsAt_nil _
      | cons i path =>
          obtain ⟨child, hchild, hat⟩ := Option.bind_eq_some_iff.mp hpath
          have hmem : child ∈ children := List.mem_of_getElem? hchild
          have hnot := hnone x (trees_subset_treesAll hmem (mem_trees_of_at? hat))
          rw [hnot] at hx
          cases hx
  | @last kind opening earlier child marker hnone _ hmarker ih =>
      cases path with
      | nil => exact endsAt_nil _
      | cons i path =>
          obtain ⟨m, hm, hat⟩ := Option.bind_eq_some_iff.mp hpath
          have hm : (earlier ++ [child] ++ [.token marker])[i]? = some m := hm
          have hi : i < earlier.length + 1 + 1 := by
            have hlt := (List.getElem?_eq_some_iff.mp hm).1
            rwa [List.length_append, List.length_append] at hlt
          -- The child on the way is an earlier one, the last one, or the end marker.
          rcases Nat.lt_trichotomy i earlier.length with hlt | rfl | hgt
          · rw [List.append_assoc, List.getElem?_append_left hlt] at hm
            have hmem : m ∈ earlier := List.mem_of_getElem? hm
            have hnot := hnone x (trees_subset_treesAll hmem (mem_trees_of_at? hat))
            rw [hnot] at hx
            cases hx
          · have hchild : child = m := by simpa using hm
            subst hchild
            have hdrop : (earlier ++ [child] ++ [Node.token marker]).drop (earlier.length + 1) =
                [.token marker] := by
              rw [List.drop_left' (by simp)]
            refine endsAt_cons (t := ⟨kind, opening, none, _⟩) rfl ?_ hm (ih hat)
            rw [hdrop]
            intro later hlater
            obtain rfl := List.mem_singleton.mp hlater
            exact congrArg some hmarker
          · have hlast : i = earlier.length + 1 := by omega
            subst hlast
            have hend : Node.token marker = m := by simpa using hm
            subst hend
            have hnone := mem_trees_of_at? hat
            cases hnone

end Node

namespace OpenTree

/-- An open level whose force-closed trees stand at the end of its last child. -/
def ForcedAtEnd (t : OpenTree) : Prop :=
  (∀ x ∈ t.trees, x.isForceClosed = false) ∨
    ∃ earlier child, t = OpenTree.push earlier child ∧
      (∀ x ∈ earlier.trees, x.isForceClosed = false) ∧ child.ForcedAtEnd

theorem ForcedAtEnd.close {t : OpenTree} (h : t.ForcedAtEnd) {marker : Token}
    (hmarker : marker.kind = .levelEnd) :
    ((t.push (.token marker)).close none).ForcedAtEnd := by
  rcases h with hnone | ⟨earlier, child, rfl, hnone, hchild⟩
  · refine .inside ?_
    have htrees : (t.push (.token marker)).trees = t.trees := by simp [Node.trees]
    rw [← htrees] at hnone
    exact hnone
  · have hlist : ((earlier.push child).push (.token marker)).children.toList =
        earlier.children.toList ++ [child] ++ [.token marker] := by simp [push]
    rw [OpenTree.close, hlist]
    exact .last hnone hchild hmarker

end OpenTree

namespace Builder

/-! ### Tokens -/

/-- No tree that is closed was force-closed. -/
def Unforced (b : Builder) : Prop := ∀ x ∈ b.trees, x.isForceClosed = false

theorem Unforced.closed {b : Builder} (h : b.Unforced) {parent : OpenTree}
    {rest : List OpenTree} (houter : b.outer = parent :: rest) {closing : Option Token}
    (hclosing : b.current.kind.isDelimited → closing.isSome) (marker : Token) :
    (b.closed closing marker parent rest).Unforced := by
  intro x hx
  rcases (mem_trees_closed houter closing marker).mp hx with rfl | hx
  · rw [Tree.isForceClosed]
    cases hk : b.current.kind.isDelimited with
    | false => rfl
    | true => simp [hclosing hk]
  · exact h x hx

theorem Placed.unforced {b b' : Builder} {t : Token} (h : Placed t b b') (hb : b.Unforced) :
    b'.Unforced := by
  induction h with
  | @opens b k _ _ => exact fun x hx => hb x (trees_openDelimited b k t ▸ hx)
  | closes _ houter => exact hb.closed houter (fun _ => rfl) _
  | @child b _ _ _ => exact fun x hx => hb x (trees_pushToken b t ▸ hx)
  | @escapes b _ parent rest _ _ houter _ ih =>
      have hclosed : (b.closed (some (t.markerBefore .templateEnd)) (t.markerBefore .levelEnd)
          parent rest).Unforced := hb.closed houter (fun _ => rfl) _
      exact ih hclosed

theorem Unblocked.unforced {b b' : Builder} {t : Token} (h : Unblocked t b b')
    (hb : b.Unforced) : b'.Unforced := by
  induction h with
  | done => exact hb
  | close hk houter _ ih =>
      refine ih (hb.closed houter (fun hdelimited => ?_) _)
      rw [hk] at hdelimited
      cases hdelimited

theorem Laid.unforced {b b' : Builder} {t : Token} (h : Laid t b b') (hb : b.Unforced) :
    b'.Unforced := by
  cases h with
  | inside _ => exact hb
  | newline _ _ _ => exact fun x hx => hb x (trees_flush b ▸ hx)
  | comment _ _ _ _ => exact fun x hx => hb x (trees_flush b ▸ hx)
  | @stays b₁ _ _ _ _ hun _ => exact fun x hx => hun.unforced hb x (trees_flush b₁ ▸ hx)
  | @opens b₁ _ _ _ _ hun _ _ _ =>
      exact fun x hx => hun.unforced hb x (trees_openBlock b₁ t b.indent ▸ hx)

/-- No token force-closes a tree. -/
theorem Step.unforced {b b' : Builder} {t : Token} (h : Step t b b') (hb : b.Unforced) :
    b'.Unforced := by
  have hb₀ : (b.begin t).Unforced := fun x hx => hb x (trees_begin b t ▸ hx)
  cases h with
  | waits h₀ _ _ _ _ =>
      rw [← h₀] at hb₀
      exact hb₀
  | @merges b₁ hlaid _ _ _ => exact fun x hx => hlaid.unforced hb₀ x (trees_coalesce b₁ t ▸ hx)
  | places hlaid _ _ hplaced => exact hplaced.unforced (hlaid.unforced hb₀)

theorem unforced_of_foldlM {layout : Layout} {tokens : List Token} {b : Builder}
    (h : tokens.foldlM push (start layout) = .ok b) : b.Unforced := by
  have hrun : b.Shaped ∧ b.Unforced := by
    refine foldlM_induction (P := fun _ b => b.Shaped ∧ b.Unforced)
      ⟨shaped_start layout, fun x hx => absurd (show x ∈ [] from hx) List.not_mem_nil⟩ ?_ h
    rintro _ t _ b b' ⟨hshaped, hb⟩ hpush
    have hstep := step_of_push hshaped hpush
    exact ⟨hstep.shaped hshaped, hstep.unforced hb⟩
  exact hrun.2

/-! ### The end -/

theorem Shape.getLast?_eq {n : Nat} {indents : List String} {ks : List TreeKind}
    (h : Shape n indents ks) : ks.getLast? = some .root := by
  induction h with
  | root => rfl
  | block _ _ _ ih => simp [List.getLast?_cons, ih]
  | wrapped _ ih => simp [List.getLast?_cons, ih]
  | string _ ih => simp [List.getLast?_cons, ih]
  | template _ ih => simp [List.getLast?_cons] at ih ⊢; exact ih

/-- What every level that is closed at the end keeps, the end keeps. -/
theorem closeAll_induction {P : Builder → Prop} {outer : List OpenTree} {b b' : Builder}
    (step : ∀ b parent rest, P b → b.outer = parent :: rest → ∀ b₀ : Builder,
      (if b.current.children.isEmpty then b.pushToken (b.previous.markerAfter .levelStart)
        else b) = b₀ →
      P (b₀.closed none (b₀.previous.markerAfter .levelEnd) parent rest))
    (hb : P b) (houter : b.outer = outer) (h : closeAll outer b = .ok b') :
    P b' ∧ b'.outer = [] := by
  induction outer generalizing b with
  | nil =>
      cases h
      exact ⟨hb, houter⟩
  | cons parent rest ih =>
      rw [closeAll] at h
      generalize hb₀ : (if b.current.children.isEmpty then
        b.pushToken (b.previous.markerAfter .levelStart) else b) = b₀ at h
      have houter₀ : b₀.outer = parent :: rest := by
        rw [← hb₀, ← houter]
        split <;> rfl
      obtain ⟨b₁, hclose, hrest⟩ := bind_eq_ok_iff.mp h
      obtain ⟨parent', rest', houter', rfl⟩ := closeLevel_eq_ok_iff.mp hclose
      obtain ⟨rfl, rfl⟩ := List.cons.inj (houter'.symm.trans houter₀)
      exact ih (step b parent' rest' hb houter b₀ hb₀) rfl hrest

/-- What holds while the levels are closed at the end. -/
structure Ending (b : Builder) : Prop where
  sound : b.Sound
  marked : b.Marked
  root : b.kinds.getLast? = some .root
  /-- Of the open levels, only the innermost one has force-closed trees. -/
  current : b.current.ForcedAtEnd
  outer : ∀ t ∈ b.outer, ∀ x ∈ t.trees, x.isForceClosed = false

theorem Ending.closed {b : Builder} (h : b.Ending) {parent : OpenTree} {rest : List OpenTree}
    (houter : b.outer = parent :: rest) {b₀ : Builder}
    (hb₀ : (if b.current.children.isEmpty then b.pushToken (b.previous.markerAfter .levelStart)
      else b) = b₀) : (b₀.closed none (b₀.previous.markerAfter .levelEnd) parent rest).Ending := by
  have hmark : ∀ t : Token, (t.markerAfter .levelStart).kind = .levelStart := fun _ => rfl
  have hsound := h.sound.marks (hmark b.previous)
  have hbegun := h.marked.marks _ (hmark b.previous)
  have hkeeps : b₀.outer = b.outer ∧ b₀.kinds = b.kinds ∧ b₀.current.ForcedAtEnd := by
    rw [← hb₀]
    split
    · next hempty =>
      refine ⟨rfl, rfl, .inl ?_⟩
      have hnone : (b.pushToken (b.previous.markerAfter .levelStart)).current.trees = [] := by
        simp [pushToken, pushNode, OpenTree.trees, OpenTree.push, Array.isEmpty_iff.mp hempty,
          Node.treesAll, Node.trees]
      simp [hnone]
    · exact ⟨rfl, rfl, h.current⟩
  obtain ⟨houter₀, hkinds₀, hcurrent₀⟩ := hkeeps
  rw [hb₀] at hsound hbegun
  rw [houter] at houter₀
  have hnone := h.outer
  rw [houter, List.forall_mem_cons] at hnone
  refine ⟨hsound.closed hbegun.current houter₀ (by simp) rfl, (hbegun.closed houter₀ _ _).marked,
    ?_, .inr ⟨parent, _, rfl, hnone.1, hcurrent₀.close rfl⟩, hnone.2⟩
  have hroot := h.root
  rw [← hkinds₀, kinds_closed houter₀ none (b₀.previous.markerAfter .levelEnd)] at hroot
  simpa [kinds, List.getLast?_cons] using hroot

theorem ending_of_foldlM {layout : Layout} {tokens : List Token} {b : Builder}
    (hmarkers : ∀ t ∈ tokens, t.kind.isMarker = false)
    (h : tokens.foldlM push (start layout) = .ok b) : b.flush.Ending := by
  have hshaped := shaped_of_foldlM h
  have hsound := sound_of_foldlM hmarkers h
  have hunforced : b.flush.Unforced := fun x hx => unforced_of_foldlM h x (trees_flush b ▸ hx)
  have hlevels : ∀ t ∈ b.flush.current :: b.flush.outer, ∀ x ∈ t.trees,
      x.isForceClosed = false :=
    fun t ht x hx => hunforced x (List.mem_flatMap.mpr ⟨t, ht, hx⟩)
  obtain ⟨hcurrent, houter⟩ := List.forall_mem_cons.mp hlevels
  have haccount := accounted_of_foldlM h
  have hmarked : b.flush.Marked := by
    refine ⟨?_, (foldlM_dissolve h).1.outer⟩
    rw [current_flush]
    rcases (foldlM_dissolve h).1.current with hstart | ⟨hdelimited, hempty⟩
    · exact .inl (hstart.extend _)
    · rw [haccount.waiting_eq_nil hdelimited, List.map_nil, OpenTree.extend_nil]
      exact .inr ⟨hdelimited, hempty⟩
  exact ⟨hsound.flush, hmarked, Shape.getLast?_eq hshaped, .inl hcurrent, houter⟩

/-- A tree is what the root becomes once all other levels are closed. -/
theorem exists_rooted_of_ofTokens {layout : Layout} {tokens : List Token} {tree : Tree}
    (hmarkers : ∀ t ∈ tokens, t.kind.isMarker = false)
    (h : Tree.ofTokens layout tokens = .ok tree) :
    ∃ b : Builder, b.Ending ∧ b.outer = [] ∧ tree = b.rooted := by
  obtain ⟨b, hrun, hfinish⟩ := bind_eq_ok_iff.mp h
  obtain ⟨b', hclose, hroot⟩ := bind_eq_ok_iff.mp hfinish
  cases hroot
  obtain ⟨hending, houter⟩ := closeAll_induction (P := Ending)
    (fun _ _ _ hb houter _ hb₀ => hb.closed houter hb₀) (ending_of_foldlM hmarkers hrun) rfl hclose
  exact ⟨b', hending, houter, rfl⟩

theorem Ending.kind_eq {b : Builder} (h : b.Ending) (houter : b.outer = []) :
    b.current.kind = .root := by
  have hroot := h.root
  rw [kinds, houter] at hroot
  exact Option.some.inj hroot

theorem Ending.wellFormed {b : Builder} (h : b.Ending) (houter : b.outer = []) :
    ∀ x ∈ b.rooted.toNode.trees, x.WellFormed := by
  have hmark : (b.previous.markerAfter .levelEnd).kind = .levelEnd := rfl
  have hstart : b.current.HasStart := by
    rcases h.marked.current with hstart | ⟨hdelimited, -⟩
    · exact hstart
    · rw [h.kind_eq houter] at hdelimited
      cases hdelimited
  intro x hx
  rcases (mem_trees_rooted houter).mp hx with rfl | hx
  · exact h.sound.current.wellFormed hstart (by simp) hmark
  · exact h.sound.trees x hx

end Builder

theorem Tree.wellFormed_of_mem_trees {layout : Layout} {tokens : List Token} {tree : Tree}
    (hmarkers : ∀ t ∈ tokens, t.kind.isMarker = false)
    (h : Tree.ofTokens layout tokens = .ok tree) : ∀ x ∈ tree.toNode.trees, x.WellFormed := by
  obtain ⟨b, hending, houter, rfl⟩ := Builder.exists_rooted_of_ofTokens hmarkers h
  exact hending.wellFormed houter

/-- **The form of a tree.**  Whatever the tokens are, if they are no markers and have a tree, then
it is a root, all trees in it are well-formed, and nothing but end markers follows a tree in it that
was force-closed. -/
theorem Tree.wellFormed_ofTokens {layout : Layout} {tokens : List Token} {tree : Tree}
    (hmarkers : ∀ t ∈ tokens, t.kind.isMarker = false)
    (h : Tree.ofTokens layout tokens = .ok tree) :
    tree.kind = .root ∧ (∀ x ∈ tree.toNode.trees, x.WellFormed) ∧
      ∀ path (x : Tree), tree.toNode.at? path = some x.toNode → x.isForceClosed →
        tree.toNode.EndsAt path := by
  refine ⟨?_, wellFormed_of_mem_trees hmarkers h, ?_⟩
  all_goals obtain ⟨b, hending, houter, rfl⟩ := Builder.exists_rooted_of_ofTokens hmarkers h
  · exact hending.kind_eq houter
  · intro path x hpath hx
    have hmark : (b.previous.markerAfter .levelEnd).kind = .levelEnd := rfl
    exact (hending.current.close hmark).endsAt hpath hx

/-- A bracket on an indented line, with a string in it whose template has just begun. -/
def unfinishedString : List Token :=
  [.make .symbol "a" ⟨0, 1, 1⟩, .make .newline "\n" ⟨1, 1, 2⟩, .make .whitespace " " ⟨2, 2, 1⟩,
   .make .bracketLeft "(" ⟨3, 2, 2⟩, .make .stringStart "'" ⟨4, 2, 3⟩,
   .make .stringValue "x" ⟨5, 2, 4⟩, .make .templateStart "$" ⟨6, 2, 5⟩]

/-- The bracket, its string and the string's template, which has no child yet, are force-closed. -/
theorem Tree.wellFormed_ofTokens_unfinishedString :
    (∀ t ∈ unfinishedString, t.kind.isMarker = false) ∧
    ∃ tree, Tree.ofTokens { indentBlocks := true } unfinishedString = .ok tree ∧
      (tree.toNode.trees.map fun x => (x.kind, x.isForceClosed)) =
        [(.root, false), (.block, false), (.wrapped, true), (.string, true), (.template, true)] ∧
      tree.kind = .root ∧ (∀ x ∈ tree.toNode.trees, x.WellFormed) ∧
      ∀ path (x : Tree), tree.toNode.at? path = some x.toNode → x.isForceClosed →
        tree.toNode.EndsAt path := by
  have hmarkers : ∀ t ∈ unfinishedString, t.kind.isMarker = false := by decide
  have hkinds : (fun tree : Tree => tree.toNode.trees.map fun x => (x.kind, x.isForceClosed)) <$>
      Tree.ofTokens { indentBlocks := true } unfinishedString =
      .ok [(.root, false), (.block, false), (.wrapped, true), (.string, true),
        (.template, true)] := by
    decide +kernel
  obtain ⟨tree, htree, hkinds⟩ := map_eq_ok_iff.mp hkinds
  exact ⟨hmarkers, tree, htree, hkinds, Tree.wellFormed_ofTokens hmarkers htree⟩

end Nesting
