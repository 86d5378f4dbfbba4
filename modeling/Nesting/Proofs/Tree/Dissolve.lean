import Nesting.Proofs.Tree.Failure

/-! # Blocks only group

A tree in which every block is replaced by its children, without the two markers of the block, is
the tree that the same tokens have without blocks (`Tree.dissolve_ofTokens`).

The two runs do not go side by side: with blocks, the blanks of an indentation wait, and blocks are
closed and opened before the first token of a line.  But a builder with blocks can be dissolved at
any time (`Builder.dissolve`): the children of its open blocks, and the blanks that wait, are
children of the root.  Indentation does not change what is left (`Laid.dissolve_eq`), and placing a
token does the same to a builder and to what is left of it (`Placed.dissolve`), so the run without
blocks is the run with blocks, dissolved (`push_dissolve`). -/

namespace Nesting

/-! ### Nodes without blocks -/

namespace Node

mutual

/-- A node without blocks.  In place of a block stand its children, without its two markers. -/
def dissolve : Node → List Node
  | .token t => [.token t]
  | .tree .block _ _ children => dissolveBlock children
  | .tree kind opening closing children => [.tree kind opening closing (dissolveAll children)]

/-- Neighbouring nodes without blocks. -/
def dissolveAll : List Node → List Node
  | [] => []
  | n :: ns => dissolve n ++ dissolveAll ns

/-- The children of a block without its start marker and its end marker. -/
def dissolveBlock : List Node → List Node
  | [] => []
  | n :: ns => (if n.tokenKind? = some .levelStart then [] else dissolve n) ++ dissolveRest ns

/-- The children of a block without its end marker. -/
def dissolveRest : List Node → List Node
  | [] => []
  | [n] => if n.tokenKind? = some .levelEnd then [] else dissolve n
  | n :: m :: ns => dissolve n ++ dissolveRest (m :: ns)

end

theorem dissolve_of_ne_block {kind : TreeKind} (h : kind ≠ .block) (opening closing : Option Token)
    (children : List Node) :
    dissolve (.tree kind opening closing children) =
      [.tree kind opening closing (dissolveAll children)] := by
  cases kind with
  | block => exact absurd rfl h
  | _ => rfl

@[simp] theorem dissolveAll_append (ns ms : List Node) :
    dissolveAll (ns ++ ms) = dissolveAll ns ++ dissolveAll ms := by
  induction ns with
  | nil => rfl
  | cons n ns ih => simp [dissolveAll, ih]

@[simp] theorem dissolveAll_singleton (n : Node) : dissolveAll [n] = n.dissolve :=
  List.append_nil _

@[simp] theorem dissolveAll_map_token (ts : List Token) :
    dissolveAll (ts.map .token) = ts.map .token := by
  induction ts with
  | nil => rfl
  | cons t ts ih => rw [List.map_cons, dissolveAll, ih, dissolve, List.singleton_append]

theorem dissolveRest_concat (ns : List Node) {m : Token} (hm : m.kind = .levelEnd) :
    dissolveRest (ns ++ [.token m]) = dissolveAll ns := by
  have hkind : tokenKind? (.token m) = some .levelEnd := congrArg some hm
  induction ns with
  | nil => exact if_pos hkind
  | cons n ns ih =>
      cases ns with
      | nil =>
          show dissolve n ++ dissolveRest [.token m] = _
          rw [dissolveRest, if_pos hkind]
          rfl
      | cons n' ns =>
          show dissolve n ++ dissolveRest (n' :: ns ++ [.token m]) = _
          rw [ih]
          rfl

theorem dissolve_block {opening closing : Option Token} {m m' : Token} {ns : List Node}
    (hm : m.kind = .levelStart) (hm' : m'.kind = .levelEnd) :
    dissolve (.tree .block opening closing (.token m :: ns ++ [.token m'])) = dissolveAll ns := by
  have hkind : tokenKind? (.token m) = some .levelStart := congrArg some hm
  show (if tokenKind? (.token m) = some .levelStart then [] else dissolve (.token m)) ++
    dissolveRest (ns ++ [.token m']) = _
  rw [if_pos hkind, dissolveRest_concat ns hm', List.nil_append]

end Node

/-- A tree without the blocks in it. -/
def Tree.dissolve (t : Tree) : Tree := { t with children := Node.dissolveAll t.children }

/-! ### Levels without blocks -/

namespace OpenTree

/-- A level without the blocks in it. -/
def dissolve (t : OpenTree) : OpenTree :=
  { t with children := (Node.dissolveAll t.children.toList).toArray }

/-- A level with more children. -/
def extend (t : OpenTree) (ns : List Node) : OpenTree :=
  { t with children := (t.children.toList ++ ns).toArray }

@[simp] theorem extend_nil (t : OpenTree) : t.extend [] = t := by
  simp [extend]

@[simp] theorem extend_extend (t : OpenTree) (ns ms : List Node) :
    (t.extend ns).extend ms = t.extend (ns ++ ms) := by
  simp [extend]

theorem push_eq_extend (t : OpenTree) (n : Node) : t.push n = t.extend [n] := by
  rw [extend, ← Array.toList_push, Array.toArray_toList]
  rfl

theorem dissolve_extend (t : OpenTree) (ns : List Node) :
    (t.extend ns).dissolve = t.dissolve.extend (Node.dissolveAll ns) := by
  simp [dissolve, extend]

/-- A level that begins with a start marker. -/
def HasStart (t : OpenTree) : Prop :=
  ∃ m ns, t.children.toList = .token m :: ns ∧ m.kind = .levelStart

theorem HasStart.extend {t : OpenTree} (h : t.HasStart) (ns : List Node) :
    (t.extend ns).HasStart := by
  obtain ⟨m, ms, h, hm⟩ := h
  exact ⟨m, ms ++ ns, by simp [OpenTree.extend, h], hm⟩

theorem HasStart.push {t : OpenTree} (h : t.HasStart) (n : Node) : (t.push n).HasStart :=
  push_eq_extend t n ▸ h.extend [n]

theorem HasStart.tail_extend {t : OpenTree} (h : t.HasStart) (ns : List Node) :
    (Node.dissolveAll (t.extend ns).children.toList).tail =
      (Node.dissolveAll t.children.toList).tail ++ Node.dissolveAll ns := by
  obtain ⟨m, ms, h, -⟩ := h
  simp [OpenTree.extend, h, Node.dissolveAll, Node.dissolve]

theorem HasStart.dissolve {t : OpenTree} (h : t.HasStart) : t.dissolve.HasStart := by
  obtain ⟨m, ms, h, hm⟩ := h
  exact ⟨m, Node.dissolveAll ms, by simp [OpenTree.dissolve, h, Node.dissolveAll, Node.dissolve],
    hm⟩

theorem HasStart.children_ne {t : OpenTree} (h : t.HasStart) : t.children.isEmpty = false := by
  obtain ⟨m, ms, h, -⟩ := h
  rw [Array.isEmpty_eq_false_iff]
  rintro hempty
  rw [hempty] at h
  cases h

end OpenTree

namespace Builder

/-- Levels without blocks, the innermost first.  What stands behind the start marker of a block
goes on the children of the level around it. -/
def dissolveLevels (t : OpenTree) : List OpenTree → OpenTree × List OpenTree
  | [] => (t.dissolve, [])
  | parent :: outer =>
    let (p, ps) := dissolveLevels parent outer
    if t.kind = .block then (p.extend (Node.dissolveAll t.children.toList).tail, ps)
    else (t.dissolve, p :: ps)

/-- A builder without blocks.  The blanks that wait are children. -/
def dissolve (b : Builder) : Builder :=
  { start {} with
    current := (dissolveLevels b.current b.outer).1.extend (b.waiting.map .token)
    outer := (dissolveLevels b.current b.outer).2
    previous := b.previous
    nesting := b.nesting }

theorem dissolveLevels_of_ne_block {t : OpenTree} (h : t.kind ≠ .block) (parent : OpenTree)
    (outer : List OpenTree) :
    dissolveLevels t (parent :: outer) =
      (t.dissolve, (dissolveLevels parent outer).1 :: (dissolveLevels parent outer).2) := by
  rw [dissolveLevels]
  exact if_neg h

theorem dissolveLevels_of_block {t : OpenTree} (h : t.kind = .block) (parent : OpenTree)
    (outer : List OpenTree) :
    dissolveLevels t (parent :: outer) =
      ((dissolveLevels parent outer).1.extend (Node.dissolveAll t.children.toList).tail,
        (dissolveLevels parent outer).2) := by
  rw [dissolveLevels]
  exact if_pos h

/-- More children of the innermost level are more children of what is left of it. -/
theorem dissolveLevels_extend {t : OpenTree} (h : t.kind = .block → t.HasStart)
    (outer : List OpenTree) (ns : List Node) :
    dissolveLevels (t.extend ns) outer =
      ((dissolveLevels t outer).1.extend (Node.dissolveAll ns), (dissolveLevels t outer).2) := by
  cases outer with
  | nil => rw [dissolveLevels, dissolveLevels, OpenTree.dissolve_extend]
  | cons parent outer =>
      by_cases hk : t.kind = .block
      · have hk' : (t.extend ns).kind = .block := hk
        rw [dissolveLevels_of_block hk, dissolveLevels_of_block hk', (h hk).tail_extend,
          OpenTree.extend_extend]
      · have hk' : (t.extend ns).kind ≠ .block := hk
        rw [dissolveLevels_of_ne_block hk, dissolveLevels_of_ne_block hk',
          OpenTree.dissolve_extend]

theorem dissolveLevels_push_token {t : OpenTree} (h : t.kind = .block → t.HasStart)
    (outer : List OpenTree) (u : Token) :
    dissolveLevels (t.push (.token u)) outer =
      ((dissolveLevels t outer).1.push (.token u), (dissolveLevels t outer).2) := by
  rw [OpenTree.push_eq_extend, dissolveLevels_extend h, OpenTree.push_eq_extend]
  rfl

theorem kind_dissolveLevels {t : OpenTree} (h : t.kind ≠ .block) (outer : List OpenTree) :
    (dissolveLevels t outer).1.kind = t.kind := by
  cases outer with
  | nil => rfl
  | cons parent outer =>
      rw [dissolveLevels_of_ne_block h]
      rfl

/-- Without blocks, levels have the shape that they have without indents. -/
theorem Shape.dissolveLevels {n : Nat} {indents : List String} {t : OpenTree}
    {outer : List OpenTree} (h : Shape n indents (t.kind :: outer.map OpenTree.kind)) :
    Shape n [] ((dissolveLevels t outer).1.kind ::
      (dissolveLevels t outer).2.map OpenTree.kind) := by
  induction outer generalizing n indents t with
  | nil =>
      generalize hk : t.kind = k at h
      cases h with
      | root =>
          show Shape 0 [] [t.kind]
          exact hk ▸ .root
      | block h _ _ => cases h
      | wrapped h => cases h
      | string h => cases h
  | cons parent outer ih =>
      generalize hk : t.kind = k at h
      generalize hks : (parent :: outer).map OpenTree.kind = ks at h
      have kept (hblock : k ≠ .block) : Builder.dissolveLevels t (parent :: outer) = (t.dissolve,
          (Builder.dissolveLevels parent outer).1 :: (Builder.dissolveLevels parent outer).2) :=
        dissolveLevels_of_ne_block (hk ▸ hblock) parent outer
      have hkind : t.dissolve.kind = k := hk
      cases h with
      | root => cases hks
      | block h _ _ =>
          rw [dissolveLevels_of_block hk]
          exact ih (hks ▸ h)
      | wrapped h =>
          rw [kept nofun, hkind]
          exact .wrapped (ih (hks ▸ h))
      | string h =>
          rw [kept nofun, hkind]
          exact .string (ih (hks ▸ h))
      | template h =>
          obtain ⟨hparent, rfl⟩ := List.cons.inj hks
          have hleft : (Builder.dissolveLevels parent outer).1.kind = .string :=
            (kind_dissolveLevels (fun h => by simp [hparent] at h) outer).trans hparent
          have h := ih (hparent ▸ h)
          rw [hleft] at h
          rw [kept nofun, hkind, List.map_cons, hleft]
          exact .template h

theorem Shaped.dissolve {b : Builder} (hb : b.Shaped) : b.dissolve.Shaped :=
  Shape.dissolveLevels hb

/-- What is left of the innermost level is delimited if the level is, and is then of its kind. -/
theorem kind_dissolve {b : Builder} (hb : b.Shaped) :
    if b.current.kind.isDelimited then b.dissolve.current.kind = b.current.kind
    else b.dissolve.current.kind = .root := by
  split
  · next hk =>
    refine kind_dissolveLevels (fun h => ?_) b.outer
    rw [h] at hk
    cases hk
  · next hk =>
    have hn : b.nesting = 0 := by
      by_contra hn
      exact hk (hb.isDelimited_iff.mpr hn)
    have h : Shape b.nesting [] (b.dissolve.current.kind :: b.dissolve.outer.map OpenTree.kind) :=
      hb.dissolve
    rw [hn] at h
    generalize b.dissolve.current.kind = k, b.dissolve.outer.map OpenTree.kind = ks at h ⊢
    cases h
    rfl

theorem kind_dissolve_eq_template_iff {b : Builder} (hb : b.Shaped) :
    b.dissolve.current.kind = .template ↔ b.current.kind = .template := by
  have hkind := kind_dissolve hb
  split at hkind
  · rw [hkind]
  · next hk =>
    rw [hkind]
    refine iff_of_false nofun fun h => hk ?_
    rw [h]
    rfl

/-! ### Start markers -/

/-- Levels with their start markers: a delimited level gets it with its first token. -/
structure Marked (b : Builder) : Prop where
  current : b.current.HasStart ∨ (b.current.kind.isDelimited ∧ b.current.children = #[])
  outer : ∀ t ∈ b.outer, t.HasStart

/-- Levels that all have their start markers, as they do once a token has come. -/
structure Begun (b : Builder) : Prop where
  current : b.current.HasStart
  outer : ∀ t ∈ b.outer, t.HasStart

theorem Begun.marked {b : Builder} (h : b.Begun) : b.Marked := ⟨.inl h.current, h.outer⟩

theorem Marked.hasStart {b : Builder} (h : b.Marked) (hk : b.current.kind = .block) :
    b.current.HasStart := by
  rcases h.current with hstart | ⟨hdelimited, -⟩
  · exact hstart
  · rw [hk] at hdelimited
    cases hdelimited

theorem Marked.marks {b : Builder} (h : b.Marked) (marker : Token)
    (hmarker : marker.kind = .levelStart) :
    (if b.current.children.isEmpty then b.pushToken marker else b).Begun := by
  rcases h.current with hstart | ⟨_, hempty⟩
  · rw [if_neg (by simp [hstart.children_ne])]
    exact ⟨hstart, h.outer⟩
  · rw [if_pos (by rw [hempty]; rfl)]
    refine ⟨⟨marker, [], ?_, hmarker⟩, h.outer⟩
    simp [pushToken, pushNode, OpenTree.push, hempty]

theorem Marked.begin {b : Builder} (h : b.Marked) (t : Token) : (b.begin t).Begun :=
  h.marks _ rfl

theorem current_flush (b : Builder) :
    b.flush.current = b.current.extend (b.waiting.map .token) := by
  rw [OpenTree.extend, ← Array.toList_appendList, Array.toArray_toList]
  rfl

theorem Begun.flush {b : Builder} (h : b.Begun) : b.flush.Begun :=
  ⟨current_flush b ▸ h.current.extend _, h.outer⟩

theorem Marked.flush {b : Builder} (h : b.Marked)
    (hwaits : b.current.kind.isDelimited → b.waiting = []) : b.flush.Marked := by
  refine ⟨?_, h.outer⟩
  rw [current_flush]
  rcases h.current with hstart | ⟨hdelimited, hempty⟩
  · exact .inl (hstart.extend _)
  · rw [hwaits hdelimited, List.map_nil, OpenTree.extend_nil]
    exact .inr ⟨hdelimited, hempty⟩

theorem Begun.closed {b : Builder} (h : b.Begun) {parent : OpenTree} {rest : List OpenTree}
    (houter : b.outer = parent :: rest) (closing : Option Token) (marker : Token) :
    (b.closed closing marker parent rest).Begun := by
  have hall := h.outer
  rw [houter, List.forall_mem_cons] at hall
  exact ⟨hall.1.push _, hall.2⟩

theorem Unblocked.begun {b b' : Builder} {t : Token} (h : Unblocked t b b') (hb : b.Begun) :
    b'.Begun := by
  induction h with
  | done => exact ⟨hb.current, hb.outer⟩
  | close _ houter _ ih => exact ih (hb.closed houter _ _)

theorem Laid.begun {b b' : Builder} {t : Token} (h : Laid t b b') (hb : b.Begun) : b'.Begun := by
  cases h with
  | inside _ => exact hb
  | newline _ _ _ => exact ⟨hb.flush.current, hb.flush.outer⟩
  | comment _ _ _ _ => exact ⟨hb.flush.current, hb.flush.outer⟩
  | @stays b₁ _ _ _ _ hun _ =>
      have hb₁ : b₁.Begun := hun.begun ⟨hb.current, hb.outer⟩
      exact ⟨hb₁.flush.current, hb₁.flush.outer⟩
  | @opens b₁ _ _ _ _ hun _ _ _ =>
      have hb₁ : b₁.Begun := hun.begun ⟨hb.current, hb.outer⟩
      exact ⟨⟨t.markerBefore .levelStart, b₁.waiting.map .token, by simp [openBlock], rfl⟩,
        List.forall_mem_cons.mpr ⟨hb₁.current, hb₁.outer⟩⟩

theorem Placed.marked {b b' : Builder} {t : Token} (h : Placed t b b') (hb : b.Begun) :
    b'.Marked := by
  induction h with
  | opens hopens _ =>
      exact ⟨.inr ⟨isDelimited_of_opens? hopens, rfl⟩,
        List.forall_mem_cons.mpr ⟨hb.current, hb.outer⟩⟩
  | closes _ houter =>
      have h := hb.closed houter (some t) (t.markerBefore .levelEnd)
      exact ⟨.inl h.current, h.outer⟩
  | child _ _ _ => exact ⟨.inl (hb.current.push _), hb.outer⟩
  | escapes _ _ houter _ ih =>
      have h := hb.closed houter (some (t.markerBefore .templateEnd)) (t.markerBefore .levelEnd)
      exact ih ⟨h.current, h.outer⟩

/-- A string value is not the start marker of its level. -/
theorem exists_hasStart_of_back {b : Builder} (h : b.current.HasStart) {children : Array Node}
    {last : Token} (hchildren : b.current.children = children.push (.token last))
    (hlast : last.kind = .stringValue) :
    ∃ t : OpenTree, t.HasStart ∧
      ∀ n, { b.current with children := children.push n } = t.push n := by
  obtain ⟨m, ns, hns, hm⟩ := h
  rw [hchildren, Array.toList_push] at hns
  refine ⟨{ b.current with children }, ?_, fun _ => rfl⟩
  cases hlist : children.toList with
  | nil =>
      rw [hlist] at hns
      cases hns
      rw [hlast] at hm
      cases hm
  | cons n ms =>
      rw [hlist] at hns
      obtain ⟨rfl, -⟩ := List.cons.inj hns
      exact ⟨m, ms, hlist, hm⟩

theorem Begun.coalesce {b : Builder} (h : b.Begun) (t : Token) : (b.coalesce t).Begun := by
  unfold Builder.coalesce
  split
  · next last hback =>
    split
    · next hlast =>
      obtain ⟨children, hchildren⟩ := Array.back?_eq_some_iff.mp hback
      obtain ⟨base, hbase, hpush⟩ := exists_hasStart_of_back h.current hchildren hlast
      refine ⟨?_, h.outer⟩
      rw [hchildren, Array.pop_push]
      have hstart := hbase.push (.token (last.merge t))
      rw [← hpush] at hstart
      exact hstart
    · exact ⟨h.current.push _, h.outer⟩
  · exact ⟨h.current.push _, h.outer⟩

theorem Step.marked {b b' : Builder} {t : Token} (h : Step t b b') (hb : b.Marked) :
    b'.Marked := by
  have hb₀ := hb.begin t
  cases h with
  | waits h₀ _ _ _ _ =>
      rw [← h₀] at hb₀
      exact ⟨.inl hb₀.current, hb₀.outer⟩
  | merges hlaid _ _ _ => exact ((hlaid.begun hb₀).coalesce t).marked
  | places hlaid _ _ hplaced =>
      have h := hplaced.marked (hlaid.begun hb₀)
      exact ⟨h.current, h.outer⟩

/-! ### Indentation -/

/-- Blanks that wait, and blanks that are children already, are the same once dissolved. -/
theorem dissolve_eq_of_levels {b b' : Builder} {ns : List Node}
    (hlevels : dissolveLevels b'.current b'.outer =
      ((dissolveLevels b.current b.outer).1.extend ns, (dissolveLevels b.current b.outer).2))
    (hwaiting : ns ++ b'.waiting.map .token = b.waiting.map .token)
    (hprevious : b'.previous = b.previous) (hnesting : b'.nesting = b.nesting) :
    b'.dissolve = b.dissolve := by
  unfold dissolve
  rw [hlevels, OpenTree.extend_extend, hwaiting, hprevious, hnesting]

theorem dissolve_flush {b : Builder} (hb : b.Marked) : b.flush.dissolve = b.dissolve := by
  refine dissolve_eq_of_levels (?_ : _ = (OpenTree.extend _ (b.waiting.map .token), _))
    (List.append_nil _) rfl rfl
  rw [current_flush, dissolveLevels_extend hb.hasStart, Node.dissolveAll_map_token]
  rfl

/-- A block that is closed leaves its children. -/
theorem dissolve_closed {b : Builder} (hb : b.Begun) (hk : b.current.kind = .block)
    {parent : OpenTree} {rest : List OpenTree} (houter : b.outer = parent :: rest)
    (marker : Token) (hmarker : marker.kind = .levelEnd) :
    (b.closed none marker parent rest).dissolve = b.dissolve := by
  have hparent : parent.HasStart := hb.outer parent (houter ▸ List.mem_cons_self)
  have hnode : ((b.current.push (.token marker)).close none).dissolve =
      (Node.dissolveAll b.current.children.toList).tail := by
    obtain ⟨m, ns, hns, hm⟩ := hb.current
    have hchildren : (b.current.push (.token marker)).children.toList =
        .token m :: ns ++ [.token marker] := by
      rw [OpenTree.push, Array.toList_push, hns]
    rw [OpenTree.close, show (b.current.push (.token marker)).kind = .block from hk, hchildren,
      Node.dissolve_block hm hmarker, hns]
    rfl
  refine dissolve_eq_of_levels (?_ : _ = (OpenTree.extend _ [], _)) rfl rfl rfl
  show dissolveLevels (parent.push _) rest = _
  rw [OpenTree.push_eq_extend, dissolveLevels_extend fun _ => hparent, Node.dissolveAll_singleton,
    hnode, houter, dissolveLevels_of_block hk, OpenTree.extend_nil]

theorem dissolve_openBlock (b : Builder) (t : Token) (indent : String) :
    (b.openBlock t indent).dissolve = b.dissolve := by
  refine dissolve_eq_of_levels (?_ : _ = (OpenTree.extend _ (b.waiting.map .token), _))
    (List.append_nil _) rfl rfl
  refine (dissolveLevels_of_block rfl b.current b.outer).trans ?_
  simp [openBlock, Node.dissolveAll, Node.dissolve]

theorem Unblocked.dissolve_eq {b b' : Builder} {t : Token} (h : Unblocked t b b') (hb : b.Begun) :
    b'.dissolve = b.dissolve := by
  induction h with
  | done => rfl
  | close hk houter _ ih =>
      rw [ih (hb.closed houter _ _), dissolve_closed hb hk houter _ rfl]

/-- Indentation leaves no trace once blocks are dissolved. -/
theorem Laid.dissolve_eq {b b' : Builder} {t : Token} (h : Laid t b b') (hb : b.Begun) :
    b'.dissolve = b.dissolve := by
  cases h with
  | inside _ => rfl
  | newline _ _ _ => exact dissolve_flush hb.marked
  | comment _ _ _ _ => exact dissolve_flush hb.marked
  | @stays b₁ _ _ _ _ hun _ =>
      have hb₁ : b₁.Begun := hun.begun ⟨hb.current, hb.outer⟩
      exact (dissolve_flush hb₁.marked).trans (hun.dissolve_eq ⟨hb.current, hb.outer⟩)
  | @opens b₁ _ _ _ _ hun _ _ _ =>
      exact (dissolve_openBlock b₁ t b.indent).trans (hun.dissolve_eq ⟨hb.current, hb.outer⟩)

/-! ### Placing a token -/

theorem dissolve_of_levels {b : Builder} {t : OpenTree} {outer : List OpenTree}
    (hlevels : dissolveLevels b.current b.outer = (t, outer)) (hw : b.waiting = []) :
    b.dissolve =
      { start {} with current := t, outer, previous := b.previous, nesting := b.nesting } := by
  unfold dissolve
  rw [hlevels, hw, List.map_nil, OpenTree.extend_nil]

theorem dissolve_pushToken {b : Builder} (hs : b.current.kind = .block → b.current.HasStart)
    (hw : b.waiting = []) (t : Token) : (b.pushToken t).dissolve = b.dissolve.pushToken t := by
  rw [dissolve_of_levels (b := b.pushToken t) (dissolveLevels_push_token hs b.outer t) hw,
    dissolve_of_levels rfl hw]
  rfl

theorem dissolve_openDelimited {b : Builder} (hw : b.waiting = []) {k : TreeKind}
    (hk : k.isDelimited) (t : Token) :
    (b.openDelimited k t).dissolve = b.dissolve.openDelimited k t := by
  have hblock : k ≠ .block := fun h => by simp [h, TreeKind.isDelimited] at hk
  rw [dissolve_of_levels (b := b.openDelimited k t)
    (dissolveLevels_of_ne_block hblock b.current b.outer) hw, dissolve_of_levels rfl hw]
  rfl

/-- A level that is not a block is closed to the tree of what is left of it. -/
theorem dissolve_closed_of_ne_block {b : Builder} (hb : b.Begun) (hw : b.waiting = [])
    (hk : b.current.kind ≠ .block) {parent : OpenTree} {rest : List OpenTree}
    (houter : b.outer = parent :: rest) (closing : Option Token) (marker : Token) :
    ∃ parent' rest', b.dissolve.outer = parent' :: rest' ∧
      (b.closed closing marker parent rest).dissolve =
        b.dissolve.closed closing marker parent' rest' := by
  have hparent : parent.HasStart := hb.outer parent (houter ▸ List.mem_cons_self)
  have hlevels : dissolveLevels b.current b.outer = (b.current.dissolve,
      (dissolveLevels parent rest).1 :: (dissolveLevels parent rest).2) := by
    rw [houter, dissolveLevels_of_ne_block hk]
  have hnode : ((b.current.push (.token marker)).close closing).dissolve =
      [(b.current.dissolve.push (.token marker)).close closing] := by
    refine (Node.dissolve_of_ne_block hk _ _ _).trans ?_
    simp [OpenTree.close, OpenTree.push, OpenTree.dissolve, Node.dissolve]
  have hclosed :
      dissolveLevels (parent.push ((b.current.push (.token marker)).close closing)) rest =
      ((dissolveLevels parent rest).1.push
        ((b.current.dissolve.push (.token marker)).close closing),
        (dissolveLevels parent rest).2) := by
    rw [OpenTree.push_eq_extend, dissolveLevels_extend fun _ => hparent,
      Node.dissolveAll_singleton, hnode, ← OpenTree.push_eq_extend]
  rw [dissolve_of_levels hlevels hw,
    dissolve_of_levels (b := b.closed closing marker parent rest) hclosed hw]
  exact ⟨_, _, rfl, rfl⟩

theorem dissolve_closedDelimited {b : Builder} (hb : b.Begun) (hw : b.waiting = [])
    (hk : b.current.kind.isDelimited) {parent : OpenTree} {rest : List OpenTree}
    (houter : b.outer = parent :: rest) (closing marker : Token) :
    ∃ parent' rest', b.dissolve.outer = parent' :: rest' ∧
      (b.closedDelimited closing marker parent rest).dissolve =
        b.dissolve.closedDelimited closing marker parent' rest' := by
  have hblock : b.current.kind ≠ .block := fun h => by simp [h, TreeKind.isDelimited] at hk
  obtain ⟨parent', rest', houter', heq⟩ :=
    dissolve_closed_of_ne_block hb hw hblock houter (some closing) marker
  refine ⟨parent', rest', houter', ?_⟩
  show { (b.closed (some closing) marker parent rest).dissolve with nesting := b.nesting - 1 } = _
  rw [heq]
  rfl

/-- Placing a token does the same to what is left of a builder. -/
theorem Placed.dissolve {b b' : Builder} {t : Token} (h : Placed t b b') (hb : b.Shaped)
    (hbegun : b.Begun) (hw : b.waiting = []) : Placed t b.dissolve b'.dissolve := by
  induction h with
  | @opens b k hopens hstring =>
      rw [dissolve_openDelimited hw (isDelimited_of_opens? hopens)]
      refine .opens hopens fun hk => ?_
      have hkind := kind_dissolve hb
      rw [hstring hk] at hkind
      exact hkind
  | @closes b parent rest hcloses houter =>
      have hk := isDelimited_of_closes? hcloses
      obtain ⟨parent', rest', houter', heq⟩ :=
        dissolve_closedDelimited hbegun hw hk houter t (t.markerBefore .levelEnd)
      have hkind := kind_dissolve hb
      rw [if_pos hk] at hkind
      rw [heq]
      exact .closes (hkind ▸ hcloses) houter'
  | @child b hopens hcloses hleaves =>
      rw [dissolve_pushToken (fun _ => hbegun.current) hw]
      -- A kind that is left is the kind of the level, or the root, which no token closes.
      have hkind := kind_dissolve hb
      split at hkind
      · refine .child ?_ ?_ ?_ <;> rw [hkind] <;> assumption
      · next hk =>
        refine .child ?_ ?_ ?_ <;> rw [hkind]
        · exact fun k hk => ⟨(hopens k hk).1, nofun⟩
        · exact fun h => absurd (isDelimited_of_closes? h) (by decide)
        · exact fun h => absurd h.1 (by decide)
  | @escapes b b' parent rest hk hleaves houter _ ih =>
      have hdelimited : b.current.kind.isDelimited := by rw [hk]; rfl
      obtain ⟨parent', rest', houter', heq⟩ :=
        dissolve_closedDelimited hbegun hw hdelimited houter (t.markerBefore .templateEnd)
          (t.markerBefore .levelEnd)
      have hkind := kind_dissolve hb
      rw [if_pos hdelimited, hk] at hkind
      have hclosed := hbegun.closed houter (some (t.markerBefore .templateEnd))
        (t.markerBefore .levelEnd)
      refine .escapes hkind hleaves houter' (heq ▸ ih ?_ ⟨hclosed.current, hclosed.outer⟩ hw)
      exact hb.closedDelimited houter hdelimited _ _

/-! ### Taking a token -/

/-- A level has its start marker, whether or not there are blocks in it. -/
theorem hasStart_dissolve {b : Builder} (h : b.Begun) : b.dissolve.current.HasStart := by
  have levels {t : OpenTree} {outer : List OpenTree} (ht : t.HasStart)
      (houter : ∀ u ∈ outer, u.HasStart) : (dissolveLevels t outer).1.HasStart := by
    induction outer generalizing t with
    | nil => exact ht.dissolve
    | cons parent outer ih =>
        obtain ⟨hparent, houter⟩ := List.forall_mem_cons.mp houter
        by_cases hk : t.kind = .block
        · rw [dissolveLevels_of_block hk]
          exact (ih hparent houter).extend _
        · rw [dissolveLevels_of_ne_block hk]
          exact ht.dissolve
  exact (levels h.current h.outer).extend _

/-- The same levels get a start marker. -/
theorem dissolve_marks {b : Builder} (hm : b.Marked)
    (hwaits : b.current.kind.isDelimited → b.waiting = []) (marker : Token) :
    (if b.current.children.isEmpty then b.pushToken marker else b).dissolve =
      if b.dissolve.current.children.isEmpty then b.dissolve.pushToken marker else b.dissolve := by
  rcases hm.current with hstart | ⟨hdelimited, hempty⟩
  · rw [if_neg (by simp [hstart.children_ne]),
      if_neg (by simp [(hasStart_dissolve ⟨hstart, hm.outer⟩).children_ne])]
  · have hw := hwaits hdelimited
    have hlevel : (dissolveLevels b.current b.outer).1 = b.current.dissolve := by
      cases b.outer with
      | nil => rfl
      | cons parent outer =>
          rw [dissolveLevels_of_ne_block fun h => by simp [h, TreeKind.isDelimited] at hdelimited]
    have hleft : b.dissolve.current.children = #[] := by
      rw [dissolve_of_levels rfl hw]
      show (dissolveLevels b.current b.outer).1.children = #[]
      rw [hlevel, OpenTree.dissolve, hempty]
      rfl
    rw [if_pos (by rw [hempty]; rfl), if_pos (by rw [hleft]; rfl),
      dissolve_pushToken hm.hasStart hw]

theorem Accounted.waiting_eq_nil {b : Builder} {ts : List Token} (hb : b.Accounted ts)
    (hk : b.current.kind.isDelimited) : b.waiting = [] := by
  by_contra hw
  exact hb.shaped.isDelimited_iff.mp hk (hb.coherent.waiting hw)

theorem dissolve_begin {b : Builder} {ts : List Token} (hb : b.Accounted ts) (hm : b.Marked)
    (t : Token) : (b.begin t).dissolve = b.dissolve.begin t :=
  dissolve_marks hm hb.waiting_eq_nil _

/-- Adding a string value to the one before it does the same to what is left of a builder. -/
theorem dissolve_coalesce {b : Builder} (hb : b.Begun) (hw : b.waiting = [])
    {children : Array Node} {last : Token}
    (hchildren : b.current.children = children.push (.token last))
    (hlast : last.kind = .stringValue) (t : Token) :
    (b.coalesce t).dissolve = b.dissolve.coalesce t := by
  obtain ⟨base, hbase, hpush⟩ := exists_hasStart_of_back hb.current hchildren hlast
  have levels := dissolveLevels_push_token (fun _ => hbase) b.outer
  have hcurrent : b.current = base.push (.token last) := by
    rw [← hpush, ← hchildren]
  have hdissolve := dissolve_of_levels (hcurrent ▸ levels last) hw
  have hleft : b.dissolve.current.children =
      (dissolveLevels base b.outer).1.children.push (.token last) := by
    rw [hdissolve]
    rfl
  have hmerge : b.coalesce t = { b with
      current := base.push (.token (last.merge t)), previous := last.merge t } := by
    rw [coalesce_of_back hchildren hlast, ← hpush]
  rw [hmerge, coalesce_of_back hleft hlast, hdissolve]
  exact dissolve_of_levels (b := { b with
    current := base.push (.token (last.merge t)), previous := last.merge t }) (levels _) hw

theorem push_of_flat {b : Builder} (h : b.indentBlocks = false) (t : Token) :
    b.push t = (b.begin t).accept t := by
  have hbegin : (b.begin t).indentBlocks = false := by
    obtain ⟨_, hb⟩ := b.begin_eq t
    rw [hb]
    exact h
  exact if_neg (by simp [hbegin])

/-- **One token.**  A builder without blocks takes a token as a builder with blocks does. -/
theorem push_dissolve {b b' : Builder} {ts : List Token} {t : Token} (hb : b.Accounted ts)
    (hm : b.Marked) (h : b.push t = .ok b') : b.dissolve.push t = .ok b'.dissolve := by
  have hb₀ := hb.begin t
  have hbegun₀ := hm.begin t
  rw [push_of_flat rfl, ← dissolve_begin hb hm]
  unfold accept
  cases step_of_push hb.shaped h with
  | @waits b₀ h₀ _ _ _ ht =>
      -- Without blocks the blank is a child at once.
      rw [← h₀] at hb₀ hbegun₀ ⊢
      have hplace : b₀.dissolve.place t = .ok (b₀.dissolve.pushToken t) := by
        unfold place
        rw [ht]
        rfl
      rw [if_neg (by simp [ht]), hplace]
      unfold dissolve
      rw [List.map_append, ← OpenTree.extend_extend]
      simp only [List.map_cons, List.map_nil, ← OpenTree.push_eq_extend]
      rfl
  | @merges b₁ hlaid ht hk hprev =>
      obtain rfl := hb₀.eq_of_laid hlaid ht hprev
      obtain ⟨-, hlevel, children, _, last, hchildren, hlast, -⟩ := hb₀.value hprev
      have hw := hb₀.waiting_eq_nil_of_value hprev
      have hleft : (b.begin t).dissolve.current.kind ≠ .template :=
        fun h => hlevel ((kind_dissolve_eq_template_iff hb₀.shaped).mp h)
      have hprevious : (b.begin t).dissolve.previous.kind = .stringValue := hprev
      rw [dissolve_coalesce hbegun₀ hw hchildren hlast, if_pos (by simp [ht, hleft, hprevious])]
      rfl
  | @places b₁ b₂ hlaid hb₁ hnew hplaced =>
      have hbegun₁ := hlaid.begun hbegun₀
      have hw := hlaid.waiting_eq_nil hb₀.waits hb₀.line
      have hplace := place_of_placed hb₁.dissolve (hplaced.dissolve hb₁ hbegun₁ hw)
      rw [← hlaid.dissolve_eq hbegun₀, if_neg, hplace]
      · rfl
      · simp only [Bool.and_eq_true, decide_eq_true_eq, and_assoc]
        rintro ⟨ht, hleft, hprevious⟩
        exact hnew ⟨ht, fun h => hleft ((kind_dissolve_eq_template_iff hb₁).mpr h), hprevious⟩

/-! ### Runs -/

theorem marked_start (layout : Layout) : (start layout).Marked where
  current := .inl ⟨_, [], rfl, rfl⟩
  outer := by simp [start]

/-- The run without blocks is the run with blocks, dissolved. -/
theorem foldlM_dissolve {layout : Layout} {tokens : List Token} {b : Builder}
    (h : tokens.foldlM push (start layout) = .ok b) :
    b.Marked ∧ tokens.foldlM push (start {}) = .ok b.dissolve := by
  have hrun : b.Accounted tokens ∧ b.Marked ∧
      tokens.foldlM push (start {}) = .ok b.dissolve := by
    refine foldlM_induction (P := fun ts b => b.Accounted ts ∧ b.Marked ∧
      ts.foldlM push (start {}) = .ok b.dissolve)
      ⟨accounted_start layout, marked_start layout, rfl⟩ ?_ h
    rintro ts t _ b b' ⟨hb, hm, hflat⟩ hpush
    have hstep := step_of_push hb.shaped hpush
    refine ⟨hstep.accounted hb, hstep.marked hm, ?_⟩
    rw [List.foldlM_append, hflat]
    refine bind_eq_ok_iff.mpr ⟨b.dissolve, rfl, ?_⟩
    rw [List.foldlM_cons, push_dissolve hb hm hpush]
    rfl
  exact hrun.2

/-! ### The end -/

theorem closeAll_dissolve {outer : List OpenTree} {b b' : Builder} (hm : b.Marked)
    (hw : b.waiting = []) (houter : b.outer = outer) (h : closeAll outer b = .ok b') :
    closeAll b.dissolve.outer b.dissolve = .ok b'.dissolve := by
  induction outer generalizing b with
  | nil =>
      cases h
      unfold dissolve
      rw [houter]
      rfl
  | cons parent rest ih =>
      have hbegun := hm.marks (b.previous.markerAfter .levelStart) rfl
      have hmarks := dissolve_marks hm (fun _ => hw) (b.previous.markerAfter .levelStart)
      rw [closeAll] at h
      obtain ⟨b₁, h₁, hrest⟩ := bind_eq_ok_iff.mp h
      by_cases hk : b.current.kind = .block
      · -- Without blocks there is nothing to close.
        rw [if_neg (by simp [(hm.hasStart hk).children_ne])] at h₁ hbegun
        obtain ⟨parent', rest', houter', rfl⟩ := closeLevel_eq_ok_iff.mp h₁
        obtain ⟨rfl, rfl⟩ := List.cons.inj (houter'.symm.trans houter)
        rw [← dissolve_closed hbegun hk houter' (b.previous.markerAfter .levelEnd) rfl]
        have hclosed := hbegun.closed houter' none (b.previous.markerAfter .levelEnd)
        exact ih hclosed.marked hw rfl hrest
      · generalize hb₀ : (if b.current.children.isEmpty then
          b.pushToken (b.previous.markerAfter .levelStart) else b) = b₀ at h₁ hbegun hmarks
        have hkeeps : b₀.current.kind = b.current.kind ∧ b₀.outer = b.outer ∧
            b₀.previous = b.previous ∧ b₀.waiting = b.waiting := by
          rw [← hb₀]
          split <;> exact ⟨rfl, rfl, rfl, rfl⟩
        obtain ⟨hk₀, houter₀, hprevious₀, hw₀⟩ := hkeeps
        obtain ⟨parent', rest', houter', rfl⟩ := closeLevel_eq_ok_iff.mp h₁
        obtain ⟨rfl, rfl⟩ := List.cons.inj ((houter'.symm.trans houter₀).trans houter)
        have hclosed := hbegun.closed houter' none (b₀.previous.markerAfter .levelEnd)
        obtain ⟨p, ps, hleft, heq⟩ := dissolve_closed_of_ne_block hbegun (hw₀.trans hw)
          (hk₀ ▸ hk) houter' none (b₀.previous.markerAfter .levelEnd)
        have hps : b.dissolve.outer = p :: ps := by
          rw [← hleft, hmarks]
          split <;> rfl
        have h := ih hclosed.marked (hw₀.trans hw) rfl hrest
        rw [heq] at h
        have hstep : closeAll (p :: ps) b.dissolve = (b₀.dissolve.closeLevel none
            (b₀.previous.markerAfter .levelEnd) >>= closeAll ps) := by
          rw [closeAll, show b₀.previous = b₀.dissolve.previous from rfl, hmarks]
          rfl
        rw [hps, hstep]
        exact bind_eq_ok_iff.mpr ⟨_, closeLevel_eq_ok_iff.mpr ⟨p, ps, hleft, rfl⟩, h⟩

theorem finish_dissolve {b : Builder} (hm : b.Marked)
    (hwaits : b.current.kind.isDelimited → b.waiting = []) {tree : Tree}
    (h : b.finish = .ok tree) : b.dissolve.finish = .ok tree.dissolve := by
  have hflush : b.flush.Marked := hm.flush hwaits
  have hflat : b.dissolve.flush = b.dissolve := by
    rw [flush]
    simp [dissolve, start]
  unfold finish at h ⊢
  obtain ⟨b', hclose, h⟩ := bind_eq_ok_iff.mp h
  have hended := ended_of_closeAll rfl hclose
  have hclose := closeAll_dissolve hflush rfl rfl hclose
  have hroot : b'.dissolve.current = b'.current.dissolve := by
    rw [dissolve_of_levels rfl hended.content_leaves.1, hended.outer_eq_nil]
    rfl
  rw [dissolve_flush hm] at hclose
  cases h
  rw [hflat]
  refine bind_eq_ok_iff.mpr ⟨b'.dissolve, hclose, ?_⟩
  have hprevious : b'.dissolve.previous = b'.previous := rfl
  rw [hroot, hprevious]
  simp [Tree.dissolve, OpenTree.dissolve, OpenTree.push, Node.dissolve, pure, Except.pure]

end Builder

/-- **Blocks only group.**  If there is a tree with blocks, then it is, without them, the tree that
the same tokens have without blocks. -/
theorem Tree.dissolve_ofTokens {tokens : List Token} {tree : Tree}
    (h : Tree.ofTokens { indentBlocks := true } tokens = .ok tree) :
    Tree.ofTokens { indentBlocks := false } tokens = .ok tree.dissolve := by
  unfold Tree.ofTokens at h ⊢
  obtain ⟨b, hrun, hfinish⟩ := bind_eq_ok_iff.mp h
  obtain ⟨hmarked, hflat⟩ := Builder.foldlM_dissolve hrun
  have hwaits := (Builder.accounted_of_foldlM hrun).waiting_eq_nil
  exact bind_eq_ok_iff.mpr ⟨b.dissolve, hflat, Builder.finish_dissolve hmarked hwaits hfinish⟩

/-- A line with a bracket in a block, in which a blank follows a comment, and a line after it. -/
def bracketedBlock : List Token :=
  [.make .symbol "a" ⟨0, 1, 1⟩, .make .newline "\n" ⟨1, 1, 2⟩, .make .whitespace " " ⟨2, 2, 1⟩,
   .make .comment "#" ⟨3, 2, 2⟩, .make .newline "\n" ⟨4, 2, 3⟩, .make .whitespace "  " ⟨5, 3, 1⟩,
   .make .bracketLeft "(" ⟨7, 3, 3⟩, .make .newline "\n" ⟨8, 3, 4⟩,
   .make .bracketRight ")" ⟨9, 4, 1⟩, .make .newline "\n" ⟨10, 4, 2⟩,
   .make .symbol "b" ⟨11, 5, 1⟩]

/-- The block stands as one child of the tree, and its blank, its bracket and its line's end in its
place. -/
theorem Tree.dissolve_ofTokens_bracketedBlock :
    ∃ tree, Tree.ofTokens { indentBlocks := true } bracketedBlock = .ok tree ∧
      Tree.ofTokens { indentBlocks := false } bracketedBlock = .ok tree.dissolve ∧
      tree.children.map Node.kindName = ["_start", "symbol", "newline", "whitespace", "comment",
        "newline", "block-tree", "symbol", "_end"] ∧
      tree.dissolve.children.map Node.kindName = ["_start", "symbol", "newline", "whitespace",
        "comment", "newline", "whitespace", "wrapped-tree", "newline", "symbol", "_end"] := by
  have hkinds : (fun tree : Tree => (tree.children.map Node.kindName,
      tree.dissolve.children.map Node.kindName)) <$>
        Tree.ofTokens { indentBlocks := true } bracketedBlock =
      .ok (["_start", "symbol", "newline", "whitespace", "comment", "newline", "block-tree",
          "symbol", "_end"],
        ["_start", "symbol", "newline", "whitespace", "comment", "newline", "whitespace",
          "wrapped-tree", "newline", "symbol", "_end"]) := by
    decide +kernel
  obtain ⟨tree, htree, hkinds⟩ := map_eq_ok_iff.mp hkinds
  obtain ⟨hblock, hplace⟩ := Prod.mk.inj hkinds
  exact ⟨tree, htree, Tree.dissolve_ofTokens htree, hblock, hplace⟩

end Nesting
