import Mathlib.Data.List.Chain
import Nesting.Proofs.Tree.Dissolve
import Nesting.Proofs.Tree.Trees

/-! # The form of a tree that was built

Every tree inside a tree that was built is framed by its two markers, has the delimiters of its
kind, and holds only what its kind may hold (`Tree.WellFormed`).

The parts of this are true of an open level already (`OpenTree.Sound`), with one exception: the
start marker of a delimited level comes with its first token only, so that `Builder.Marked` keeps
account of it.  A node is pushed on a level if it may stand there (`OpenTree.sound_push_iff`), and
a level that has its start marker is closed to a well-formed tree (`OpenTree.Sound.wellFormed`).
From this, `Builder.Sound` is kept by every small step of the builder, hence by every token
(`Builder.Step.sound`) and by every run (`Builder.sound_of_foldlM`). -/

namespace Nesting

/-! ### Kinds of trees -/

namespace TreeKind

/-- Whether a tree of one kind may be a child of a tree of another.  A root is nobody's child,
blocks stand outside all delimiters, and templates stand in strings. -/
def mayHold : (outer inner : TreeKind) → Bool
  | _, root => false
  | outer, block => outer == root || outer == block
  | outer, template => outer == string
  | _, wrapped => true
  | _, string => true

/-- The kind of the token that opens a tree. -/
def opening? : TreeKind → Option TokenKind
  | wrapped => some .bracketLeft
  | string => some .stringStart
  | template => some .templateStart
  | root | block => none

/-- The kind of the token that closes a tree. -/
def closing? : TreeKind → Option TokenKind
  | wrapped => some .bracketRight
  | string => some .stringEnd
  | template => some .templateEnd
  | root | block => none

theorem opening?_of_opens? {t : TokenKind} {k : TreeKind} (h : t.opens? = some k) :
    k.opening? = some t := by
  rcases TokenKind.opens?_eq_some_iff.mp h with ⟨rfl, rfl⟩ | ⟨rfl, rfl⟩ | ⟨rfl, rfl⟩ <;> rfl

theorem closing?_of_closes? {t : TokenKind} {k : TreeKind} (h : t.closes? = some k) :
    k.closing? = some t := by
  rcases TokenKind.closes?_eq_some_iff.mp h with ⟨rfl, rfl⟩ | ⟨rfl, rfl⟩ | ⟨rfl, rfl⟩ <;> rfl

theorem mayHold_block {k : TreeKind} (h : k.isDelimited = false) : k.mayHold .block := by
  cases k <;> first | rfl | cases h

end TreeKind

/-! ### Well-formed trees -/

/-- What the children of a tree of a kind have to be, markers apart. -/
structure TreeKind.Admits (kind : TreeKind) (children : List Node) : Prop where
  /-- A tree stands only where its kind may stand. -/
  inside : ∀ n ∈ children, ∀ x ∈ n.tree?, kind.mayHold x.kind
  /-- Of two neighbours, one is not a string value. -/
  values : children.IsChain fun n m =>
    ¬ (n.tokenKind? = some .stringValue ∧ m.tokenKind? = some .stringValue)
  /-- No string value stands directly in a template. -/
  template : kind = .template → ∀ n ∈ children, n.tokenKind? ≠ some .stringValue

/-- A tree whose parts fit together. -/
structure Tree.WellFormed (t : Tree) : Prop where
  /-- The first child is a start marker, the last one is an end marker, and no other child is a
  marker. -/
  markers : ∃ first inner last, t.children = .token first :: inner ++ [.token last] ∧
    first.kind = .levelStart ∧ last.kind = .levelEnd ∧ ∀ n ∈ inner, n.isMarker = false
  /-- There is an opening token if and only if the kind has one, and it is of its kind. -/
  opening : t.opening.map Token.kind = t.kind.opening?
  /-- A closing token is of the kind that closes the tree. -/
  closing : ∀ u ∈ t.closing, t.kind.closing? = some u.kind
  children : t.kind.Admits t.children

/-- What may stand behind some children. -/
theorem TreeKind.admits_concat_iff {kind : TreeKind} {ns : List Node} {n : Node} :
    kind.Admits (ns ++ [n]) ↔ kind.Admits ns ∧ (∀ x ∈ n.tree?, kind.mayHold x.kind) ∧
      (n.tokenKind? = some .stringValue →
        kind ≠ .template ∧ ns.getLast?.bind Node.tokenKind? ≠ some .stringValue) := by
  have hlast (h : n.tokenKind? = some .stringValue) :
      (∀ m ∈ ns.getLast?, ¬ (m.tokenKind? = some .stringValue ∧
        n.tokenKind? = some .stringValue)) ↔
      ns.getLast?.bind Node.tokenKind? ≠ some .stringValue := by
    cases ns.getLast? <;> simp [h]
  have hmem : n ∈ ns ++ [n] := List.mem_append_right ns (List.mem_singleton_self n)
  constructor
  · intro h
    obtain ⟨hvalues, -, hnext⟩ := List.isChain_append.mp h.values
    have hearlier : kind.Admits ns := {
      inside := (List.forall_mem_append.mp h.inside).1
      values := hvalues
      template := fun hk => (List.forall_mem_append.mp (h.template hk)).1 }
    refine ⟨hearlier, h.inside n hmem, fun hn => ⟨fun hk => h.template hk n hmem hn, ?_⟩⟩
    apply (hlast hn).mp
    intro m hm
    exact hnext m hm n rfl
  · rintro ⟨h, htree, hvalue⟩
    refine { inside := ?_, values := ?_, template := ?_ }
    · exact List.forall_mem_append.mpr ⟨h.inside, List.forall_mem_singleton.mpr htree⟩
    · refine List.isChain_append.mpr ⟨h.values, List.isChain_singleton n, ?_⟩
      intro m hm n' hn'
      obtain rfl : n = n' := Option.some.inj hn'
      by_cases hn : n.tokenKind? = some .stringValue
      · exact (hlast hn).mpr (hvalue hn).2 m hm
      · exact fun hboth => hn hboth.2
    · intro hk
      have hnot : n.tokenKind? ≠ some .stringValue := fun hn => (hvalue hn).1 hk
      exact List.forall_mem_append.mpr ⟨h.template hk, List.forall_mem_singleton.mpr hnot⟩

/-! ### Open levels -/

namespace OpenTree

/-- The kind of token that the last child is. -/
def lastKind? (t : OpenTree) : Option TokenKind := t.children.toList.getLast?.bind Node.tokenKind?

@[simp] theorem lastKind?_push (t : OpenTree) (n : Node) :
    (t.push n).lastKind? = n.tokenKind? := by
  simp [lastKind?, push]

/-- An open level whose parts fit together. -/
structure Sound (t : OpenTree) : Prop where
  /-- No child but the first is a marker. -/
  markers : ∀ n ∈ t.children.toList.tail, n.isMarker = false
  opening : t.opening.map Token.kind = t.kind.opening?
  children : t.kind.Admits t.children.toList

/-- What may stand behind the children of a level. -/
theorem sound_push_iff {t : OpenTree} {n : Node} :
    (t.push n).Sound ↔ t.Sound ∧ (n.isMarker → t.children = #[]) ∧
      (∀ x ∈ n.tree?, t.kind.mayHold x.kind) ∧
      (n.tokenKind? = some .stringValue →
        t.kind ≠ .template ∧ t.lastKind? ≠ some .stringValue) := by
  have hlist : (t.push n).children.toList = t.children.toList ++ [n] := Array.toList_push
  have hmarkers : (∀ m ∈ (t.children.toList ++ [n]).tail, m.isMarker = false) ↔
      (∀ m ∈ t.children.toList.tail, m.isMarker = false) ∧ (n.isMarker → t.children = #[]) := by
    rw [← Array.toList_eq_nil_iff]
    cases t.children.toList <;> simp [or_imp, forall_and]
  constructor
  · intro h
    obtain ⟨hm, hfirst⟩ := hmarkers.mp (hlist ▸ h.markers)
    obtain ⟨hchildren, hrest⟩ := TreeKind.admits_concat_iff.mp (hlist ▸ h.children)
    exact ⟨⟨hm, h.opening, hchildren⟩, hfirst, hrest⟩
  · rintro ⟨h, hfirst, hrest⟩
    exact ⟨hlist ▸ hmarkers.mpr ⟨h.markers, hfirst⟩, h.opening,
      hlist ▸ TreeKind.admits_concat_iff.mpr ⟨h.children, hrest⟩⟩

theorem sound_push_token_iff {t : OpenTree} {u : Token} :
    (t.push (.token u)).Sound ↔ t.Sound ∧ (u.kind.isMarker → t.children = #[]) ∧
      (u.kind = .stringValue → t.kind ≠ .template ∧ t.lastKind? ≠ some .stringValue) := by
  have htree : ∀ x ∈ (Node.token u).tree?, t.kind.mayHold x.kind := by
    simp [Node.tree?]
  have hkind : (Node.token u).tokenKind? = some .stringValue ↔ u.kind = .stringValue := by
    simp [Node.tokenKind?, Node.token?]
  rw [sound_push_iff, hkind]
  exact and_congr_right fun _ => and_congr_right fun _ => and_iff_right htree

theorem Sound.push_tree {t : OpenTree} (h : t.Sound) {x : Tree} (hx : t.kind.mayHold x.kind) :
    (t.push x.toNode).Sound := by
  have hkind : x.toNode.tokenKind? = none := rfl
  refine sound_push_iff.mpr ⟨h, fun hm => ?_, ?_, fun hvalue => ?_⟩
  · rw [Node.isMarker, hkind] at hm
    cases hm
  · intro y hy
    rw [Node.tree?_toNode] at hy
    obtain rfl := Option.some.inj hy
    exact hx
  · rw [hkind] at hvalue
    cases hvalue

/-- Blanks may stand on any level. -/
theorem Sound.extend {t : OpenTree} (h : t.Sound) {ts : List Token}
    (hts : ∀ u ∈ ts, u.kind = .whitespace) : (t.extend (ts.map .token)).Sound := by
  induction ts generalizing t with
  | nil => rwa [List.map_nil, extend_nil]
  | cons u ts ih =>
      obtain ⟨hu, hts⟩ := List.forall_mem_cons.mp hts
      have hpush : (t.push (.token u)).Sound :=
        sound_push_token_iff.mpr ⟨h, by simp [hu, TokenKind.isMarker], by simp [hu]⟩
      have h := ih hpush hts
      rwa [push_eq_extend, extend_extend] at h

theorem sound_empty {kind : TreeKind} {opening : Option Token}
    (h : opening.map Token.kind = kind.opening?) :
    Sound { kind, opening, children := #[] } where
  markers := nofun
  opening := h
  children := ⟨nofun, List.isChain_nil, fun _ => nofun⟩

theorem Sound.push_marker {t : OpenTree} (h : t.Sound) (hempty : t.children = #[])
    {marker : Token} (hmarker : marker.kind = .levelStart) :
    (t.push (.token marker)).Sound :=
  sound_push_token_iff.mpr ⟨h, fun _ => hempty, by simp [hmarker]⟩

theorem Sound.ne_template {t : OpenTree} (h : t.Sound) (hlast : t.lastKind? = some .stringValue) :
    t.kind ≠ .template := by
  intro hk
  obtain ⟨n, hn, hvalue⟩ := Option.bind_eq_some_iff.mp hlast
  exact h.children.template hk n (List.mem_of_getLast? hn) hvalue

/-- A level that has its start marker is closed to a well-formed tree. -/
theorem Sound.wellFormed {t : OpenTree} (h : t.Sound) (hstart : t.HasStart)
    {closing : Option Token} (hclosing : ∀ u ∈ closing, t.kind.closing? = some u.kind)
    {marker : Token} (hmarker : marker.kind = .levelEnd) :
    Tree.WellFormed { kind := t.kind, opening := t.opening, closing,
                      children := (t.push (.token marker)).children.toList } where
  markers := by
    obtain ⟨first, inner, hchildren, hfirst⟩ := hstart
    refine ⟨first, inner, marker, ?_, hfirst, hmarker, ?_⟩
    · show (t.push (.token marker)).children.toList = _
      rw [OpenTree.push, Array.toList_push, hchildren]
    · have hinner := h.markers
      rwa [hchildren] at hinner
  opening := h.opening
  closing := hclosing
  children := by
    have hlist : (t.push (.token marker)).children.toList = t.children.toList ++ [.token marker] :=
      Array.toList_push
    show t.kind.Admits (t.push (.token marker)).children.toList
    rw [hlist]
    refine TreeKind.admits_concat_iff.mpr ⟨h.children, by simp [Node.tree?], ?_⟩
    simp [Node.tokenKind?, Node.token?, hmarker]

end OpenTree

namespace Builder

/-! ### Levels inside one another -/

/-- Every open level may hold the one inside it. -/
def Nested (b : Builder) : Prop := b.kinds.IsChain fun inner outer => outer.mayHold inner

theorem Nested.mayHold {b : Builder} (h : b.Nested) {parent : OpenTree} {rest : List OpenTree}
    (houter : b.outer = parent :: rest) : parent.kind.mayHold b.current.kind := by
  unfold Nested kinds at h
  rw [houter] at h
  exact (List.isChain_cons_cons.mp h).1

theorem Nested.closed {b : Builder} (h : b.Nested) {parent : OpenTree} {rest : List OpenTree}
    (houter : b.outer = parent :: rest) (closing : Option Token) (marker : Token) :
    (b.closed closing marker parent rest).Nested := by
  unfold Nested at h
  rw [kinds_closed houter closing marker] at h
  exact (List.isChain_cons.mp h).2

theorem lastKind?_closed_ne (b : Builder) (closing : Option Token) (marker : Token)
    (parent : OpenTree) (rest : List OpenTree) :
    (b.closed closing marker parent rest).current.lastKind? ≠ some .stringValue := by
  have hnone : (b.closed closing marker parent rest).current.lastKind? = none :=
    OpenTree.lastKind?_push parent _
  simp [hnone]

/-- The open levels of a builder and the trees that are closed are as they should be. -/
structure Sound (b : Builder) : Prop where
  current : b.current.Sound
  outer : ∀ t ∈ b.outer, t.Sound
  nested : b.Nested
  trees : ∀ x ∈ b.trees, x.WellFormed
  /-- Only blanks wait. -/
  waiting : ∀ t ∈ b.waiting, t.kind = .whitespace
  /-- A string value that is the last child is the latest token. -/
  value : b.current.lastKind? = some .stringValue → b.previous.kind = .stringValue

/-! ### Small steps -/

theorem Sound.closed {b : Builder} (h : b.Sound) (hstart : b.current.HasStart)
    {parent : OpenTree} {rest : List OpenTree} (houter : b.outer = parent :: rest)
    {closing : Option Token} (hclosing : ∀ u ∈ closing, b.current.kind.closing? = some u.kind)
    {marker : Token} (hmarker : marker.kind = .levelEnd) :
    (b.closed closing marker parent rest).Sound where
  current := by
    have hparent : parent.Sound := h.outer parent (houter ▸ List.mem_cons_self)
    exact hparent.push_tree (x := ⟨b.current.kind, b.current.opening, closing, _⟩)
      (h.nested.mayHold houter)
  outer t ht := h.outer t (houter ▸ List.mem_cons_of_mem parent ht)
  nested := h.nested.closed houter closing marker
  trees x hx := by
    rcases (mem_trees_closed houter closing marker).mp hx with rfl | hx
    · exact h.current.wellFormed hstart hclosing hmarker
    · exact h.trees x hx
  waiting := h.waiting
  value hlast := absurd hlast (lastKind?_closed_ne b closing marker parent rest)

/-- A level without children gets its start marker. -/
theorem Sound.marks {b : Builder} (h : b.Sound) {marker : Token}
    (hmarker : marker.kind = .levelStart) :
    (if b.current.children.isEmpty then b.pushToken marker else b).Sound := by
  split
  · next hempty =>
    have hvalue : marker.kind ≠ .stringValue := by simp [hmarker]
    refine ⟨?_, h.outer, h.nested, ?_, h.waiting, ?_⟩
    · exact h.current.push_marker (Array.isEmpty_iff.mp hempty) hmarker
    · rw [trees_pushToken]
      exact h.trees
    · intro hlast
      have hlast : (b.current.push (.token marker)).lastKind? = some .stringValue := hlast
      rw [OpenTree.lastKind?_push] at hlast
      exact absurd (Option.some.inj hlast) hvalue
  · exact h

theorem Sound.begin {b : Builder} (h : b.Sound) (t : Token) : (b.begin t).Sound := h.marks rfl

/-- Blanks that become children hide no string value. -/
theorem lastKind?_extend {t : OpenTree} {ts : List Token} (hts : ∀ u ∈ ts, u.kind = .whitespace)
    (h : (t.extend (ts.map .token)).lastKind? = some .stringValue) :
    t.lastKind? = some .stringValue := by
  rcases List.eq_nil_or_concat' ts with rfl | ⟨us, u, rfl⟩
  · rwa [List.map_nil, OpenTree.extend_nil] at h
  · have hu : u.kind = .whitespace :=
      hts u (List.mem_append_right us (List.mem_singleton_self u))
    rw [List.map_append, ← OpenTree.extend_extend, List.map_singleton, ← OpenTree.push_eq_extend,
      OpenTree.lastKind?_push] at h
    have h : u.kind = .stringValue := Option.some.inj h
    rw [hu] at h
    cases h

theorem Sound.flush {b : Builder} (h : b.Sound) : b.flush.Sound where
  current := current_flush b ▸ h.current.extend h.waiting
  outer := h.outer
  nested := h.nested
  trees := trees_flush b ▸ h.trees
  waiting := nofun
  value hlast := h.value (lastKind?_extend h.waiting (current_flush b ▸ hlast))

theorem Sound.openDelimited {b : Builder} (h : b.Sound) {t : Token} {k : TreeKind}
    (hopens : t.kind.opens? = some k) (hk : k = .template → b.current.kind = .string) :
    (b.openDelimited k t).Sound where
  current := OpenTree.sound_empty (TreeKind.opening?_of_opens? hopens).symm
  outer := List.forall_mem_cons.mpr ⟨h.current, h.outer⟩
  nested := by
    refine List.isChain_cons_cons.mpr ⟨?_, h.nested⟩
    rcases TokenKind.opens?_eq_some_iff.mp hopens with ⟨_, rfl⟩ | ⟨_, rfl⟩ | ⟨_, rfl⟩
    · rfl
    · rfl
    · rw [hk rfl]
      rfl
  trees := trees_openDelimited b k t ▸ h.trees
  waiting := h.waiting
  value := nofun

theorem Sound.openBlock {b : Builder} (h : b.Sound) (hk : b.current.kind.isDelimited = false)
    (t : Token) (indent : String) : (b.openBlock t indent).Sound := by
  have hempty : OpenTree.Sound { kind := .block, opening := none, children := #[] } :=
    OpenTree.sound_empty rfl
  have hmarked : OpenTree.Sound { kind := .block, opening := none,
                                  children := #[.token (t.markerBefore .levelStart)] } :=
    hempty.push_marker rfl rfl
  have hlevel : (b.openBlock t indent).current =
      OpenTree.extend { kind := .block, opening := none,
                        children := #[.token (t.markerBefore .levelStart)] }
        (b.waiting.map .token) := rfl
  refine ⟨hlevel ▸ hmarked.extend h.waiting, List.forall_mem_cons.mpr ⟨h.current, h.outer⟩,
    List.isChain_cons_cons.mpr ⟨TreeKind.mayHold_block hk, h.nested⟩, ?_, nofun, fun hlast => ?_⟩
  · rw [trees_openBlock]
    exact h.trees
  · rw [hlevel] at hlast
    have hmarker := lastKind?_extend h.waiting hlast
    cases hmarker

/-- A string value is added to a string value. -/
theorem Sound.coalesce {b : Builder} (h : b.Sound) {children : Array Node} {last : Token}
    (hchildren : b.current.children = children.push (.token last))
    (hlast : last.kind = .stringValue) (t : Token) : (b.coalesce t).Sound := by
  have hcurrent : b.current = OpenTree.push { b.current with children } (.token last) := by
    rw [OpenTree.push, ← hchildren]
  have hsound := h.current
  rw [hcurrent] at hsound
  obtain ⟨hbase, hmarker, hvalue⟩ := OpenTree.sound_push_token_iff.mp hsound
  -- The merged token is of the kind of the one whose place it takes.
  have hmerged : (OpenTree.push { b.current with children } (.token (last.merge t))).Sound :=
    OpenTree.sound_push_token_iff.mpr ⟨hbase, hmarker, hvalue⟩
  have htrees := h.trees
  rw [← trees_coalesce b t] at htrees
  rw [coalesce_of_back hchildren hlast] at htrees ⊢
  exact ⟨hmerged, h.outer, h.nested, htrees, h.waiting, fun _ => hlast⟩

/-! ### Tokens -/

theorem Placed.sound {b b' : Builder} {t : Token} (h : Placed t b b') (hb : b.Sound)
    (hbegun : b.Begun) (hmarker : t.kind.isMarker = false)
    (hvalue : t.kind = .stringValue → b.current.lastKind? ≠ some .stringValue) :
    Sound { b' with previous := t } := by
  induction h with
  | opens hopens hk =>
      have hsound := hb.openDelimited hopens hk
      exact ⟨hsound.current, hsound.outer, hsound.nested, hsound.trees, hsound.waiting, nofun⟩
  | @closes b parent rest hcloses houter =>
      have hclosing : ∀ u ∈ some t, b.current.kind.closing? = some u.kind := by
        rintro _ ⟨rfl⟩
        exact TreeKind.closing?_of_closes? hcloses
      have hmark : (t.markerBefore .levelEnd).kind = .levelEnd := rfl
      have hsound := hb.closed hbegun.current houter hclosing hmark
      exact ⟨hsound.current, hsound.outer, hsound.nested, hsound.trees, hsound.waiting,
        fun hlast => absurd hlast (lastKind?_closed_ne b (some t) _ parent rest)⟩
  | @child b _ _ hleaves =>
      refine ⟨?_, hb.outer, hb.nested, ?_, hb.waiting, ?_⟩
      · refine OpenTree.sound_push_token_iff.mpr ⟨hb.current, by simp [hmarker], fun ht => ?_⟩
        exact ⟨fun hk => hleaves ⟨hk, by rw [ht]; rfl⟩, hvalue ht⟩
      · have htrees := hb.trees
        rwa [← trees_pushToken b t] at htrees
      · intro hlast
        have hlast : (b.current.push (.token t)).lastKind? = some .stringValue := hlast
        rw [OpenTree.lastKind?_push] at hlast
        exact Option.some.inj hlast
  | @escapes b b' parent rest hk _ houter _ ih =>
      have hclosing : ∀ u ∈ some (t.markerBefore .templateEnd),
          b.current.kind.closing? = some u.kind := by
        rintro _ ⟨rfl⟩
        rw [hk]
        rfl
      have hmark : (t.markerBefore .levelEnd).kind = .levelEnd := rfl
      have hsound := hb.closed hbegun.current houter hclosing hmark
      have hclosed := hbegun.closed houter (some (t.markerBefore .templateEnd))
        (t.markerBefore .levelEnd)
      exact ih ⟨hsound.current, hsound.outer, hsound.nested, hsound.trees, hsound.waiting,
        hsound.value⟩ ⟨hclosed.current, hclosed.outer⟩
        fun _ => lastKind?_closed_ne b (some (t.markerBefore .templateEnd)) _ parent rest

theorem Unblocked.sound {b b' : Builder} {t : Token} (h : Unblocked t b b') (hb : b.Sound)
    (hbegun : b.Begun) : b'.Sound := by
  induction h with
  | done => exact ⟨hb.current, hb.outer, hb.nested, hb.trees, hb.waiting, hb.value⟩
  | close _ houter _ ih =>
      exact ih (hb.closed hbegun.current houter (by simp) rfl) (hbegun.closed houter _ _)

theorem Laid.sound {b b' : Builder} {t : Token} (h : Laid t b b') (hb : b.Sound)
    (hbegun : b.Begun) : b'.Sound := by
  have unblocked {b₁ : Builder} (hun : Unblocked t { b with indent := "" } b₁) : b₁.Sound :=
    hun.sound ⟨hb.current, hb.outer, hb.nested, hb.trees, hb.waiting, hb.value⟩
      ⟨hbegun.current, hbegun.outer⟩
  cases h with
  | inside _ => exact hb
  | newline _ _ _ =>
      have h := hb.flush
      exact ⟨h.current, h.outer, h.nested, h.trees, h.waiting, h.value⟩
  | comment _ _ _ _ =>
      have h := hb.flush
      exact ⟨h.current, h.outer, h.nested, h.trees, h.waiting, h.value⟩
  | stays _ _ _ _ hun _ =>
      have h := (unblocked hun).flush
      exact ⟨h.current, h.outer, h.nested, h.trees, h.waiting, h.value⟩
  | @opens b₁ _ hn _ _ hun hb₁ _ _ =>
      have hn₁ : b₁.nesting = 0 := by
        obtain ⟨_, _, _, rfl⟩ := hun.frame
        exact hn
      have hk : b₁.current.kind.isDelimited = false :=
        Bool.eq_false_iff.mpr fun hk => hb₁.isDelimited_iff.mp hk hn₁
      have h := (unblocked hun).openBlock hk t b.indent
      exact ⟨h.current, h.outer, h.nested, h.trees, h.waiting, h.value⟩

/-- Every token keeps the levels and the trees in order. -/
theorem Step.sound {b b' : Builder} {t : Token} {ts : List Token} (h : Step t b b')
    (hb : b.Sound) (haccount : b.Accounted ts) (hm : b.Marked)
    (hmarker : t.kind.isMarker = false) : b'.Sound := by
  have hb₀ := hb.begin t
  have haccount₀ := haccount.begin t
  have hbegun₀ := hm.begin t
  cases h with
  | @waits b₀ h₀ hi _ hline ht =>
      rw [← h₀] at hb₀ haccount₀
      refine ⟨hb₀.current, hb₀.outer, hb₀.nested, hb₀.trees,
        List.forall_mem_append.mpr ⟨hb₀.waiting, List.forall_mem_singleton.mpr ht⟩, fun hlast => ?_⟩
      -- A blank waits at the start of a line only, where no string value is the latest token.
      obtain ⟨hnot, -⟩ := haccount₀.value (hb₀.value hlast)
      simp [hnot hi] at hline
  | merges hlaid ht _ hprev =>
      obtain rfl := haccount₀.eq_of_laid hlaid ht hprev
      obtain ⟨-, -, children, _, last, hchildren, hlast, -⟩ := haccount₀.value hprev
      exact hb₀.coalesce hchildren hlast t
  | places hlaid _ hnew hplaced =>
      have hb₁ := hlaid.sound hb₀ hbegun₀
      refine hplaced.sound hb₁ (hlaid.begun hbegun₀) hmarker fun ht hlast => ?_
      exact hnew ⟨ht, hb₁.current.ne_template hlast, hb₁.value hlast⟩

theorem sound_start (layout : Layout) : (start layout).Sound where
  current := by
    have hempty : OpenTree.Sound { kind := .root, opening := none, children := #[] } :=
      OpenTree.sound_empty rfl
    exact hempty.push_marker rfl rfl
  outer := nofun
  nested := List.isChain_singleton _
  trees x hx := absurd (show x ∈ [] from hx) List.not_mem_nil
  waiting := nofun
  value h := by cases h

/-- Every run keeps the levels and the trees in order. -/
theorem sound_of_foldlM {layout : Layout} {tokens : List Token} {b : Builder}
    (hmarkers : ∀ t ∈ tokens, t.kind.isMarker = false)
    (h : tokens.foldlM push (start layout) = .ok b) : b.Sound := by
  have hrun : b.Accounted tokens ∧ b.Marked ∧ b.Sound := by
    refine foldlM_induction (P := fun ts b => b.Accounted ts ∧ b.Marked ∧ b.Sound)
      ⟨accounted_start layout, marked_start layout, sound_start layout⟩ ?_ h
    rintro ts t ht b b' ⟨haccount, hm, hb⟩ hpush
    have hstep := step_of_push haccount.shaped hpush
    exact ⟨hstep.accounted haccount, hstep.marked hm,
      hstep.sound hb haccount hm (hmarkers t ht)⟩
  exact hrun.2.2

end Builder

end Nesting
