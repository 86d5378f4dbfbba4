import Nesting.Proofs.Tree.Levels

/-! # The trees inside a tree

`Node.trees` lists the trees inside a node.  While a tree is built, the trees that are closed only
grow in number, and a closing token of a string makes at most one string, the one whose level was
the innermost (`Builder.Step.string_of_mem`).

What a token does to the open levels depends on their kinds and openings alone: inside delimiters
it is `Builder.placeLevels` (`Builder.Step.signature_eq`), and the open strings follow it
everywhere (`Builder.Step.openStrings_eq`). -/

namespace Nesting

/-! ### Trees in document order -/

namespace Node

mutual

/-- The trees inside a node, itself included. -/
def trees : Node → List Tree
  | .token _ => []
  | .tree kind opening closing children =>
    { kind, opening, closing, children } :: treesAll children

/-- The trees inside neighbouring nodes. -/
def treesAll : List Node → List Tree
  | [] => []
  | n :: ns => trees n ++ treesAll ns

end

@[simp] theorem treesAll_append (ns ms : List Node) :
    treesAll (ns ++ ms) = treesAll ns ++ treesAll ms := by
  induction ns with
  | nil => rfl
  | cons n ns ih => simp [treesAll, ih]

@[simp] theorem treesAll_map_token (ts : List Token) : treesAll (ts.map .token) = [] := by
  induction ts with
  | nil => rfl
  | cons t ts ih => rw [List.map_cons, treesAll, ih, trees, List.append_nil]

mutual

theorem trees_subset_of_mem {t : Tree} : ∀ {n : Node}, t ∈ n.trees → t.toNode.trees ⊆ n.trees
  | .token _, h => nomatch h
  | .tree _ _ _ _, h => by
      rcases List.mem_cons.mp h with rfl | h
      · exact List.Subset.refl _
      · exact List.subset_cons_of_subset _ (trees_subset_of_mem_treesAll h)

theorem trees_subset_of_mem_treesAll {t : Tree} : ∀ {ns : List Node}, t ∈ treesAll ns →
    t.toNode.trees ⊆ treesAll ns
  | [], h => nomatch h
  | _ :: _, h => by
      rcases List.mem_append.mp h with h | h
      · exact List.subset_append_of_subset_left _ (trees_subset_of_mem h)
      · exact List.subset_append_of_subset_right _ (trees_subset_of_mem_treesAll h)

end

end Node

theorem Tree.trees_toNode (t : Tree) : t.toNode.trees = t :: Node.treesAll t.children := rfl

/-- The trees that are closed inside an open level. -/
def OpenTree.trees (t : OpenTree) : List Tree := Node.treesAll t.children.toList

@[simp] theorem OpenTree.trees_push (t : OpenTree) (n : Node) :
    (t.push n).trees = t.trees ++ n.trees := by
  simp [trees, push, Node.treesAll]

namespace Builder

/-- The trees that are closed. -/
def trees (b : Builder) : List Tree := (b.current :: b.outer).flatMap OpenTree.trees

/-! ### Kinds and openings -/

/-- The kinds and the openings of the open levels, the innermost first. -/
def signature (b : Builder) : List (TreeKind × Option Token) :=
  (b.current :: b.outer).map fun t => (t.kind, t.opening)

/-- The openings of the strings among some levels. -/
def openStrings (levels : List (TreeKind × Option Token)) : List (Option Token) :=
  (levels.filter fun level => level.1 = .string).map (·.2)

@[simp] theorem openStrings_string (opening : Option Token)
    (levels : List (TreeKind × Option Token)) :
    openStrings ((.string, opening) :: levels) = opening :: openStrings levels := rfl

theorem openStrings_cons_of_ne {k : TreeKind} (h : k ≠ .string) (opening : Option Token)
    (levels : List (TreeKind × Option Token)) :
    openStrings ((k, opening) :: levels) = openStrings levels := by
  simp [openStrings, h]

/-- The levels after a template was left that a token cannot be inside. -/
def settleLevels (t : Token) :
    List (TreeKind × Option Token) → List (TreeKind × Option Token)
  | (.template, opening) :: outer =>
    if t.kind.leavesTemplate then outer else (.template, opening) :: outer
  | levels => levels

/-- The levels after a token inside delimiters. -/
def placeLevels (t : Token) (levels : List (TreeKind × Option Token)) :
    List (TreeKind × Option Token) :=
  match t.kind, settleLevels t levels with
  | .bracketLeft, levels => (.wrapped, some t) :: levels
  | .stringStart, levels => (.string, some t) :: levels
  | .templateStart, (.string, opening) :: outer =>
    (.template, some t) :: (.string, opening) :: outer
  | .bracketRight, (.wrapped, _) :: outer => outer
  | .stringEnd, (.string, _) :: outer => outer
  | .templateEnd, (.template, _) :: outer => outer
  | _, levels => levels

theorem settleLevels_of_ne {t : Token} (h : t.kind.leavesTemplate = false)
    (levels : List (TreeKind × Option Token)) : settleLevels t levels = levels := by
  unfold settleLevels
  split
  · rw [if_neg (by simp [h])]
  · rfl

theorem placeLevels_of_plain {t : Token} (hopens : t.kind.opens? = none)
    (hcloses : t.kind.closes? = none) (hleaves : t.kind.leavesTemplate = false)
    (levels : List (TreeKind × Option Token)) : placeLevels t levels = levels := by
  rw [placeLevels, settleLevels_of_ne hleaves]
  cases hk : t.kind <;> simp_all [TokenKind.opens?, TokenKind.closes?]

theorem signature_closed {b : Builder} {parent : OpenTree} {rest : List OpenTree}
    (h : b.outer = parent :: rest) (closing : Option Token) (marker : Token) :
    b.signature = (b.current.kind, b.current.opening) ::
      (b.closed closing marker parent rest).signature := by
  rw [signature, h]
  rfl

theorem Placed.signature_eq {b b' : Builder} {t : Token} (h : Placed t b b') (hb : b.Shaped) :
    b'.signature = placeLevels t b.signature := by
  induction h with
  | @opens b k hopens ht =>
      show (k, some t) :: b.signature = _
      rcases TokenKind.opens?_eq_some_iff.mp hopens with ⟨hk, rfl⟩ | ⟨hk, rfl⟩ | ⟨hk, rfl⟩
      · rw [placeLevels, settleLevels_of_ne (by rw [hk]; rfl), hk]
      · rw [placeLevels, settleLevels_of_ne (by rw [hk]; rfl), hk]
      · simp [placeLevels, settleLevels, signature, hk, ht rfl]
  | @closes b parent rest hcloses houter =>
      have hsig := signature_closed houter (some t) (t.markerBefore .levelEnd)
      show (b.closed (some t) (t.markerBefore .levelEnd) parent rest).signature = _
      rcases TokenKind.closes?_eq_some_iff.mp hcloses with ⟨hk, hc⟩ | ⟨hk, hc⟩ | ⟨hk, hc⟩
      · simp [placeLevels, settleLevels, hsig, hk, hc]
      · simp [placeLevels, settleLevels, hsig, hk, hc]
      · simp [placeLevels, settleLevels, hsig, hk, hc, TokenKind.leavesTemplate]
  | @child b hopens hcloses hleaves =>
      show b.signature = _
      have hsettle : settleLevels t b.signature = b.signature := by
        unfold settleLevels
        split
        · next opening outer hsig =>
          have hk : b.current.kind = .template := congrArg Prod.fst (List.cons.inj hsig).1
          rw [if_neg fun h => hleaves ⟨hk, h⟩]
          exact hsig.symm
        · rfl
      have head {k : TreeKind} {opening : Option Token} {outer : List (TreeKind × Option Token)}
          (h : b.signature = (k, opening) :: outer) : b.current.kind = k :=
        congrArg Prod.fst (List.cons.inj h).1
      rw [placeLevels, hsettle]
      split
      · next ht => exact absurd (hopens _ (by rw [ht]; rfl)).1 (by decide)
      · next ht => exact absurd (hopens _ (by rw [ht]; rfl)).1 (by decide)
      · next ht hsig => exact absurd (head hsig) (hopens _ (by rw [ht]; rfl)).2
      · next ht hsig => exact absurd (by rw [ht, head hsig]; rfl) hcloses
      · next ht hsig => exact absurd (by rw [ht, head hsig]; rfl) hcloses
      · next ht hsig => exact absurd (by rw [ht, head hsig]; rfl) hcloses
      · rfl
  | @escapes b b' parent rest hk hleaves houter hplaced ih =>
      have hparent := hb.kind_of_template hk houter
      have hsig := signature_closed houter (some (t.markerBefore .templateEnd))
        (t.markerBefore .levelEnd)
      rw [ih (hb.closedDelimited houter (by rw [hk]; rfl) _ _)]
      show placeLevels t (b.closed _ _ parent rest).signature = _
      rw [hsig, hk]
      unfold placeLevels
      generalize hclosed : (b.closed (some (t.markerBefore .templateEnd))
        (t.markerBefore .levelEnd) parent rest).signature = closed
      have hsettle : settleLevels t closed = closed := by
        have hcons : closed = (parent.kind, parent.opening) :: closed.tail := hclosed ▸ rfl
        rw [hcons, hparent]
        rfl
      rw [hsettle, settleLevels, if_pos hleaves]

/-! ### Open strings -/

theorem openStrings_settleLevels (t : Token) (levels : List (TreeKind × Option Token)) :
    openStrings (settleLevels t levels) = openStrings levels := by
  unfold settleLevels
  split
  · split
    · rw [openStrings_cons_of_ne (by decide)]
    · rfl
  · rfl

theorem openStrings_placeLevels_start {t : Token} (ht : t.kind = .stringStart)
    (levels : List (TreeKind × Option Token)) :
    openStrings (placeLevels t levels) = some t :: openStrings levels := by
  rw [← openStrings_settleLevels t levels, placeLevels, ht, openStrings_string]

/-- The end of a string closes the innermost string, or none. -/
theorem openStrings_placeLevels_end {t : Token} (ht : t.kind = .stringEnd)
    (levels : List (TreeKind × Option Token)) :
    openStrings (placeLevels t levels) = openStrings levels ∨
      ∃ opening, openStrings levels = opening :: openStrings (placeLevels t levels) := by
  rw [← openStrings_settleLevels t levels, placeLevels, ht]
  generalize settleLevels t levels = settled
  match settled with
  | [] => exact .inl rfl
  | (.string, opening) :: outer => exact .inr ⟨opening, rfl⟩
  | (.root, _) :: _ => exact .inl rfl
  | (.wrapped, _) :: _ => exact .inl rfl
  | (.template, _) :: _ => exact .inl rfl
  | (.block, _) :: _ => exact .inl rfl

theorem openStrings_placeLevels_of_ne {t : Token} (hstart : t.kind ≠ .stringStart)
    (hend : t.kind ≠ .stringEnd) (levels : List (TreeKind × Option Token)) :
    openStrings (placeLevels t levels) = openStrings levels := by
  rw [← openStrings_settleLevels t levels, placeLevels]
  split
  · rw [openStrings_cons_of_ne (by decide)]
  · next ht => exact absurd ht hstart
  · next hsettled => rw [hsettled, openStrings_cons_of_ne (by decide)]
  · next hsettled => rw [hsettled, openStrings_cons_of_ne (by decide)]
  · next ht _ => exact absurd ht hend
  · next hsettled => rw [hsettled, openStrings_cons_of_ne (by decide)]
  · rfl

/-! ### Closed trees -/

theorem mem_trees_closed {b : Builder} {parent : OpenTree} {rest : List OpenTree}
    (h : b.outer = parent :: rest) (closing : Option Token) (marker : Token) {x : Tree} :
    x ∈ (b.closed closing marker parent rest).trees ↔
      x = { kind := b.current.kind, opening := b.current.opening, closing,
            children := (b.current.push (.token marker)).children.toList } ∨ x ∈ b.trees := by
  have hcurrent : Node.treesAll (b.current.push (.token marker)).children.toList =
      b.current.trees := by
    show (b.current.push (.token marker)).trees = _
    rw [OpenTree.trees_push, Node.trees, List.append_nil]
  simp only [trees, closed, h, List.flatMap_cons, OpenTree.trees_push, OpenTree.close, Node.trees,
    hcurrent, List.mem_append, List.mem_cons]
  tauto

theorem trees_pushToken (b : Builder) (t : Token) : (b.pushToken t).trees = b.trees := by
  simp [trees, pushToken, pushNode, Node.trees]

theorem trees_flush (b : Builder) : b.flush.trees = b.trees := by
  simp [trees, flush, OpenTree.trees]

theorem trees_openDelimited (b : Builder) (k : TreeKind) (t : Token) :
    (b.openDelimited k t).trees = b.trees := by
  simp [trees, openDelimited, openLevel, OpenTree.trees, Node.treesAll]

theorem trees_openBlock (b : Builder) (t : Token) (indent : String) :
    (b.openBlock t indent).trees = b.trees := by
  simp [trees, openBlock, OpenTree.trees, Node.treesAll, Node.trees]

theorem trees_begin (b : Builder) (t : Token) : (b.begin t).trees = b.trees := by
  unfold begin
  split
  · exact trees_pushToken b _
  · rfl

theorem trees_coalesce (b : Builder) (t : Token) : (b.coalesce t).trees = b.trees := by
  unfold coalesce
  split
  · next last hback =>
    split
    · obtain ⟨children, hchildren⟩ := Array.back?_eq_some_iff.mp hback
      simp [trees, OpenTree.trees, OpenTree.push, hchildren, Node.treesAll, Node.trees]
    · exact trees_pushToken b t
  · exact trees_pushToken b t

/-! ### Steps -/

theorem Placed.trees_subset {b b' : Builder} {t : Token} (h : Placed t b b') :
    b.trees ⊆ b'.trees := by
  induction h with
  | opens _ _ => rw [trees_openDelimited]; exact List.Subset.refl _
  | closes _ houter => exact fun x hx => (mem_trees_closed houter _ _).mpr (.inr hx)
  | child _ _ _ => rw [trees_pushToken]; exact List.Subset.refl _
  | escapes _ _ houter _ ih => exact fun x hx => ih ((mem_trees_closed houter _ _).mpr (.inr hx))

/-- The only string that a token closes is the innermost one. -/
theorem Placed.string_of_mem {b b' : Builder} {t : Token} (h : Placed t b b') (hb : b.Shaped)
    {x : Tree} (hx : x ∈ b'.trees) (hk : x.kind = .string) :
    x ∈ b.trees ∨ (t.kind = .stringEnd ∧ x.closing = some t ∧
      openStrings b.signature = x.opening :: openStrings b'.signature) := by
  induction h with
  | opens _ _ => exact .inl (trees_openDelimited _ _ _ ▸ hx)
  | @closes b parent rest hcloses houter =>
      rcases (mem_trees_closed houter _ _).mp hx with rfl | hx
      · refine .inr ⟨?_, rfl, ?_⟩
        · rcases TokenKind.closes?_eq_some_iff.mp hcloses with ⟨_, h⟩ | ⟨ht, _⟩ | ⟨_, h⟩
          · exact absurd (hk.symm.trans h) (by decide)
          · exact ht
          · exact absurd (hk.symm.trans h) (by decide)
        · have hk : b.current.kind = .string := hk
          rw [signature_closed houter (some t) (t.markerBefore .levelEnd), hk]
          rfl
      · exact .inl hx
  | child _ _ _ => exact .inl (trees_pushToken _ _ ▸ hx)
  | @escapes b b' parent rest htemplate _ houter _ ih =>
      have hsig := signature_closed houter (some (t.markerBefore .templateEnd))
        (t.markerBefore .levelEnd)
      rcases ih (hb.closedDelimited houter (by rw [htemplate]; rfl) _ _) hx with hx | hx
      · rcases (mem_trees_closed houter _ _).mp hx with rfl | hx
        · exact absurd (htemplate.symm.trans hk) (by decide)
        · exact .inl hx
      · rw [hsig, htemplate, openStrings_cons_of_ne (by decide)]
        exact .inr hx

/-- The end of a string closes the string whose level is the innermost. -/
theorem Placed.exists_string {b b' : Builder} {t : Token} (h : Placed t b b')
    (ht : t.kind = .stringEnd) {opening : Option Token} {outer : List (TreeKind × Option Token)}
    (hsig : b.signature = (.string, opening) :: outer) :
    ∃ x ∈ b'.trees, x.kind = .string ∧ x.opening = opening ∧ x.closing = some t := by
  have hk : b.current.kind = .string := congrArg Prod.fst (List.cons.inj hsig).1
  have ho : b.current.opening = opening := congrArg Prod.snd (List.cons.inj hsig).1
  cases h with
  | opens h _ => simp [ht, TokenKind.opens?] at h
  | closes _ houter => exact ⟨_, (mem_trees_closed houter _ _).mpr (.inl rfl), hk, ho, rfl⟩
  | child _ h _ => exact absurd (by rw [ht, hk]; rfl) h
  | escapes h _ _ _ => exact absurd (hk.symm.trans h) (by decide)

theorem Unblocked.trees_subset {b b' : Builder} {t : Token} (h : Unblocked t b b') :
    b.trees ⊆ b'.trees := by
  induction h with
  | done => exact List.Subset.refl _
  | close _ houter _ ih => exact fun x hx => ih ((mem_trees_closed houter _ _).mpr (.inr hx))

theorem Unblocked.string_of_mem {b b' : Builder} {t : Token} (h : Unblocked t b b') {x : Tree}
    (hx : x ∈ b'.trees) (hk : x.kind = .string) : x ∈ b.trees := by
  induction h with
  | done => exact hx
  | close hblock houter _ ih =>
      rcases (mem_trees_closed houter _ _).mp (ih hx) with rfl | hx
      · exact absurd (hblock.symm.trans hk) (by decide)
      · exact hx

theorem Laid.trees_subset {b b' : Builder} {t : Token} (h : Laid t b b') : b.trees ⊆ b'.trees := by
  cases h with
  | inside _ => exact List.Subset.refl _
  | newline _ _ _ => exact fun x hx => (trees_flush b).symm ▸ hx
  | comment _ _ _ _ => exact fun x hx => (trees_flush b).symm ▸ hx
  | @stays b₁ _ _ _ _ hun _ => exact fun x hx => (trees_flush b₁).symm ▸ hun.trees_subset hx
  | @opens b₁ _ _ _ _ hun _ _ _ =>
      exact fun x hx => (trees_openBlock b₁ t b.indent).symm ▸ hun.trees_subset hx

theorem Laid.string_of_mem {b b' : Builder} {t : Token} (h : Laid t b b') {x : Tree}
    (hx : x ∈ b'.trees) (hk : x.kind = .string) : x ∈ b.trees := by
  cases h with
  | inside _ => exact hx
  | newline _ _ _ => exact trees_flush b ▸ hx
  | comment _ _ _ _ => exact trees_flush b ▸ hx
  | @stays b₁ _ _ _ _ hun _ => exact hun.string_of_mem (trees_flush b₁ ▸ hx) hk
  | @opens b₁ _ _ _ _ hun _ _ _ => exact hun.string_of_mem (trees_openBlock b₁ t b.indent ▸ hx) hk

theorem signature_begin (b : Builder) (t : Token) : (b.begin t).signature = b.signature := by
  obtain ⟨children, h⟩ := b.begin_eq t
  rw [h]
  rfl

theorem nesting_begin (b : Builder) (t : Token) : (b.begin t).nesting = b.nesting := by
  obtain ⟨children, h⟩ := b.begin_eq t
  rw [h]

theorem signature_coalesce (b : Builder) (t : Token) : (b.coalesce t).signature = b.signature := by
  obtain ⟨children, previous, h⟩ := b.coalesce_eq t
  rw [h]
  rfl

theorem Shape.ne_string {indents : List String} {ks : List TreeKind} (h : Shape 0 indents ks) :
    ∀ k ∈ ks, k ≠ .string := by
  generalize hn : 0 = n at h
  induction h with
  | root => simp
  | block _ _ _ ih =>
      rw [List.forall_mem_cons]
      exact ⟨by decide, ih rfl⟩
  | wrapped _ _ => cases hn
  | string _ _ => cases hn
  | template _ _ => cases hn

/-- Outside all delimiters no string is open. -/
theorem Shaped.openStrings_eq_nil {b : Builder} (hb : b.Shaped) (hn : b.nesting = 0) :
    openStrings b.signature = [] := by
  unfold Shaped at hb
  rw [hn] at hb
  have hne := hb.ne_string
  have hkinds : b.kinds = b.signature.map Prod.fst := by
    simp [kinds, signature]
  rw [openStrings, List.filter_eq_nil_iff.mpr, List.map_nil]
  intro level hlevel
  have := hne level.1 (hkinds ▸ List.mem_map_of_mem hlevel)
  simpa using this

theorem nesting_ne_zero_of_delimited {b : Builder} (hb : b.Shaped) {k : TreeKind}
    {opening : Option Token} {outer : List (TreeKind × Option Token)}
    (hsig : b.signature = (k, opening) :: outer) (hk : k.isDelimited) : b.nesting ≠ 0 := by
  have hkind : b.current.kind = k := congrArg Prod.fst (List.cons.inj hsig).1
  obtain ⟨m, hm, -⟩ := Shape.delimited hb (hkind ▸ hk)
  rw [hm]
  exact Nat.succ_ne_zero m

theorem placeLevels_of_content {t : Token} (hopens : t.kind.opens? = none)
    (hcloses : t.kind.closes? = none) {k : TreeKind} (hk : k ≠ .template) (opening : Option Token)
    (outer : List (TreeKind × Option Token)) :
    placeLevels t ((k, opening) :: outer) = (k, opening) :: outer := by
  have hsettle : settleLevels t ((k, opening) :: outer) = (k, opening) :: outer := by
    cases k <;> first | rfl | exact absurd rfl hk
  rw [placeLevels, hsettle]
  cases ht : t.kind <;> simp_all [TokenKind.opens?, TokenKind.closes?]

/-- Inside delimiters, the levels after a token follow from those before it. -/
theorem Step.signature_eq {b b' : Builder} {t : Token} (h : Step t b b')
    (hn : b.nesting ≠ 0) : b'.signature = placeLevels t b.signature := by
  have hn₀ : (b.begin t).nesting ≠ 0 := nesting_begin b t ▸ hn
  cases h with
  | waits h _ h₀ _ _ => exact absurd (h ▸ h₀) hn₀
  | merges hlaid ht hk _ =>
      rw [hlaid.eq_self_of_nesting hn₀] at hk ⊢
      rw [signature_coalesce, ← signature_begin b t]
      exact (placeLevels_of_content (by rw [ht]; rfl) (by rw [ht]; rfl) hk _ _).symm
  | @places b₁ b₂ hlaid hb₁ _ hplaced =>
      show b₂.signature = _
      rw [hplaced.signature_eq hb₁, hlaid.eq_self_of_nesting hn₀, signature_begin]

/-- The start of a string opens its level. -/
theorem Step.signature_start {b b' : Builder} {t : Token} (h : Step t b b')
    (ht : t.kind = .stringStart) : ∃ outer, b'.signature = (.string, some t) :: outer := by
  cases h with
  | waits _ _ _ _ h => exact absurd (ht.symm.trans h) (by decide)
  | merges _ h _ _ => exact absurd (ht.symm.trans h) (by decide)
  | @places b₁ b₂ _ _ _ hplaced =>
      cases hplaced with
      | opens h _ =>
          rw [ht] at h
          cases h
          exact ⟨b₁.signature, rfl⟩
      | closes h _ => simp [ht, TokenKind.closes?] at h
      | child h _ _ => exact absurd (h _ (by rw [ht]; rfl)).1 (by decide)
      | escapes _ h _ _ => simp [ht, TokenKind.leavesTemplate] at h

/-- The open strings after a token follow from the levels before it. -/
theorem Step.openStrings_eq {b b' : Builder} {t : Token} (h : Step t b b') (hb : b.Shaped) :
    openStrings b'.signature = openStrings (placeLevels t b.signature) := by
  by_cases hn : b.nesting = 0
  · have outside {levels : List (TreeKind × Option Token)} (h : openStrings levels = []) :
        openStrings (placeLevels t levels) = if t.kind = .stringStart then [some t] else [] := by
      by_cases hstart : t.kind = .stringStart
      · rw [openStrings_placeLevels_start hstart, h, if_pos hstart]
      · rw [if_neg hstart]
        by_cases hend : t.kind = .stringEnd
        · rcases openStrings_placeLevels_end hend levels with h' | ⟨opening, h'⟩
          · exact h'.trans h
          · rw [h] at h'
            cases h'
        · rw [openStrings_placeLevels_of_ne hstart hend, h]
    have hnil := hb.openStrings_eq_nil hn
    have hn₀ : (b.begin t).nesting = 0 := (nesting_begin b t).trans hn
    have hlaid_nil {b₁ : Builder} (hlaid : Laid t (b.begin t) b₁) :
        openStrings b₁.signature = [] := by
      refine (hlaid.shaped (hb.begin t)).openStrings_eq_nil ?_
      obtain ⟨_, _, _, _, _, _, rfl⟩ := hlaid.frame
      exact hn₀
    rw [outside hnil]
    cases h with
    | waits h _ _ _ ht =>
        show openStrings (signature _) = _
        rw [h, ht]
        exact (congrArg openStrings (signature_begin b t)).trans hnil
    | merges hlaid ht _ _ =>
        rw [signature_coalesce, hlaid_nil hlaid, ht]
        rfl
    | @places b₁ b₂ hlaid hb₁ _ hplaced =>
        show openStrings b₂.signature = _
        rw [hplaced.signature_eq hb₁, outside (hlaid_nil hlaid)]
  · rw [h.signature_eq hn]

theorem Step.trees_subset {b b' : Builder} {t : Token} (h : Step t b b') : b.trees ⊆ b'.trees := by
  rw [← trees_begin b t]
  cases h with
  | waits h _ _ _ _ => rw [h]; exact List.Subset.refl _
  | merges hlaid _ _ _ => rw [trees_coalesce]; exact hlaid.trees_subset
  | places hlaid _ _ hplaced => exact fun x hx => hplaced.trees_subset (hlaid.trees_subset hx)

/-- The only string that a token closes is the innermost one. -/
theorem Step.string_of_mem {b b' : Builder} {t : Token} (h : Step t b b')
    {x : Tree} (hx : x ∈ b'.trees) (hk : x.kind = .string) :
    x ∈ b.trees ∨ (t.kind = .stringEnd ∧ x.closing = some t ∧
      openStrings b.signature = x.opening :: openStrings b'.signature) := by
  rw [← trees_begin b t, ← signature_begin b t]
  cases h with
  | waits h _ _ _ _ =>
      subst h
      exact .inl hx
  | merges hlaid _ _ _ =>
      rw [trees_coalesce] at hx
      exact .inl (hlaid.string_of_mem hx hk)
  | @places b₁ b₂ hlaid hb₁ _ hplaced =>
      rcases hplaced.string_of_mem hb₁ hx hk with hx | ⟨ht, hclosing, hopen⟩
      · exact .inl (hlaid.string_of_mem hx hk)
      · refine .inr ⟨ht, hclosing, ?_⟩
        -- A string is open, so the token stands inside delimiters.
        have hn : (b.begin t).nesting ≠ 0 := by
          intro hn
          have hn₁ : b₁.nesting = 0 := by
            obtain ⟨_, _, _, _, _, _, rfl⟩ := hlaid.frame
            exact hn
          rw [hb₁.openStrings_eq_nil hn₁] at hopen
          cases hopen
        rw [hlaid.eq_self_of_nesting hn] at hopen
        exact hopen

/-- The end of a string closes the string whose level is the innermost. -/
theorem Step.exists_string {b b' : Builder} {t : Token} (h : Step t b b') (hb : b.Shaped)
    (ht : t.kind = .stringEnd) {opening : Option Token} {outer : List (TreeKind × Option Token)}
    (hsig : b.signature = (.string, opening) :: outer) :
    ∃ x ∈ b'.trees, x.kind = .string ∧ x.opening = opening ∧ x.closing = some t := by
  have hn : (b.begin t).nesting ≠ 0 :=
    nesting_begin b t ▸ nesting_ne_zero_of_delimited hb hsig rfl
  rw [← signature_begin b t] at hsig
  cases h with
  | waits _ _ _ _ h => exact absurd (ht.symm.trans h) (by decide)
  | merges _ h _ _ => exact absurd (ht.symm.trans h) (by decide)
  | places hlaid _ _ hplaced =>
      rw [hlaid.eq_self_of_nesting hn] at hplaced
      exact hplaced.exists_string ht hsig

/-! ### The end -/

theorem Ended.trees {b b' : Builder} (h : Ended b b') :
    b.trees ⊆ b'.trees ∧ ∀ x ∈ b'.trees, x ∈ b.trees ∨ x.closing = none := by
  induction h with
  | done _ => exact ⟨List.Subset.refl _, fun x hx => .inl hx⟩
  | marks _ ih =>
      rw [trees_pushToken] at ih
      exact ih
  | close houter _ ih =>
      refine ⟨fun x hx => ih.1 ((mem_trees_closed houter _ _).mpr (.inr hx)), fun x hx => ?_⟩
      rcases ih.2 x hx with hx | hnone
      · rcases (mem_trees_closed houter _ _).mp hx with rfl | hx
        · exact .inr rfl
        · exact .inl hx
      · exact .inr hnone

theorem mem_trees_rooted {b : Builder} (h : b.outer = []) {x : Tree} :
    x ∈ b.rooted.toNode.trees ↔ x = b.rooted ∨ x ∈ b.trees := by
  have htrees : (b.current.push (.token (b.previous.markerAfter .levelEnd))).trees = b.trees := by
    simp [trees, h, Node.trees]
  rw [Tree.trees_toNode, List.mem_cons, ← htrees]
  rfl

/-- The end of the tokens closes what is open without closing tokens. -/
theorem trees_of_finish {b : Builder} {tree : Tree} (h : b.finish = .ok tree) :
    b.trees ⊆ tree.toNode.trees ∧
      ∀ x ∈ tree.toNode.trees, x ∈ b.trees ∨ x.closing = none := by
  obtain ⟨b', hended, rfl⟩ := exists_ended_of_finish h
  obtain ⟨hsubset, hnew⟩ := hended.trees
  rw [trees_flush] at hsubset hnew
  refine ⟨fun x hx => (mem_trees_rooted hended.outer_eq_nil).mpr (.inr (hsubset hx)), ?_⟩
  intro x hx
  rcases (mem_trees_rooted hended.outer_eq_nil).mp hx with rfl | hx
  · exact .inr rfl
  · exact hnew x hx

end Builder

end Nesting
