import Mathlib.Data.List.Basic
import Nesting.Proofs.Except
import Nesting.Tree.Build

/-! # The levels of a builder

The open levels of a builder always have the same shape (`Builder.Shape`): the root, then one
block for each indent, then as many delimited levels as the builder counts, and a template only
directly inside a string.

The functions of the builder are described here once, by what they do to a builder:
`Builder.Placed` for a token that is placed, `Builder.Laid` for the indentation before it, and
`Builder.Step` for a token altogether.  That the shape is kept is read off from them
(`Builder.Step.shaped`, `Builder.shaped_of_foldlM`). -/

namespace Nesting

/-! ### Delimiters -/

/-- The level that a token of a kind opens. -/
def TokenKind.opens? : TokenKind → Option TreeKind
  | bracketLeft => some .wrapped
  | stringStart => some .string
  | templateStart => some .template
  | _ => none

/-- The level that a token of a kind closes. -/
def TokenKind.closes? : TokenKind → Option TreeKind
  | bracketRight => some .wrapped
  | stringEnd => some .string
  | templateEnd => some .template
  | _ => none

/-- The tokens that cannot be inside a template, so that they close it. -/
def TokenKind.leavesTemplate : TokenKind → Bool
  | stringValue | stringEnd | templateStart => true
  | _ => false

theorem TokenKind.opens?_eq_some_iff {k : TokenKind} {tree : TreeKind} :
    k.opens? = some tree ↔ (k = .bracketLeft ∧ tree = .wrapped) ∨
      (k = .stringStart ∧ tree = .string) ∨ (k = .templateStart ∧ tree = .template) := by
  cases k <;> simp [opens?, eq_comm]

theorem TokenKind.closes?_eq_some_iff {k : TokenKind} {tree : TreeKind} :
    k.closes? = some tree ↔ (k = .bracketRight ∧ tree = .wrapped) ∨
      (k = .stringEnd ∧ tree = .string) ∨ (k = .templateEnd ∧ tree = .template) := by
  cases k <;> simp [closes?, eq_comm]

theorem TokenKind.leavesTemplate_iff {k : TokenKind} :
    k.leavesTemplate ↔ k = .stringValue ∨ k = .stringEnd ∨ k = .templateStart := by
  cases k <;> simp [leavesTemplate]

namespace Builder

/-! ### The shape of the levels -/

/-- The shape of levels, the innermost first, with the number of delimited levels and the indents
of the blocks.  An indent goes on from the one around it. -/
inductive Shape : Nat → List String → List TreeKind → Prop
  | root : Shape 0 [] [.root]
  | block {indents ks indent} : Shape 0 indents ks → indents.headD "" ≠ indent →
      (indents.headD "").toList <+: indent.toList → Shape 0 (indent :: indents) (.block :: ks)
  | wrapped {n indents ks} : Shape n indents ks → Shape (n + 1) indents (.wrapped :: ks)
  | string {n indents ks} : Shape n indents ks → Shape (n + 1) indents (.string :: ks)
  | template {n indents ks} : Shape n indents (.string :: ks) →
      Shape (n + 1) indents (.template :: .string :: ks)

/-- The kinds of the open levels, the innermost first. -/
def kinds (b : Builder) : List TreeKind := b.current.kind :: b.outer.map OpenTree.kind

/-- The levels of a builder have the right shape. -/
def Shaped (b : Builder) : Prop := Shape b.nesting b.indents b.kinds

theorem Shape.delimited {n : Nat} {indents : List String} {k : TreeKind} {ks : List TreeKind}
    (h : Shape n indents (k :: ks)) (hk : k.isDelimited) :
    ∃ m, n = m + 1 ∧ Shape m indents ks := by
  cases h with
  | root => cases hk
  | block _ _ _ => cases hk
  | wrapped h => exact ⟨_, rfl, h⟩
  | string h => exact ⟨_, rfl, h⟩
  | template h => exact ⟨_, rfl, h⟩

theorem Shape.string_of_template {n : Nat} {indents : List String} {ks : List TreeKind}
    (h : Shape n indents (.template :: ks)) : ∃ ks', ks = .string :: ks' := by
  cases h with
  | template _ => exact ⟨_, rfl⟩

theorem Shape.opens {n : Nat} {indents : List String} {ks : List TreeKind} {k : TreeKind}
    (h : Shape n indents ks) (hk : k.isDelimited)
    (ht : k = .template → ∃ ks', ks = .string :: ks') : Shape (n + 1) indents (k :: ks) := by
  cases k with
  | root => cases hk
  | block => cases hk
  | wrapped => exact .wrapped h
  | string => exact .string h
  | template =>
      obtain ⟨ks', rfl⟩ := ht rfl
      exact .template h

theorem isDelimited_of_opens? {k : TokenKind} {tree : TreeKind} (h : k.opens? = some tree) :
    tree.isDelimited := by
  rcases TokenKind.opens?_eq_some_iff.mp h with ⟨_, rfl⟩ | ⟨_, rfl⟩ | ⟨_, rfl⟩ <;> rfl

theorem isDelimited_of_closes? {k : TokenKind} {tree : TreeKind} (h : k.closes? = some tree) :
    tree.isDelimited := by
  rcases TokenKind.closes?_eq_some_iff.mp h with ⟨_, rfl⟩ | ⟨_, rfl⟩ | ⟨_, rfl⟩ <;> rfl

/-! ### Small steps -/

/-- A builder whose innermost level was closed, behind an end marker. -/
def closed (b : Builder) (closing : Option Token) (marker : Token) (parent : OpenTree)
    (rest : List OpenTree) : Builder :=
  { b with
    current := parent.push ((b.current.push (.token marker)).close closing)
    outer := rest }

theorem closeLevel_eq_ok_iff {b b' : Builder} {closing : Option Token} {marker : Token} :
    b.closeLevel closing marker = .ok b' ↔
      ∃ parent rest, b.outer = parent :: rest ∧ b' = b.closed closing marker parent rest := by
  unfold closeLevel
  split
  · next h =>
    constructor
    · intro h'
      cases h'
    · rintro ⟨parent, rest, h', -⟩
      rw [h] at h'
      cases h'
  · next parent rest h =>
    constructor
    · intro h'
      cases h'
      exact ⟨parent, rest, h, rfl⟩
    · rintro ⟨parent', rest', h', rfl⟩
      rw [h] at h'
      cases h'
      rfl

theorem kinds_closed {b : Builder} {parent : OpenTree} {rest : List OpenTree}
    (h : b.outer = parent :: rest) (closing : Option Token) (marker : Token) :
    b.kinds = b.current.kind :: (b.closed closing marker parent rest).kinds := by
  rw [kinds, h]
  rfl

/-- A builder whose innermost level, a delimited one, was closed. -/
def closedDelimited (b : Builder) (closing marker : Token) (parent : OpenTree)
    (rest : List OpenTree) : Builder :=
  { b.closed (some closing) marker parent rest with nesting := b.nesting - 1 }

theorem closeDelimited_eq_ok_iff {b b' : Builder} {t : Token} :
    b.closeDelimited t = .ok b' ↔
      ∃ parent rest, b.outer = parent :: rest ∧
        b' = b.closedDelimited t (t.markerBefore .levelEnd) parent rest := by
  unfold closeDelimited
  rw [bind_eq_ok_iff]
  constructor
  · rintro ⟨b₁, h₁, h⟩
    obtain ⟨parent, rest, houter, rfl⟩ := closeLevel_eq_ok_iff.mp h₁
    exact ⟨parent, rest, houter, (Except.ok.inj h).symm⟩
  · rintro ⟨parent, rest, houter, rfl⟩
    exact ⟨_, closeLevel_eq_ok_iff.mpr ⟨parent, rest, houter, rfl⟩, rfl⟩

theorem closeTemplate_eq_ok_iff {b b' : Builder} {t : Token} :
    b.closeTemplate t = .ok b' ↔
      ∃ parent rest, b.outer = parent :: rest ∧
        b' = b.closedDelimited (t.markerBefore .templateEnd) (t.markerBefore .levelEnd) parent
          rest := by
  unfold closeTemplate
  rw [bind_eq_ok_iff]
  constructor
  · rintro ⟨b₁, h₁, h⟩
    obtain ⟨parent, rest, houter, rfl⟩ := closeLevel_eq_ok_iff.mp h₁
    exact ⟨parent, rest, houter, (Except.ok.inj h).symm⟩
  · rintro ⟨parent, rest, houter, rfl⟩
    exact ⟨_, closeLevel_eq_ok_iff.mpr ⟨parent, rest, houter, rfl⟩, rfl⟩

theorem Shaped.closedDelimited {b : Builder} (hb : b.Shaped) {parent : OpenTree}
    {rest : List OpenTree} (h : b.outer = parent :: rest) (hk : b.current.kind.isDelimited)
    (closing marker : Token) : (b.closedDelimited closing marker parent rest).Shaped := by
  unfold Shaped at hb
  rw [kinds_closed h (some closing) marker] at hb
  obtain ⟨m, hm, hshape⟩ := hb.delimited hk
  show Shape (b.nesting - 1) b.indents _
  rw [hm, Nat.add_sub_cancel]
  exact hshape

theorem Shaped.openDelimited {b : Builder} (hb : b.Shaped) {k : TreeKind} (hk : k.isDelimited)
    (ht : k = .template → b.current.kind = .string) (t : Token) :
    (b.openDelimited k t).Shaped := by
  refine Shape.opens hb hk fun h => ⟨b.outer.map OpenTree.kind, ?_⟩
  show b.current.kind :: _ = _
  rw [ht h]

/-! ### Placing a token -/

/-- What placing a token does. -/
inductive Placed (t : Token) : Builder → Builder → Prop
  /-- The token opens a level. -/
  | opens {b k} : t.kind.opens? = some k → (k = .template → b.current.kind = .string) →
      Placed t b (b.openDelimited k t)
  /-- The token closes the innermost level. -/
  | closes {b parent rest} : t.kind.closes? = some b.current.kind → b.outer = parent :: rest →
      Placed t b (b.closedDelimited t (t.markerBefore .levelEnd) parent rest)
  /-- The token is a child of the innermost level. -/
  | child {b} : (∀ k, t.kind.opens? = some k → k = .template ∧ b.current.kind ≠ .string) →
      t.kind.closes? ≠ some b.current.kind →
      ¬ (b.current.kind = .template ∧ t.kind.leavesTemplate) → Placed t b (b.pushToken t)
  /-- The token first closes the template that it cannot be inside. -/
  | escapes {b b' parent rest} : b.current.kind = .template → t.kind.leavesTemplate →
      b.outer = parent :: rest →
      Placed t (b.closedDelimited (t.markerBefore .templateEnd) (t.markerBefore .levelEnd) parent
        rest) b' →
      Placed t b b'

theorem Shaped.kind_of_template {b : Builder} (hb : b.Shaped) (hk : b.current.kind = .template)
    {parent : OpenTree} {rest : List OpenTree} (h : b.outer = parent :: rest) :
    parent.kind = .string := by
  have hb : Shape _ _ (b.current.kind :: b.outer.map OpenTree.kind) := hb
  rw [hk, h] at hb
  obtain ⟨ks, hks⟩ := hb.string_of_template
  exact (List.cons.inj hks).1

theorem placed_of_place {b b' : Builder} {t : Token} (hb : b.Shaped) (h : b.place t = .ok b') :
    Placed t b b' := by
  have implied {b₁ : Builder} (hk : b.current.kind = .template) (ht : t.kind.leavesTemplate)
      (h₁ : b.closeTemplate t = .ok b₁) (placed : b₁.current.kind = .string → Placed t b₁ b') :
      Placed t b b' := by
    obtain ⟨parent, rest, houter, rfl⟩ := closeTemplate_eq_ok_iff.mp h₁
    have hparent := hb.kind_of_template hk houter
    exact .escapes hk ht houter (placed hparent)
  have closing {b₁ : Builder} (hk : t.kind.closes? = some b₁.current.kind)
      (h₁ : b₁.closeDelimited t = .ok b') : Placed t b₁ b' := by
    obtain ⟨parent, rest, houter, rfl⟩ := closeDelimited_eq_ok_iff.mp h₁
    exact .closes hk houter
  unfold place at h
  split at h
  · next ht hk =>
    obtain ⟨b₁, h₁, h⟩ := bind_eq_ok_iff.mp h
    cases h
    refine implied hk (by rw [ht]; rfl) h₁ fun hs => .child ?_ ?_ ?_
    · simp [ht, TokenKind.opens?]
    · simp [ht, TokenKind.closes?]
    · simp [hs]
  · next ht =>
    cases h
    exact .opens (by rw [ht]; rfl) nofun
  · next ht hk => exact closing (by rw [ht, hk]; rfl) h
  · next ht hk => exact closing (by rw [ht, hk]; rfl) h
  · next ht hk => exact closing (by rw [ht, hk]; rfl) h
  · next ht =>
    cases h
    exact .opens (by rw [ht]; rfl) nofun
  · next ht hk =>
    cases h
    exact .opens (by rw [ht]; rfl) fun _ => hk
  · next ht hk =>
    obtain ⟨b₁, h₁, h⟩ := bind_eq_ok_iff.mp h
    cases h
    exact implied hk (by rw [ht]; rfl) h₁ fun hs => .opens (by rw [ht]; rfl) fun _ => hs
  · next ht hk =>
    obtain ⟨b₁, h₁, h⟩ := bind_eq_ok_iff.mp h
    exact implied hk (by rw [ht]; rfl) h₁ fun hs => closing (by rw [ht, hs]; rfl) h
  · next hleft hstart hvalue hright hend htend hinto himplied hover =>
    cases h
    refine .child ?_ ?_ ?_
    · intro k hopens
      rcases TokenKind.opens?_eq_some_iff.mp hopens with ⟨ht, rfl⟩ | ⟨ht, rfl⟩ | ⟨ht, rfl⟩
      · exact (hleft ht).elim
      · exact (hstart ht).elim
      · exact ⟨rfl, hinto ht⟩
    · intro hcloses
      rcases TokenKind.closes?_eq_some_iff.mp hcloses with ⟨ht, hk⟩ | ⟨ht, hk⟩ | ⟨ht, hk⟩
      · exact hright ht hk
      · exact hend ht hk
      · exact htend ht hk
    · rintro ⟨hk, hleaves⟩
      rcases TokenKind.leavesTemplate_iff.mp hleaves with ht | ht | ht
      · exact hvalue ht hk
      · exact hover ht hk
      · exact himplied ht hk

/-- A token that cannot be inside a template is placed as if the template had been closed. -/
theorem place_of_closeTemplate {b b₁ : Builder} {t : Token} (hk : b.current.kind = .template)
    (ht : t.kind.leavesTemplate) (h : b.closeTemplate t = .ok b₁)
    (hk₁ : b₁.current.kind = .string) : b.place t = b₁.place t := by
  unfold place
  rw [h, hk, hk₁]
  rcases TokenKind.leavesTemplate_iff.mp ht with ht | ht | ht <;> rw [ht] <;> rfl

/-- A token has one place only. -/
theorem place_of_placed {b b' : Builder} {t : Token} (hb : b.Shaped) (h : Placed t b b') :
    b.place t = .ok b' := by
  induction h with
  | opens hopens hstring =>
      unfold place
      rcases TokenKind.opens?_eq_some_iff.mp hopens with ⟨ht, rfl⟩ | ⟨ht, rfl⟩ | ⟨ht, rfl⟩
      · rw [ht]
        rfl
      · rw [ht]
        rfl
      · rw [ht, hstring rfl]
        rfl
  | @closes b parent rest hcloses houter =>
      have hclosed : b.closeDelimited t = .ok _ :=
        closeDelimited_eq_ok_iff.mpr ⟨parent, rest, houter, rfl⟩
      unfold place
      rcases TokenKind.closes?_eq_some_iff.mp hcloses with ⟨ht, hk⟩ | ⟨ht, hk⟩ | ⟨ht, hk⟩ <;>
        rw [ht, hk] <;> exact hclosed
  | child hopens hcloses hleaves =>
      unfold place
      split
      · next ht hk => exact absurd ⟨hk, by rw [ht]; rfl⟩ hleaves
      · next ht => exact absurd (hopens _ (by rw [ht]; rfl)).1 (by decide)
      · next ht hk => exact absurd (by rw [ht, hk]; rfl) hcloses
      · next ht hk => exact absurd (by rw [ht, hk]; rfl) hcloses
      · next ht hk => exact absurd (by rw [ht, hk]; rfl) hcloses
      · next ht => exact absurd (hopens _ (by rw [ht]; rfl)).1 (by decide)
      · next ht hk => exact absurd hk (hopens _ (by rw [ht]; rfl)).2
      · next ht hk => exact absurd ⟨hk, by rw [ht]; rfl⟩ hleaves
      · next ht hk => exact absurd ⟨hk, by rw [ht]; rfl⟩ hleaves
      · rfl
  | @escapes b b' parent rest hk hleaves houter _ ih =>
      have hclosed : b.closeTemplate t = .ok _ :=
        closeTemplate_eq_ok_iff.mpr ⟨parent, rest, houter, rfl⟩
      have hparent := hb.kind_of_template hk houter
      rw [place_of_closeTemplate hk hleaves hclosed hparent]
      exact ih (hb.closedDelimited houter (by rw [hk]; rfl) _ _)

theorem Placed.shaped {b b' : Builder} {t : Token} (h : Placed t b b') (hb : b.Shaped) :
    b'.Shaped := by
  induction h with
  | opens hopens ht => exact hb.openDelimited (isDelimited_of_opens? hopens) ht t
  | closes hcloses houter =>
      exact hb.closedDelimited houter (isDelimited_of_closes? hcloses) t _
  | child _ _ _ => exact hb
  | escapes hk _ houter _ ih => exact ih (hb.closedDelimited houter (by rw [hk]; rfl) _ _)

theorem Placed.frame {b b' : Builder} {t : Token} (h : Placed t b b') :
    ∃ current outer nesting, b' = { b with current, outer, nesting } := by
  induction h with
  | opens _ _ => exact ⟨_, _, _, rfl⟩
  | closes _ _ => exact ⟨_, _, _, rfl⟩
  | child _ _ _ => exact ⟨_, _, _, rfl⟩
  | escapes _ _ _ _ ih =>
      obtain ⟨current, outer, nesting, h⟩ := ih
      exact ⟨current, outer, nesting, h⟩

theorem Placed.eq_pushToken {b b' : Builder} {t : Token} (h : Placed t b b')
    (hopens : t.kind.opens? = none) (hcloses : t.kind.closes? = none)
    (hleaves : t.kind.leavesTemplate = false) : b' = b.pushToken t := by
  cases h with
  | opens h _ => simp [hopens] at h
  | closes h _ => simp [hcloses] at h
  | child _ _ _ => rfl
  | escapes _ h _ _ => simp [hleaves] at h

/-! ### Indentation -/

/-- What closing blocks before a token does. -/
inductive Unblocked (t : Token) : Builder → Builder → Prop
  /-- The indents of the blocks that are left are put back. -/
  | done {b indents} : Unblocked t b { b with indents }
  /-- The innermost block is closed. -/
  | close {b b' parent rest} : b.current.kind = .block → b.outer = parent :: rest →
      Unblocked t (b.closed none (t.markerBefore .levelEnd) parent rest) b' → Unblocked t b b'

theorem shaped_withIndents {b : Builder} {indents : List String} (hn : b.nesting = 0)
    (hb : Shape 0 indents b.kinds) : Shaped { b with indents } := by
  show Shape b.nesting indents b.kinds
  rw [hn]
  exact hb

theorem unblocked_of_closeBlocks {b b' : Builder} {t : Token} {indent : String}
    {indents : List String} (hn : b.nesting = 0) (hb : Shape 0 indents b.kinds)
    (h : closeBlocks t indent indents b = .ok b') : Unblocked t b b' ∧ b'.Shaped := by
  induction indents generalizing b with
  | nil =>
      cases h
      exact ⟨.done, shaped_withIndents hn hb⟩
  | cons top rest ih =>
      rw [closeBlocks] at h
      split at h
      · obtain ⟨b₁, h₁, h⟩ := bind_eq_ok_iff.mp h
        obtain ⟨parent, outer, houter, rfl⟩ := closeLevel_eq_ok_iff.mp h₁
        have hkinds := kinds_closed houter none (t.markerBefore .levelEnd)
        rw [hkinds] at hb
        have hblock : b.current.kind = .block := by
          generalize b.current.kind = k at hb
          cases hb
          rfl
        rw [hblock] at hb
        cases hb with
        | block hb _ _ =>
            obtain ⟨hunblocked, hshaped⟩ :=
              ih (b := b.closed none (t.markerBefore .levelEnd) parent outer) hn hb h
            exact ⟨.close hblock houter hunblocked, hshaped⟩
      · cases h
        exact ⟨.done, shaped_withIndents hn hb⟩

theorem Unblocked.frame {b b' : Builder} {t : Token} (h : Unblocked t b b') :
    ∃ current outer indents, b' = { b with current, outer, indents } := by
  induction h with
  | done => exact ⟨_, _, _, rfl⟩
  | close _ _ _ ih =>
      obtain ⟨current, outer, indents, h⟩ := ih
      exact ⟨current, outer, indents, h⟩

/-- What happens to the indentation before a token. -/
inductive Laid (t : Token) (b : Builder) : Builder → Prop
  /-- The token is not the first of a line, or no blocks are made. -/
  | inside : (b.indentBlocks → b.nesting = 0 → b.atLineStart = false ∧ t.kind ≠ .newline) →
      Laid t b b
  /-- The line ends. -/
  | newline : b.indentBlocks → b.nesting = 0 → t.kind = .newline →
      Laid t b { b.flush with indent := "", atLineStart := true }
  /-- A comment stands in the indentation. -/
  | comment : b.indentBlocks → b.nesting = 0 → b.atLineStart → t.kind = .comment →
      Laid t b { b.flush with indent := "" }
  /-- The line belongs to an open block. -/
  | stays {b₁} : b.indentBlocks → b.nesting = 0 → b.atLineStart → t.kind.isTrivia = false →
      Unblocked t { b with indent := "" } b₁ → b₁.Shaped →
      Laid t b { b₁.flush with atLineStart := false }
  /-- The line begins a block. -/
  | opens {b₁} : b.indentBlocks → b.nesting = 0 → b.atLineStart → t.kind.isTrivia = false →
      Unblocked t { b with indent := "" } b₁ → b₁.Shaped → b₁.topIndent ≠ b.indent →
      b₁.topIndent.toList <+: b.indent.toList →
      Laid t b { b₁.openBlock t b.indent with atLineStart := false }

theorem laid_of_resolveIndent {b b' : Builder} {t : Token} (hb : b.Shaped) (hi : b.indentBlocks)
    (hn : b.nesting = 0) (hline : b.atLineStart) (ht : t.kind.isTrivia = false)
    (h : b.resolveIndent t = .ok b') : Laid t b { b' with atLineStart := false } := by
  have same : Unblocked t { b with indent := "" } { b with indent := "" } := .done
  unfold resolveIndent at h
  dsimp only at h
  split at h
  · cases h
    exact .stays hi hn hline ht same hb
  · next hne =>
    split at h
    · next hpre =>
      cases h
      exact .opens hi hn hline ht same hb (Ne.symm hne) (List.isPrefixOf_iff_prefix.mp hpre)
    · split at h
      · cases h
      · obtain ⟨b₁, hclose, h⟩ := bind_eq_ok_iff.mp h
        have hshape : Shape 0 b.indents b.kinds := hn ▸ hb
        obtain ⟨hun, hb₁⟩ :=
          unblocked_of_closeBlocks (b := { b with indent := "" }) hn hshape hclose
        split at h
        · cases h
          exact .stays hi hn hline ht hun hb₁
        · next hne =>
          split at h
          · next hpre =>
            cases h
            exact .opens hi hn hline ht hun hb₁ (Ne.symm hne)
              (List.isPrefixOf_iff_prefix.mp hpre)
          · cases h

theorem Laid.shaped {b b' : Builder} {t : Token} (h : Laid t b b') (hb : b.Shaped) : b'.Shaped := by
  cases h with
  | inside _ => exact hb
  | newline _ _ _ => exact hb
  | comment _ _ _ _ => exact hb
  | stays _ _ _ _ _ hb₁ => exact hb₁
  | @opens b₁ _ hn _ _ hun hb₁ hne hpre =>
      have hn₁ : b₁.nesting = 0 := by
        obtain ⟨_, _, _, rfl⟩ := hun.frame
        exact hn
      unfold Shaped at hb₁
      show Shape b₁.nesting (b.indent :: b₁.indents) (.block :: b₁.kinds)
      rw [hn₁] at hb₁ ⊢
      exact .block hb₁ hne hpre

/-- Indentation opens and closes blocks, and nothing else. -/
theorem Laid.frame {b b' : Builder} {t : Token} (h : Laid t b b') :
    ∃ current outer indents atLineStart indent waiting,
      b' = { b with current, outer, indents, atLineStart, indent, waiting } := by
  cases h with
  | inside _ => exact ⟨_, _, _, _, _, _, rfl⟩
  | newline _ _ _ => exact ⟨_, _, _, _, _, _, rfl⟩
  | comment _ _ _ _ => exact ⟨_, _, _, _, _, _, rfl⟩
  | stays _ _ _ _ hun _ =>
      obtain ⟨_, _, _, rfl⟩ := hun.frame
      exact ⟨_, _, _, _, _, _, rfl⟩
  | opens _ _ _ _ hun _ _ _ =>
      obtain ⟨_, _, _, rfl⟩ := hun.frame
      exact ⟨_, _, _, _, _, _, rfl⟩

/-- There is no indentation before a token that goes on on a line. -/
theorem Laid.eq_self {b b' : Builder} {t : Token} (h : Laid t b b')
    (hline : b.indentBlocks → b.atLineStart = false) (ht : t.kind ≠ .newline) : b' = b := by
  cases h with
  | inside _ => rfl
  | newline _ _ h => exact absurd h ht
  | comment hi _ hl _ => simp [hline hi] at hl
  | stays hi _ hl _ _ _ => simp [hline hi] at hl
  | opens hi _ hl _ _ _ _ _ => simp [hline hi] at hl

theorem Laid.eq_self_of_nesting {b b' : Builder} {t : Token} (h : Laid t b b')
    (hn : b.nesting ≠ 0) : b' = b := by
  cases h with
  | inside _ => rfl
  | newline _ h _ => exact absurd h hn
  | comment _ h _ _ => exact absurd h hn
  | stays _ h _ _ _ _ => exact absurd h hn
  | opens _ h _ _ _ _ _ _ => exact absurd h hn

/-- After the indentation of a token, its line has begun, unless it is a line's end or a comment
outside all delimiters. -/
theorem Laid.atLineStart_eq {b b' : Builder} {t : Token} (h : Laid t b b')
    (hline : b.indentBlocks → b.atLineStart → b.nesting = 0) :
    (b.indentBlocks → b'.atLineStart = false) ∨
      (b'.nesting = 0 ∧ (t.kind = .newline ∨ t.kind = .comment)) := by
  cases h with
  | inside h =>
      refine .inl fun hi => ?_
      cases hl : b.atLineStart with
      | false => rfl
      | true => exact hl ▸ (h hi (hline hi hl)).1
  | newline _ hn ht => exact .inr ⟨hn, .inl ht⟩
  | comment _ hn _ ht => exact .inr ⟨hn, .inr ht⟩
  | stays _ _ _ _ _ _ => exact .inl fun _ => rfl
  | opens _ _ _ _ _ _ _ _ => exact .inl fun _ => rfl

/-- After the indentation of a token, no blank waits. -/
theorem Laid.waiting_eq_nil {b b' : Builder} {t : Token} (h : Laid t b b')
    (hwaits : b.waiting ≠ [] → b.indentBlocks ∧ b.atLineStart)
    (hline : b.indentBlocks → b.atLineStart → b.nesting = 0) : b'.waiting = [] := by
  cases h with
  | inside h =>
      by_contra hw
      obtain ⟨hi, hl⟩ := hwaits hw
      have := (h hi (hline hi hl)).1
      simp [hl] at this
  | newline _ _ _ => rfl
  | comment _ _ _ _ => rfl
  | stays _ _ _ _ _ _ => rfl
  | opens _ _ _ _ _ _ _ _ => rfl

/-! ### Taking a token -/

/-- What taking a token does. -/
inductive Step (t : Token) (b : Builder) : Builder → Prop
  /-- A blank of an indentation waits for its level. -/
  | waits {b₀} : b₀ = b.begin t → b₀.indentBlocks → b₀.nesting = 0 → b₀.atLineStart →
      t.kind = .whitespace → Step t b { b₀ with
        indent := b₀.indent ++ t.value, waiting := b₀.waiting ++ [t], previous := t }
  /-- A string value is added to the one before it. -/
  | merges {b₁} : Laid t (b.begin t) b₁ → t.kind = .stringValue → b₁.current.kind ≠ .template →
      b₁.previous.kind = .stringValue → Step t b (b₁.coalesce t)
  /-- The token gets its place. -/
  | places {b₁ b₂} : Laid t (b.begin t) b₁ → b₁.Shaped →
      ¬ (t.kind = .stringValue ∧ b₁.current.kind ≠ .template ∧ b₁.previous.kind = .stringValue) →
      Placed t b₁ b₂ → Step t b { b₂ with previous := t }

theorem begin_eq (b : Builder) (t : Token) :
    ∃ children, b.begin t = { b with current := { b.current with children } } := by
  unfold begin
  split
  · exact ⟨_, rfl⟩
  · exact ⟨b.current.children, rfl⟩

theorem Shaped.begin {b : Builder} (hb : b.Shaped) (t : Token) : (b.begin t).Shaped := by
  obtain ⟨children, h⟩ := b.begin_eq t
  rw [h]
  exact hb

theorem step_of_accept {b b₁ b' : Builder} {t : Token} (hlaid : Laid t (b.begin t) b₁)
    (hb₁ : b₁.Shaped) (h : b₁.accept t = .ok b') : Step t b b' := by
  unfold accept at h
  split at h
  · next hmerge =>
    cases h
    simp only [Bool.and_eq_true, decide_eq_true_eq] at hmerge
    exact .merges hlaid hmerge.1.1 hmerge.1.2 hmerge.2
  · next hmerge =>
    obtain ⟨b₂, hplace, h⟩ := bind_eq_ok_iff.mp h
    cases h
    refine .places hlaid hb₁ ?_ (placed_of_place hb₁ hplace)
    rintro ⟨ht, hk, hprev⟩
    exact hmerge (by simp [ht, hk, hprev])

/-- Whatever the tokens are, taking one is one of the steps. -/
theorem step_of_push {b b' : Builder} {t : Token} (hb : b.Shaped) (h : b.push t = .ok b') :
    Step t b b' := by
  have accepted {b₁ : Builder} (hlaid : Laid t (b.begin t) b₁) (h : b₁.accept t = .ok b') :
      Step t b b' :=
    step_of_accept hlaid (hlaid.shaped (hb.begin t)) h
  unfold push at h
  dsimp only at h
  split at h
  · next hblocks =>
    have hi : (b.begin t).indentBlocks := (Bool.and_eq_true_iff.mp hblocks).1
    have hn : (b.begin t).nesting = 0 := of_decide_eq_true (Bool.and_eq_true_iff.mp hblocks).2
    split at h
    · next ht => exact accepted (.newline hi hn ht) h
    · next ht hline =>
      cases h
      exact .waits rfl hi hn hline ht
    · next ht hline => exact accepted (.comment hi hn hline ht) h
    · next hline hnew hblank hcomment =>
      obtain ⟨b₁, hresolve, h⟩ := bind_eq_ok_iff.mp h
      refine accepted (laid_of_resolveIndent (hb.begin t) hi hn hline ?_ hresolve) h
      cases hk : t.kind with
      | newline => exact (hnew hk).elim
      | whitespace => exact (hblank hk).elim
      | comment => exact (hcomment hk).elim
      | _ => rfl
    · next hline hnew => exact accepted (.inside fun _ _ => ⟨hline, hnew⟩) h
  · next hblocks =>
    refine accepted (.inside fun hi hn => ?_) h
    exact absurd (by simp [hi, hn]) hblocks

theorem coalesce_eq (b : Builder) (t : Token) :
    ∃ children previous,
      b.coalesce t = { b with current := { b.current with children }, previous } := by
  unfold coalesce
  split
  · split <;> exact ⟨_, _, rfl⟩
  · exact ⟨_, _, rfl⟩

/-- Where a string value is the last child, the next one is added to it. -/
theorem coalesce_of_back {b : Builder} {children : Array Node} {last : Token}
    (hchildren : b.current.children = children.push (.token last))
    (hlast : last.kind = .stringValue) (t : Token) :
    b.coalesce t =
      { b with
        current := { b.current with children := children.push (.token (last.merge t)) }
        previous := last.merge t } := by
  unfold coalesce
  rw [hchildren, Array.back?_push]
  dsimp only
  rw [if_pos hlast, Array.pop_push]
  rfl

/-- The shape of the levels is kept by every token. -/
theorem Step.shaped {b b' : Builder} {t : Token} (h : Step t b b') (hb : b.Shaped) :
    b'.Shaped := by
  cases h with
  | waits hb₀ _ _ _ _ =>
      rw [hb₀]
      exact hb.begin t
  | @merges b₁ hlaid _ _ _ =>
      obtain ⟨children, previous, h⟩ := b₁.coalesce_eq t
      rw [h]
      exact hlaid.shaped (hb.begin t)
  | places _ hb₁ _ hplaced => exact hplaced.shaped hb₁

theorem shaped_start (layout : Layout) : (start layout).Shaped := .root

theorem shaped_of_foldlM {layout : Layout} {tokens : List Token} {b : Builder}
    (h : tokens.foldlM push (start layout) = .ok b) : b.Shaped := by
  refine foldlM_induction (P := fun _ b => b.Shaped) (shaped_start layout) ?_ h
  intro _ t _ b b' hb hpush
  exact (step_of_push hb hpush).shaped hb

/-! ### The end -/

/-- What closing every level at the end of the tokens does. -/
inductive Ended : Builder → Builder → Prop
  /-- Only the root is left. -/
  | done {b} : b.outer = [] → Ended b b
  /-- A level without children gets its start marker. -/
  | marks {b b'} : Ended (b.pushToken (b.previous.markerAfter .levelStart)) b' → Ended b b'
  /-- The innermost level is closed without a closing token. -/
  | close {b b' parent rest} : b.outer = parent :: rest →
      Ended (b.closed none (b.previous.markerAfter .levelEnd) parent rest) b' → Ended b b'

theorem ended_of_closeAll {outer : List OpenTree} {b b' : Builder} (houter : b.outer = outer)
    (h : closeAll outer b = .ok b') : Ended b b' := by
  induction outer generalizing b with
  | nil =>
      cases h
      exact .done houter
  | cons parent rest ih =>
      have close {begun : Builder} (ho : begun.outer = parent :: rest)
          (hclose : (begun.closeLevel none (begun.previous.markerAfter .levelEnd) >>=
            closeAll rest) = .ok b') : Ended begun b' := by
        obtain ⟨b₁, h₁, hrest⟩ := bind_eq_ok_iff.mp hclose
        obtain ⟨parent', rest', ho', rfl⟩ := closeLevel_eq_ok_iff.mp h₁
        obtain ⟨rfl, rfl⟩ := List.cons.inj (ho'.symm.trans ho)
        exact .close ho (ih rfl hrest)
      rw [closeAll] at h
      split at h
      · exact .marks (close houter h)
      · exact close houter h

theorem Ended.outer_eq_nil {b b' : Builder} (h : Ended b b') : b'.outer = [] := by
  induction h with
  | done houter => exact houter
  | marks _ ih => exact ih
  | close _ _ ih => exact ih

/-- The tree that the root becomes, with its end marker. -/
def rooted (b : Builder) : Tree where
  kind := b.current.kind
  opening := b.current.opening
  closing := none
  children := (b.current.push (.token (b.previous.markerAfter .levelEnd))).children.toList

theorem exists_ended_of_finish {b : Builder} {tree : Tree} (h : b.finish = .ok tree) :
    ∃ b', Ended b.flush b' ∧ tree = b'.rooted := by
  unfold finish at h
  obtain ⟨b', hclose, h⟩ := bind_eq_ok_iff.mp h
  cases h
  exact ⟨b', ended_of_closeAll rfl hclose, rfl⟩

end Builder

end Nesting
