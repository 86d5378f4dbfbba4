import Nesting.Proofs.Text.LineEndings
import Nesting.Proofs.Tree.Settled

/-! # Trees and line endings

The tokens of a text and those of its other spelling have the same tree up to carriage returns, or
building fails at the same line and column (`Tree.meet_ofTokens`).

Two builders go side by side (`Builder.Respelled`): their levels are the same without carriage
returns, and the indents of the one are those of the other, in its spelling.  A builder asks of its
indents no more than which of them are equal and which begin one another, and this does not depend
on the spelling (`Spelled.prefix_iff`).  Where blanks have taken the carriage return of a line
ending, the newline drops them (`Builder.Respelled.push_blank`). -/

namespace Nesting

/-! ### Trees without carriage returns -/

namespace Node

mutual

/-- A node without the carriage returns of its tokens, and with no more of their places than the
lines. -/
def withoutReturns : Node → Node
  | .token t => .token t.withoutReturns
  | .tree kind opening closing children =>
    .tree kind (opening.map Token.withoutReturns) (closing.map Token.withoutReturns)
      (withoutReturnsAll children)

/-- The same for neighbouring nodes. -/
def withoutReturnsAll : List Node → List Node
  | [] => []
  | n :: ns => withoutReturns n :: withoutReturnsAll ns

end

theorem withoutReturnsAll_eq_map (ns : List Node) :
    withoutReturnsAll ns = ns.map withoutReturns := by
  induction ns with
  | nil => rfl
  | cons n ns ih => rw [withoutReturnsAll, ih, List.map_cons]

theorem map_withoutReturns_token (ts : List Token) :
    (ts.map token).map withoutReturns = (ts.map Token.withoutReturns).map token := by
  rw [List.map_map, List.map_map]
  rfl

end Node

/-- A tree without the carriage returns of its tokens, and with no more of their places than the
lines. -/
def Tree.withoutReturns (t : Tree) : Tree where
  kind := t.kind
  opening := t.opening.map Token.withoutReturns
  closing := t.closing.map Token.withoutReturns
  children := Node.withoutReturnsAll t.children

namespace Token

variable {t t' : Token}

theorem kind_eq_of_withoutReturns (h : t'.withoutReturns = t.withoutReturns) :
    t'.kind = t.kind :=
  (congrArg kind h :)

theorem withoutReturns_marker {pos pos' : Position} (h : pos'.line = pos.line) (k : TokenKind) :
    (marker k pos').withoutReturns = (marker k pos).withoutReturns := by
  simp [marker, withoutReturns, h]

theorem withoutReturns_markerBefore (h : t'.withoutReturns = t.withoutReturns) (k : TokenKind) :
    (t'.markerBefore k).withoutReturns = (t.markerBefore k).withoutReturns :=
  withoutReturns_marker (congrArg (·.pos.line) h :) k

theorem line_endPosition (t : Token) :
    t.endPosition.line = t.withoutReturns.endPosition.line := by
  have hmem : '\n' ∈ t.withoutReturns.value.toList ↔ '\n' ∈ t.value.toList := by
    simp [withoutReturns, Nesting.withoutReturns, String.toList_ofList]
  by_cases h : '\n' ∈ t.value.toList
  · simp only [endPosition, lastLine?, if_pos h, if_pos (hmem.mpr h)]
    rfl
  · simp only [endPosition, lastLine?, if_neg h, if_neg (mt hmem.mp h)]
    rfl

theorem withoutReturns_markerAfter (h : t'.withoutReturns = t.withoutReturns) (k : TokenKind) :
    (t'.markerAfter k).withoutReturns = (t.markerAfter k).withoutReturns := by
  refine withoutReturns_marker ?_ k
  rw [line_endPosition t', line_endPosition t, h]

theorem withoutReturns_merge (t u : Token) :
    (t.merge u).withoutReturns = t.withoutReturns.merge u.withoutReturns := by
  simp [merge, withoutReturns, Nesting.withoutReturns, String.ofList_append]

end Token

/-! ### Spellings of a text -/

/-- A text without carriage returns, and its other spelling. -/
structure Spelled (s s' : String) : Prop where
  free : '\r' ∉ s.toList
  spelled : s'.toList = crlf s.toList

namespace Spelled

variable {s s' u u' : String}

theorem empty : Spelled "" "" := ⟨by decide, rfl⟩

theorem append (h : Spelled s s') (hu : Spelled u u') : Spelled (s ++ u) (s' ++ u') where
  free := by
    rw [String.toList_append, List.mem_append, not_or]
    exact ⟨h.free, hu.free⟩
  spelled := by
    rw [String.toList_append, String.toList_append, crlf_append, h.spelled, hu.spelled]

theorem headD {texts texts' : List String} (h : List.Forall₂ Spelled texts texts') :
    Spelled (texts.headD "") (texts'.headD "") := by
  cases h with
  | nil => exact .empty
  | cons hs _ => exact hs

/-- One text begins another one in both spellings or in none. -/
theorem prefix_iff (h : Spelled s s') (hu : Spelled u u') :
    s'.toList <+: u'.toList ↔ s.toList <+: u.toList := by
  rw [h.spelled, hu.spelled]
  constructor
  · intro hpre
    have hfilter := hpre.filter (· ≠ '\r')
    rwa [filter_crlf h.free, filter_crlf hu.free] at hfilter
  · rintro ⟨rest, hrest⟩
    rw [← hrest, crlf_append]
    exact List.prefix_append _ _

theorem eq_iff (h : Spelled s s') (hu : Spelled u u') : s' = u' ↔ s = u := by
  constructor
  · rintro rfl
    exact Builder.eq_of_prefixes ((h.prefix_iff hu).mp List.prefix_rfl)
      ((hu.prefix_iff h).mp List.prefix_rfl)
  · rintro rfl
    exact Builder.eq_of_prefixes ((h.prefix_iff hu).mpr List.prefix_rfl)
      ((hu.prefix_iff h).mpr List.prefix_rfl)

end Spelled

/-! ### Levels -/

namespace OpenTree

/-- A level without the carriage returns of its tokens. -/
def withoutReturns (t : OpenTree) : OpenTree where
  kind := t.kind
  opening := t.opening.map Token.withoutReturns
  children := t.children.map Node.withoutReturns

theorem withoutReturns_push (t : OpenTree) (n : Node) :
    (t.push n).withoutReturns = t.withoutReturns.push n.withoutReturns := by
  simp [push, withoutReturns]

theorem withoutReturns_extend (t : OpenTree) (ns : List Node) :
    (t.extend ns).withoutReturns = t.withoutReturns.extend (ns.map Node.withoutReturns) := by
  simp [extend, withoutReturns]

theorem withoutReturns_close (t : OpenTree) (closing : Option Token) :
    (t.close closing).withoutReturns =
      t.withoutReturns.close (closing.map Token.withoutReturns) := by
  simp [close, withoutReturns, Node.withoutReturns, Node.withoutReturnsAll_eq_map]

variable {t t' : OpenTree}

theorem kind_eq_of_withoutReturns (h : t'.withoutReturns = t.withoutReturns) :
    t'.kind = t.kind :=
  (congrArg kind h :)

theorem isEmpty_eq_of_withoutReturns (h : t'.withoutReturns = t.withoutReturns) :
    t'.children.isEmpty = t.children.isEmpty := by
  have hsize : t'.withoutReturns.children.size = t.withoutReturns.children.size := by rw [h]
  rw [withoutReturns, withoutReturns, Array.size_map, Array.size_map] at hsize
  rw [Array.isEmpty, Array.isEmpty, hsize]

theorem withoutReturns_tree (h : t'.withoutReturns = t.withoutReturns) :
    Tree.withoutReturns ⟨t'.kind, t'.opening, none, t'.children.toList⟩ =
      Tree.withoutReturns ⟨t.kind, t.opening, none, t.children.toList⟩ := by
  have hchildren := congrArg (·.children.toList) h
  simp only [withoutReturns, Array.toList_map] at hchildren
  rw [Tree.withoutReturns, Tree.withoutReturns, Node.withoutReturnsAll_eq_map,
    Node.withoutReturnsAll_eq_map, hchildren]
  exact congrArg₂ (Tree.mk · · none _) (congrArg kind h :) (congrArg opening h :)

end OpenTree

/-! ### Builders side by side -/

/-- The same state of building in the other spelling. -/
structure Builder.Respelled (b b' : Builder) : Prop where
  indentBlocks : b'.indentBlocks = b.indentBlocks
  current : b'.current.withoutReturns = b.current.withoutReturns
  outer : b'.outer.map OpenTree.withoutReturns = b.outer.map OpenTree.withoutReturns
  previous : b'.previous.withoutReturns = b.previous.withoutReturns
  nesting : b'.nesting = b.nesting
  indents : List.Forall₂ Spelled b.indents b'.indents
  atLineStart : b'.atLineStart = b.atLineStart
  indent : Spelled b.indent b'.indent
  waiting : b'.waiting.map Token.withoutReturns = b.waiting.map Token.withoutReturns

namespace Builder

theorem respelled_start (layout : Layout) : (start layout).Respelled (start layout) where
  indentBlocks := rfl
  current := rfl
  outer := rfl
  previous := rfl
  nesting := rfl
  indents := .nil
  atLineStart := rfl
  indent := .empty
  waiting := rfl

namespace Respelled

variable {b b' : Builder} {t t' : Token}

theorem kind_eq (h : b.Respelled b') : b'.current.kind = b.current.kind :=
  OpenTree.kind_eq_of_withoutReturns h.current

theorem topIndent (h : b.Respelled b') : Spelled b.topIndent b'.topIndent :=
  Spelled.headD h.indents

theorem withPrevious (h : b.Respelled b') (ht : t'.withoutReturns = t.withoutReturns) :
    Respelled { b with previous := t } { b' with previous := t' } :=
  { h with previous := ht }

theorem withIndent (h : b.Respelled b') {indent indent' : String}
    (hindent : Spelled indent indent') :
    Respelled { b with indent } { b' with indent := indent' } :=
  { h with indent := hindent }

theorem withLineStart (h : b.Respelled b') (atLineStart : Bool) :
    Respelled { b with atLineStart } { b' with atLineStart } :=
  { h with atLineStart := rfl }

theorem pushNode (h : b.Respelled b') {n n' : Node} (hn : n'.withoutReturns = n.withoutReturns) :
    (b.pushNode n).Respelled (b'.pushNode n') :=
  { h with
    current := by
      rw [Builder.pushNode, Builder.pushNode, OpenTree.withoutReturns_push,
        OpenTree.withoutReturns_push, h.current, hn] }

theorem pushToken (h : b.Respelled b') (ht : t'.withoutReturns = t.withoutReturns) :
    (b.pushToken t).Respelled (b'.pushToken t') :=
  h.pushNode (congrArg Node.token ht)

theorem flush (h : b.Respelled b') : b.flush.Respelled b'.flush :=
  { h with
    current := by
      rw [current_flush, current_flush, OpenTree.withoutReturns_extend,
        OpenTree.withoutReturns_extend, h.current, Node.map_withoutReturns_token,
        Node.map_withoutReturns_token, h.waiting]
    waiting := rfl }

theorem marks (h : b.Respelled b') {marker marker' : Token}
    (hmarker : marker'.withoutReturns = marker.withoutReturns) :
    Respelled (if b.current.children.isEmpty then b.pushToken marker else b)
      (if b'.current.children.isEmpty then b'.pushToken marker' else b') := by
  rw [OpenTree.isEmpty_eq_of_withoutReturns h.current]
  split
  · exact h.pushToken hmarker
  · exact h

theorem begin (h : b.Respelled b') (ht : t'.withoutReturns = t.withoutReturns) :
    (b.begin t).Respelled (b'.begin t') :=
  h.marks (Token.withoutReturns_markerBefore ht _)

theorem openDelimited (h : b.Respelled b') (ht : t'.withoutReturns = t.withoutReturns)
    (k : TreeKind) : (b.openDelimited k t).Respelled (b'.openDelimited k t') :=
  { h with
    current := by simp [Builder.openDelimited, openLevel, OpenTree.withoutReturns, ht]
    outer := congrArg₂ List.cons h.current h.outer
    nesting := congrArg (· + 1) h.nesting }

theorem openBlock (h : b.Respelled b') (ht : t'.withoutReturns = t.withoutReturns)
    {indent indent' : String} (hindent : Spelled indent indent') :
    (b.openBlock t indent).Respelled (b'.openBlock t' indent') :=
  { h with
    current := by
      have hmarker := Token.withoutReturns_markerBefore ht .levelStart
      simp only [Builder.openBlock, OpenTree.withoutReturns, List.map_toArray, List.map_cons,
        Node.map_withoutReturns_token, Node.withoutReturns, hmarker, h.waiting]
    outer := congrArg₂ List.cons h.current h.outer
    indents := .cons hindent h.indents
    waiting := rfl }

theorem closed (h : b.Respelled b') {parent : OpenTree} {rest : List OpenTree}
    (houter : b.outer = parent :: rest) {closing closing' : Option Token} {marker marker' : Token}
    (hclosing : closing'.map Token.withoutReturns = closing.map Token.withoutReturns)
    (hmarker : marker'.withoutReturns = marker.withoutReturns) :
    ∃ parent' rest', b'.outer = parent' :: rest' ∧
      (b.closed closing marker parent rest).Respelled
        (b'.closed closing' marker' parent' rest') := by
  have houters := h.outer
  rw [houter, List.map_cons, List.map_eq_cons_iff] at houters
  obtain ⟨parent', rest', houter', hparent, hrest⟩ := houters
  refine ⟨parent', rest', houter', { h with current := ?_, outer := hrest }⟩
  rw [Builder.closed, Builder.closed, OpenTree.withoutReturns_push, OpenTree.withoutReturns_push,
    OpenTree.withoutReturns_close, OpenTree.withoutReturns_close, OpenTree.withoutReturns_push,
    OpenTree.withoutReturns_push, h.current, hparent, hclosing, Node.withoutReturns,
    Node.withoutReturns, hmarker]

theorem closedDelimited (h : b.Respelled b') {parent : OpenTree} {rest : List OpenTree}
    (houter : b.outer = parent :: rest) {closing closing' marker marker' : Token}
    (hclosing : closing'.withoutReturns = closing.withoutReturns)
    (hmarker : marker'.withoutReturns = marker.withoutReturns) :
    ∃ parent' rest', b'.outer = parent' :: rest' ∧
      (b.closedDelimited closing marker parent rest).Respelled
        (b'.closedDelimited closing' marker' parent' rest') := by
  have hsome : (some closing').map Token.withoutReturns =
      (some closing).map Token.withoutReturns := congrArg some hclosing
  obtain ⟨parent', rest', houter', hclosed⟩ := h.closed houter hsome hmarker
  exact ⟨parent', rest', houter', { hclosed with nesting := congrArg (· - 1) h.nesting }⟩

end Respelled

/-! ### Indentation -/

/-- The blocks that are closed are the same ones. -/
theorem Respelled.closeBlocks {b b' c : Builder} {t t' : Token} {indent indent' : String}
    (h : b.Respelled b') (ht : t'.withoutReturns = t.withoutReturns)
    (hindent : Spelled indent indent') {indents indents' : List String}
    (hindents : List.Forall₂ Spelled indents indents')
    (hclose : Builder.closeBlocks t indent indents b = .ok c) :
    ∃ c', Builder.closeBlocks t' indent' indents' b' = .ok c' ∧ c.Respelled c' := by
  induction hindents generalizing b b' with
  | nil =>
      cases hclose
      exact ⟨_, rfl, { h with indents := .nil }⟩
  | @cons top top' rest rest' htop hrest ih =>
      have hcloses : (top' ≠ indent' && indent'.toList.isPrefixOf top'.toList) =
          (top ≠ indent && indent.toList.isPrefixOf top.toList) := by
        rw [Bool.eq_iff_iff]
        simp only [Bool.and_eq_true, decide_eq_true_eq, List.isPrefixOf_iff_prefix, ne_eq,
          htop.eq_iff hindent, hindent.prefix_iff htop]
      rw [Builder.closeBlocks] at hclose ⊢
      rw [hcloses]
      split at hclose
      · next hcond =>
        obtain ⟨b₁, h₁, hclose⟩ := bind_eq_ok_iff.mp hclose
        obtain ⟨parent, outer, houter, rfl⟩ := closeLevel_eq_ok_iff.mp h₁
        obtain ⟨parent', outer', houter', hclosed⟩ := h.closed houter
          (rfl : (none : Option Token).map Token.withoutReturns = none)
          (Token.withoutReturns_markerBefore ht .levelEnd)
        rw [if_pos hcond, closeLevel_eq_ok_iff.mpr ⟨parent', outer', houter', rfl⟩]
        exact ih hclosed hclose
      · next hcond =>
        cases hclose
        rw [if_neg hcond]
        exact ⟨_, rfl, { h with indents := .cons htop hrest }⟩

end Builder

/-- Two ways to build fail at the same line and column, or both succeed, with related results. -/
inductive Meet {α β : Type} (R : α → β → Prop) : Except BuildError α → Except BuildError β → Prop
  | fails {line col expected expected' found found'} :
      Meet R (.error (.inconsistentIndent line col expected found))
        (.error (.inconsistentIndent line col expected' found'))
  | ok {a b} : R a b → Meet R (.ok a) (.ok b)

theorem Meet.bind {α β γ δ : Type} {R : α → β → Prop} {S : γ → δ → Prop}
    {x : Except BuildError α} {y : Except BuildError β} {f : α → Except BuildError γ}
    {g : β → Except BuildError δ} (h : Meet R x y)
    (hfg : ∀ a b, x = .ok a → y = .ok b → R a b → Meet S (f a) (g b)) :
    Meet S (x >>= f) (y >>= g) := by
  cases h with
  | fails => exact .fails
  | ok hab => exact hfg _ _ rfl rfl hab

namespace Builder

variable {b b' : Builder} {t t' : Token}

theorem Respelled.resolveIndent (h : b.Respelled b') (hb : b.Shaped) (hb' : b'.Shaped)
    (hn : b.nesting = 0) (ht : t'.withoutReturns = t.withoutReturns) (hpos : t.pos.Beside t'.pos) :
    Meet Respelled (b.resolveIndent t) (b'.resolveIndent t') := by
  have hlines : (b'.topIndent.toList <+: b'.indent.toList ∨
        b'.indent.toList <+: b'.topIndent.toList) ↔
      (b.topIndent.toList <+: b.indent.toList ∨ b.indent.toList <+: b.topIndent.toList) := by
    rw [h.topIndent.prefix_iff h.indent, h.indent.prefix_iff h.topIndent]
  rw [resolveIndent_eq hb hn, resolveIndent_eq hb' (h.nesting.trans hn)]
  by_cases hline : b.topIndent.toList <+: b.indent.toList ∨ b.indent.toList <+: b.topIndent.toList
  · have hshape : Shape 0 b.indents b.kinds := hn ▸ hb
    obtain ⟨c, hclose, -⟩ := exists_closeBlocks (b := { b with indent := "" }) (t := t) hshape
      hline.symm
    obtain ⟨c', hclose', hc⟩ := (h.withIndent .empty).closeBlocks ht h.indent h.indents hclose
    rw [if_pos hline, if_pos (hlines.mpr hline), hclose, hclose']
    refine .ok ?_
    by_cases heq : b.indent = c.topIndent
    · rw [if_pos heq, if_pos ((h.indent.eq_iff hc.topIndent).mpr heq)]
      exact hc.flush
    · rw [if_neg heq, if_neg (mt (h.indent.eq_iff hc.topIndent).mp heq)]
      exact hc.openBlock ht h.indent
  · rw [if_neg hline, if_neg (mt hlines.mp hline), hpos.1, hpos.2]
    exact .fails

/-- The indentation in front of a token is settled in the same way. -/
theorem Respelled.settled (h : b.Respelled b') (hb : b.Shaped) (hb' : b'.Shaped)
    (ht : t'.withoutReturns = t.withoutReturns)
    (hpos : t.kind.isTrivia = false → t.pos.Beside t'.pos) (hnot : ¬ b.Waits t) :
    Meet Respelled (b.settled t) (b'.settled t') := by
  unfold Builder.settled
  rw [h.indentBlocks, h.nesting, h.atLineStart, Token.kind_eq_of_withoutReturns ht]
  split
  · next hblocks =>
    obtain ⟨hi, hn⟩ := Bool.and_eq_true_iff.mp hblocks
    have hn : b.nesting = 0 := of_decide_eq_true hn
    split
    · exact .ok ((h.flush.withIndent .empty).withLineStart true)
    · exact .ok (h.flush.withIndent .empty)
    · next hl hnew hcomment =>
      have hblank : t.kind ≠ .whitespace := fun hk => hnot ⟨hk, hi, hn, hl⟩
      have htrivia := TokenKind.isTrivia_eq_false hnew hblank hcomment
      exact (h.resolveIndent hb hb' hn ht (hpos htrivia)).bind fun c c' _ _ hc =>
        .ok (hc.withLineStart false)
    · exact .ok h
  · exact .ok h

/-! ### Placing a token -/

/-- A token is placed in the same way. -/
theorem Placed.respelled {c : Builder} (h : Placed t b c) (hb : b.Respelled b')
    (ht : t'.withoutReturns = t.withoutReturns) : ∃ c', Placed t' b' c' ∧ c.Respelled c' := by
  have hk := Token.kind_eq_of_withoutReturns ht
  induction h generalizing b' with
  | opens hopens hstring =>
      refine ⟨_, .opens (hk ▸ hopens) fun h => ?_, hb.openDelimited ht _⟩
      rw [hb.kind_eq]
      exact hstring h
  | closes hcloses houter =>
      obtain ⟨parent', rest', houter', hclosed⟩ := hb.closedDelimited houter ht
        (Token.withoutReturns_markerBefore ht .levelEnd)
      exact ⟨_, .closes (by rw [hk, hb.kind_eq]; exact hcloses) houter', hclosed⟩
  | child hopens hcloses hleaves =>
      refine ⟨_, .child ?_ ?_ ?_, hb.pushToken ht⟩ <;> rw [hk, hb.kind_eq] <;> assumption
  | escapes htemplate hleaves houter _ ih =>
      obtain ⟨parent', rest', houter', hclosed⟩ := hb.closedDelimited houter
        (Token.withoutReturns_markerBefore ht .templateEnd)
        (Token.withoutReturns_markerBefore ht .levelEnd)
      obtain ⟨c', hplaced, hc⟩ := ih hclosed
      exact ⟨c', .escapes (hb.kind_eq.trans htemplate) (hk ▸ hleaves) houter' hplaced, hc⟩

theorem Respelled.coalesce (h : b.Respelled b') (hb : b.EndsInValue) (hb' : b'.EndsInValue)
    (hprev : b.previous.kind = .stringValue) (ht : t'.withoutReturns = t.withoutReturns) :
    (b.coalesce t).Respelled (b'.coalesce t') := by
  have hprev' : b'.previous.kind = .stringValue :=
    (Token.kind_eq_of_withoutReturns h.previous).trans hprev
  obtain ⟨children, last, hchildren, hlast⟩ := hb hprev
  obtain ⟨children', last', hchildren', hlast'⟩ := hb' hprev'
  have hnodes := congrArg OpenTree.children h.current
  rw [OpenTree.withoutReturns, OpenTree.withoutReturns, hchildren, hchildren', Array.map_push,
    Array.map_push, Array.push_eq_push] at hnodes
  obtain ⟨hlasts, hnodes⟩ := hnodes
  have hmerge : (last'.merge t').withoutReturns = (last.merge t).withoutReturns := by
    rw [Token.withoutReturns_merge, Token.withoutReturns_merge, Node.token.inj hlasts, ht]
  rw [coalesce_of_back hchildren hlast, coalesce_of_back hchildren' hlast']
  refine { h with current := ?_, previous := hmerge }
  rw [OpenTree.withoutReturns, OpenTree.withoutReturns, Array.map_push, Array.map_push, hnodes,
    Node.withoutReturns, Node.withoutReturns, hmerge, h.kind_eq]
  exact congrArg (OpenTree.mk b.current.kind · _) (congrArg OpenTree.opening h.current)

/-- A token is accepted in the same way. -/
theorem Respelled.accept {c : Builder} (h : b.Respelled b') (hb : b.Shaped) (hb' : b'.Shaped)
    (hvalue : t.kind = .stringValue → b.EndsInValue)
    (hvalue' : t.kind = .stringValue → b'.EndsInValue)
    (ht : t'.withoutReturns = t.withoutReturns) (haccept : b.accept t = .ok c) :
    ∃ c', b'.accept t' = .ok c' ∧ c.Respelled c' := by
  unfold Builder.accept at haccept ⊢
  rw [Token.kind_eq_of_withoutReturns ht, Token.kind_eq_of_withoutReturns h.previous, h.kind_eq]
  split at haccept
  · next hmerge =>
    cases haccept
    rw [if_pos hmerge]
    simp only [Bool.and_eq_true, decide_eq_true_eq] at hmerge
    exact ⟨_, rfl, h.coalesce (hvalue hmerge.1.1) (hvalue' hmerge.1.1) hmerge.2 ht⟩
  · next hmerge =>
    obtain ⟨c, hplace, haccept⟩ := bind_eq_ok_iff.mp haccept
    cases haccept
    obtain ⟨c', hplaced, hc⟩ := (placed_of_place hb hplace).respelled h ht
    rw [if_neg hmerge, place_of_placed hb' hplaced]
    exact ⟨_, rfl, hc.withPrevious ht⟩

/-! ### Taking a token -/

theorem Respelled.waits (h : b.Respelled b') (ht : t'.withoutReturns = t.withoutReturns) :
    b'.Waits t' ↔ b.Waits t := by
  have hk := Token.kind_eq_of_withoutReturns ht
  constructor
  · intro hw
    exact ⟨hk ▸ hw.kind, h.indentBlocks ▸ hw.blocks, h.nesting ▸ hw.nesting,
      h.atLineStart ▸ hw.line⟩
  · intro hw
    exact ⟨hk.trans hw.kind, h.indentBlocks.trans hw.blocks, h.nesting.trans hw.nesting,
      h.atLineStart.trans hw.line⟩

/-- Where the indentation is settled in front of a string value, another one can still go on. -/
theorem Accounted.endsInValue_of_laid {us : List Token} {c : Builder} (hb : b.Accounted us)
    (hlaid : Laid t b c) (ht : t.kind = .stringValue) : c.EndsInValue := fun hprev =>
  hb.eq_of_laid hlaid ht hprev ▸ hb.endsInValue <| hb.eq_of_laid hlaid ht hprev ▸ hprev

/-- A token is taken in the same way. -/
theorem Respelled.meet_push (h : b.Respelled b') {us us' : List Token} (hb : b.Accounted us)
    (hb' : b'.Accounted us') (ht : t'.withoutReturns = t.withoutReturns)
    (hpos : t.kind.isTrivia = false → t.pos.Beside t'.pos)
    (hblank : b.Waits t → Spelled t.value t'.value) :
    Meet Respelled (b.push t) (b'.push t') := by
  have h₀ := h.begin ht
  by_cases hwaits : b.Waits t
  · rw [push_of_waits hwaits, push_of_waits ((h.waits ht).mpr hwaits)]
    exact .ok { h₀ with
      indent := h₀.indent.append (hblank hwaits)
      waiting := by simp [h₀.waiting, ht]
      previous := ht }
  · have hwaits' := mt (h.waits ht).mp hwaits
    have hnot := mt (waits_begin t).mp hwaits
    have hnot' := mt (waits_begin t').mp hwaits'
    have hb₀ := hb.begin t
    have hb₀' := hb'.begin t'
    rw [push_of_not_waits hwaits, push_of_not_waits hwaits']
    refine (h₀.settled hb₀.shaped hb₀'.shaped ht hpos hnot).bind fun c c' hc hc' hcc => ?_
    have hlaid := laid_of_settled hb₀.shaped hnot hc
    have hlaid' := laid_of_settled hb₀'.shaped hnot' hc'
    have hk := Token.kind_eq_of_withoutReturns ht
    obtain ⟨d, haccept⟩ := exists_accept (hlaid.shaped hb₀.shaped) t
    obtain ⟨d', haccept', hd⟩ := hcc.accept (hlaid.shaped hb₀.shaped) (hlaid'.shaped hb₀'.shaped)
      (hb₀.endsInValue_of_laid hlaid) (fun ht => hb₀'.endsInValue_of_laid hlaid' (hk.trans ht)) ht
      haccept
    rw [haccept, haccept']
    exact .ok hd

/-- A newline drops the indentation in front of it. -/
theorem push_newline_withIndent (hi : b.indentBlocks) (hn : b.nesting = 0)
    (ht : t.kind = .newline) (indent : String) :
    ({ b with indent } : Builder).push t = b.push t := by
  have hnot (b : Builder) : ¬ b.Waits t := fun h => by simpa [ht] using h.kind
  have hbegin : ({ b with indent } : Builder).begin t = { b.begin t with indent } := by
    unfold Builder.begin
    split <;> rfl
  obtain ⟨current, hcurrent⟩ := b.begin_eq t
  rw [push_of_not_waits (hnot _), push_of_not_waits (hnot _), hbegin, hcurrent]
  unfold Builder.settled
  rw [ht, if_pos (by simp [hi, hn]), if_pos (by simp [hi, hn])]
  rfl

theorem Accounted.withIndent {us : List Token} (hb : b.Accounted us) (indent : String) :
    Accounted { b with indent } us :=
  ⟨hb.shaped, hb.leaves, hb.waits, hb.line, hb.previous, hb.value⟩

/-- Before a newline, a blank that waits adds nothing to the indentation. -/
theorem Waits.push_newline (h : b.Waits t) {u : Token} (hu : u.kind = .newline) :
    (b.push t >>= (·.push u)) =
      Builder.push
        { b.begin t with waiting := (b.begin t).waiting ++ [t], previous := t } u := by
  have h₀ := (waits_begin t).mpr h
  rw [push_of_waits h]
  exact push_newline_withIndent (b := { b.begin t with
    waiting := (b.begin t).waiting ++ [t], previous := t }) h₀.blocks h₀.nesting hu _

/-- Blanks in front of a newline may take its carriage return: where they would wait for their
level, the newline drops them. -/
theorem Respelled.push_blank (h : b.Respelled b') {us us' : List Token} (hb : b.Accounted us)
    (hb' : b'.Accounted us') {u u' : Token} (ht : t.kind = .whitespace)
    (htt : t'.withoutReturns = t.withoutReturns) (hu : u.kind = .newline)
    (huu : u'.withoutReturns = u.withoutReturns) :
    Meet Respelled (b.push t >>= (·.push u)) (b'.push t' >>= (·.push u')) := by
  have hblank (b : Builder) (hw : b.Waits u) : Spelled u.value u'.value := by
    simpa [hu] using hw.kind
  have hline : u.kind.isTrivia = false → u.pos.Beside u'.pos := by simp [hu, TokenKind.isTrivia]
  by_cases hwaits : b.Waits t
  · have hwaits' := (h.waits htt).mpr hwaits
    have h₀ := h.begin htt
    have hc := (step_of_push hb.shaped (push_of_waits hwaits)).accounted hb
    have hc' := (step_of_push hb'.shaped (push_of_waits hwaits')).accounted hb'
    have hu' := (Token.kind_eq_of_withoutReturns huu).trans hu
    rw [hwaits.push_newline hu, hwaits'.push_newline hu']
    refine Respelled.meet_push ?_ (hc.withIndent (b.begin t).indent)
      (hc'.withIndent (b'.begin t').indent) huu hline (hblank _)
    exact { h₀ with
      waiting := by simp [h₀.waiting, htt]
      previous := htt }
  · refine (h.meet_push hb hb' htt (by simp [ht, TokenKind.isTrivia])
      fun hw => absurd hw hwaits).bind fun c c' hc hc' hcc => ?_
    exact hcc.meet_push ((step_of_push hb.shaped hc).accounted hb)
      ((step_of_push hb'.shaped hc').accounted hb') huu hline (hblank c)

/-! ### Taking all of them -/

/-- The tokens of both spellings are taken in the same way. -/
theorem Respelled.meet_foldlM (h : b.Respelled b') {ts ts' : List Token} (hts : Respells ts ts')
    {us us' : List Token} (hb : b.Accounted us) (hb' : b'.Accounted us') :
    Meet Respelled (ts.foldlM push b) (ts'.foldlM push b') := by
  induction hts generalizing b b' us us' with
  | nil => exact .ok h
  | @token t t' ts ts' ht _ ih =>
      rw [List.foldlM_cons, List.foldlM_cons]
      refine (h.meet_push hb hb' ht.bare (fun _ => ht.pos) fun _ => ⟨ht.free, ht.value⟩).bind
        fun c c' hc hc' hcc => ?_
      exact ih hcc ((step_of_push hb.shaped hc).accounted hb)
        ((step_of_push hb'.shaped hc').accounted hb')
  | @blank t t' n n' ts ts' ht htt hn hnn _ ih =>
      rw [List.foldlM_cons, List.foldlM_cons]
      simp only [List.foldlM_cons, ← bind_assoc]
      refine (h.push_blank hb hb' ht htt hn hnn).bind fun c c' hc hc' hcc => ?_
      obtain ⟨b₁, h₁, hc⟩ := bind_eq_ok_iff.mp hc
      obtain ⟨b₁', h₁', hc'⟩ := bind_eq_ok_iff.mp hc'
      have hb₁ := (step_of_push hb.shaped h₁).accounted hb
      have hb₁' := (step_of_push hb'.shaped h₁').accounted hb'
      exact ih hcc ((step_of_push hb₁.shaped hc).accounted hb₁)
        ((step_of_push hb₁'.shaped hc').accounted hb₁')
  | @value t u v ts ts' hu hv ht _ ih =>
      rw [List.foldlM_cons, List.foldlM_cons]
      simp only [List.foldlM_cons, ← bind_assoc]
      rw [hb'.push_merge hu hv]
      refine (h.meet_push hb hb' ht.bare (fun _ => ht.pos) fun _ => ⟨ht.free, ht.value⟩).bind
        fun c c' hc hc' hcc => ?_
      exact ih hcc ((step_of_push hb.shaped hc).accounted hb)
        ((step_of_push hb'.shaped hc').accounted hb')

/-! ### The end -/

/-- The levels that are still open are closed in the same way. -/
theorem Respelled.meet_closeAll {outer : List OpenTree} (h : b.Respelled b')
    (houter : b.outer = outer) :
    Meet Respelled (closeAll outer b) (closeAll b'.outer b') := by
  induction outer generalizing b b' with
  | nil =>
      have houters := h.outer
      rw [houter, List.map_nil, List.map_eq_nil_iff] at houters
      rw [houters]
      exact .ok h
  | cons parent rest ih =>
      have hmarks := h.marks (Token.withoutReturns_markerAfter h.previous .levelStart)
      have hkeeps (b : Builder) (marker : Token) :
          (if b.current.children.isEmpty then b.pushToken marker else b).outer = b.outer := by
        split <;> rfl
      obtain ⟨parent', rest', houter', hclosed⟩ := hmarks.closed ((hkeeps _ _).trans houter)
        (rfl : (none : Option Token).map Token.withoutReturns = none)
        (Token.withoutReturns_markerAfter h.previous .levelEnd)
      rw [hkeeps] at houter'
      rw [houter', closeAll_cons houter, closeAll_cons houter']
      exact ih hclosed rfl

theorem Respelled.meet_finish (h : b.Respelled b') :
    Meet (fun s t => t.withoutReturns = s.withoutReturns) b.finish b'.finish := by
  refine (h.flush.meet_closeAll rfl).bind fun c c' _ _ hc => .ok ?_
  apply OpenTree.withoutReturns_tree
  rw [OpenTree.withoutReturns_push, OpenTree.withoutReturns_push, hc.current, Node.withoutReturns,
    Node.withoutReturns, Token.withoutReturns_markerAfter hc.previous]

end Builder

/-- The tokens of both spellings have the same tree, up to carriage returns. -/
theorem Tree.meet_ofTokens (layout : Layout) {ts ts' : List Token} (h : Respells ts ts') :
    Meet (fun s t => t.withoutReturns = s.withoutReturns) (Tree.ofTokens layout ts)
      (Tree.ofTokens layout ts') := by
  have hstart := Builder.accounted_start layout
  exact ((Builder.respelled_start layout).meet_foldlM h hstart hstart).bind
    fun _ _ _ _ hb => hb.meet_finish

end Nesting
