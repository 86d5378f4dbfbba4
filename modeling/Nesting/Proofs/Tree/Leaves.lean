import Nesting.Proofs.Tree.Levels
import Nesting.Proofs.Tree.Values

/-! # The leaves of a tree that was built

A tree has the tokens that it was built from, in their order: its leaves are the tokens with runs
of string values merged, up to markers and to template ends without text
(`Tree.leaves_ofTokens`).

While a tree is built, the tokens are the leaves of the open levels, the outermost first, and then
the blanks that wait (`Builder.leaves`).  Every function of the builder keeps this account, and
`Builder.Accounted` says what it rests on: blanks wait only at the start of a line, and a string
value that can go on is the last leaf of the innermost level. -/

namespace Nesting

/-- A template end without text: it was made up, by the lexer or by the builder. -/
def Token.isImplicitEnd (t : Token) : Bool := t.kind = .templateEnd && t.isZeroWidth

/-- A token other than markers and template ends without text. -/
def Token.isContent (t : Token) : Bool := !t.kind.isMarker && !t.isImplicitEnd

/-- The tokens among some that are content. -/
def content (ts : List Token) : List Token := ts.filter Token.isContent

@[simp] theorem content_nil : content [] = [] := rfl

@[simp] theorem content_append (ts us : List Token) :
    content (ts ++ us) = content ts ++ content us := List.filter_append ts us

theorem content_marker {m : Token} (h : m.kind.isMarker) : content [m] = [] := by
  simp [content, Token.isContent, h]

theorem content_markerBefore_templateEnd (t : Token) : content [t.markerBefore .templateEnd] = [] :=
  rfl

/-! ### The leaves of open levels -/

/-- The leaves of an open level so far. -/
def OpenTree.leaves (t : OpenTree) : List Token :=
  t.opening.toList ++ Node.leavesAll t.children.toList

@[simp] theorem Node.leavesAll_singleton (n : Node) : Node.leavesAll [n] = n.leaves := by
  rw [leavesAll, leavesAll, List.append_nil]

@[simp] theorem Node.leavesAll_map_token (ts : List Token) :
    Node.leavesAll (ts.map .token) = ts := by
  induction ts with
  | nil => rfl
  | cons t ts ih => rw [List.map_cons, leavesAll, ih, leaves, List.singleton_append]

@[simp] theorem OpenTree.leaves_push (t : OpenTree) (n : Node) :
    (t.push n).leaves = t.leaves ++ n.leaves := by
  simp [leaves, push, Node.leavesAll_append]

@[simp] theorem OpenTree.leaves_close (t : OpenTree) (closing : Option Token) :
    (t.close closing).leaves = t.leaves ++ closing.toList := rfl

namespace Builder

/-- The leaves of levels, the innermost first. -/
def levelLeaves : List OpenTree → List Token
  | [] => []
  | t :: outer => levelLeaves outer ++ t.leaves

/-- The tokens of a builder: the leaves of the levels, and the blanks that wait. -/
def leaves (b : Builder) : List Token := levelLeaves (b.current :: b.outer) ++ b.waiting

/-! ### Small steps -/

@[simp] theorem levelLeaves_push (t : OpenTree) (n : Node) (outer : List OpenTree) :
    levelLeaves (t.push n :: outer) = levelLeaves (t :: outer) ++ n.leaves := by
  simp [levelLeaves]

theorem leaves_pushToken (b : Builder) (t : Token) :
    (b.pushToken t).leaves = levelLeaves (b.current :: b.outer) ++ [t] ++ b.waiting := by
  unfold leaves pushToken pushNode
  rw [levelLeaves_push]
  rfl

theorem leaves_flush (b : Builder) : b.flush.leaves = b.leaves := by
  simp [leaves, flush, levelLeaves, OpenTree.leaves, Node.leavesAll_append]

theorem leaves_openDelimited {b : Builder} (hw : b.waiting = []) (k : TreeKind) (t : Token) :
    (b.openDelimited k t).leaves = b.leaves ++ [t] := by
  simp [leaves, openDelimited, openLevel, levelLeaves, OpenTree.leaves, Node.leavesAll, hw]

theorem content_closed {b : Builder} {parent : OpenTree} {rest : List OpenTree}
    (h : b.outer = parent :: rest) (closing : Option Token) {marker : Token}
    (hm : marker.kind.isMarker) :
    content (b.closed closing marker parent rest).leaves =
      content (levelLeaves (b.current :: b.outer)) ++ content closing.toList ++
        content b.waiting := by
  have hleaves : (b.closed closing marker parent rest).leaves =
      levelLeaves (b.current :: b.outer) ++ [marker] ++ closing.toList ++ b.waiting := by
    simp [leaves, closed, levelLeaves, h, Node.leaves]
  rw [hleaves, content_append, content_append, content_append, content_marker hm, List.append_nil]

theorem content_openBlock (b : Builder) (t : Token) (indent : String) :
    content (b.openBlock t indent).leaves = content b.leaves := by
  have hleaves : (b.openBlock t indent).leaves =
      levelLeaves (b.current :: b.outer) ++ [t.markerBefore .levelStart] ++ b.waiting := by
    simp [leaves, openBlock, levelLeaves, OpenTree.leaves, Node.leavesAll, Node.leaves]
  rw [hleaves, leaves, content_append, content_append, content_marker rfl,
    List.append_nil, content_append]

theorem content_begin (b : Builder) (t : Token) :
    content (b.begin t).leaves = content b.leaves := by
  unfold begin
  split
  · rw [leaves_pushToken, leaves, content_append, content_append, content_marker rfl,
      List.append_nil, content_append]
  · rfl

/-! ### Placing a token -/

theorem Placed.content_leaves {b b' : Builder} {t : Token} (h : Placed t b b')
    (hw : b.waiting = []) : content b'.leaves = content b.leaves ++ content [t] := by
  induction h with
  | opens _ _ => rw [leaves_openDelimited hw, content_append]
  | closes _ houter =>
      refine (content_closed houter (some t) rfl).trans ?_
      rw [leaves, hw, List.append_nil, content_nil, List.append_nil]
      rfl
  | child _ _ _ =>
      rw [leaves_pushToken, leaves, hw, List.append_nil, List.append_nil, content_append]
  | escapes _ _ houter _ ih =>
      rw [ih hw]
      refine congrArg (· ++ content [t]) ((content_closed houter _ rfl).trans ?_)
      rw [Option.toList_some, content_markerBefore_templateEnd, leaves, content_append,
        List.append_nil]

theorem Placed.back_of_stringValue {b b' : Builder} {t : Token} (h : Placed t b b')
    (hb : b.Shaped) (ht : t.kind = .stringValue) :
    b'.current.kind ≠ .template ∧
      ∃ children : Array Node, b'.current.children = children.push (.token t) := by
  induction h with
  | opens h _ => simp [ht, TokenKind.opens?] at h
  | closes h _ => simp [ht, TokenKind.closes?] at h
  | child _ _ hk => exact ⟨fun he => hk ⟨he, by rw [ht]; rfl⟩, _, rfl⟩
  | escapes hk _ houter _ ih => exact ih (hb.closedDelimited houter (by rw [hk]; rfl) _ _)

/-! ### Indentation -/

theorem Unblocked.content_leaves {b b' : Builder} {t : Token} (h : Unblocked t b b') :
    content b'.leaves = content b.leaves := by
  induction h with
  | done => rfl
  | close _ houter _ ih =>
      rw [ih, content_closed houter none rfl, leaves, content_append]
      simp

theorem Laid.content_leaves {b b' : Builder} {t : Token} (h : Laid t b b') :
    content b'.leaves = content b.leaves := by
  cases h with
  | inside _ => rfl
  | newline _ _ _ => exact congrArg content (leaves_flush b)
  | comment _ _ _ _ => exact congrArg content (leaves_flush b)
  | @stays b₁ _ _ _ _ hun _ =>
      have hflush := congrArg content (leaves_flush b₁)
      exact hflush.trans hun.content_leaves
  | @opens b₁ _ _ _ _ hun _ _ _ =>
      have hopen := content_openBlock b₁ t b.indent
      exact hopen.trans hun.content_leaves

/-! ### The account -/

/-- The tokens of a builder are those that it has taken. -/
structure Accounted (b : Builder) (ts : List Token) : Prop where
  shaped : b.Shaped
  leaves : content b.leaves = content (mergeValues ts)
  /-- Blanks wait at the start of a line. -/
  waits : b.waiting ≠ [] → b.indentBlocks ∧ b.atLineStart
  /-- A line starts outside all delimiters. -/
  line : b.indentBlocks → b.atLineStart → b.nesting = 0
  previous : b.previous.kind = .stringValue ↔ ts.getLast?.map Token.kind = some .stringValue
  /-- A string value that can go on is the last leaf. -/
  value : b.previous.kind = .stringValue →
    (b.indentBlocks → b.atLineStart = false) ∧ b.current.kind ≠ .template ∧
    ∃ (children : Array Node) (earlier : List Token) (last : Token),
      b.current.children = children.push (.token last) ∧ last.kind = .stringValue ∧
      mergeValues ts = earlier ++ [last]

theorem accounted_start (layout : Layout) : (start layout).Accounted [] where
  shaped := shaped_start layout
  leaves := rfl
  waits h := absurd rfl h
  line _ _ := rfl
  previous := by simp [start, Token.marker]
  value h := by simp [start, Token.marker] at h

theorem Accounted.begin {b : Builder} {ts : List Token} (hb : b.Accounted ts) (t : Token) :
    (b.begin t).Accounted ts := by
  have hleaves := (content_begin b t).trans hb.leaves
  by_cases hempty : b.current.children.isEmpty
  · have hbegin : b.begin t = b.pushToken (t.markerBefore .levelStart) := by
      rw [Builder.begin, if_pos hempty]
    refine ⟨hb.shaped.begin t, hleaves, ?_, ?_, ?_, ?_⟩ <;> rw [hbegin]
    · exact hb.waits
    · exact hb.line
    · exact hb.previous
    · intro hprev
      obtain ⟨-, -, children, _, _, hchildren, -⟩ := hb.value hprev
      simp [hchildren] at hempty
  · have hbegin : b.begin t = b := by rw [Builder.begin, if_neg hempty]
    rw [hbegin]
    exact hb

theorem leaves_of_back {b : Builder} {children : Array Node} {last : Token}
    (hw : b.waiting = []) (hchildren : b.current.children = children.push (.token last)) :
    b.leaves = levelLeaves b.outer ++ b.current.opening.toList ++
      Node.leavesAll children.toList ++ [last] := by
  simp [leaves, levelLeaves, OpenTree.leaves, hw, hchildren, Node.leavesAll_append, Node.leaves]

theorem lastKind_concat (ts : List Token) (t : Token) :
    (ts ++ [t]).getLast?.map Token.kind = some t.kind := by
  rw [List.getLast?_concat]
  rfl

theorem Accounted.waiting_eq_nil_of_value {b : Builder} {ts : List Token} (hb : b.Accounted ts)
    (hprev : b.previous.kind = .stringValue) : b.waiting = [] := by
  by_contra hw
  obtain ⟨hi, hl⟩ := hb.waits hw
  simp [(hb.value hprev).1 hi] at hl

theorem Accounted.eq_of_laid {b b' : Builder} {ts : List Token} (hb : b.Accounted ts) {t : Token}
    (hlaid : Laid t b b') (ht : t.kind = .stringValue)
    (hprev : b'.previous.kind = .stringValue) : b' = b := by
  have hprev₀ : b.previous.kind = .stringValue := by
    obtain ⟨_, _, _, _, _, _, rfl⟩ := hlaid.frame
    exact hprev
  exact hlaid.eq_self (hb.value hprev₀).1 (by simp [ht])

theorem Accounted.merges {b : Builder} {ts : List Token} (hb : b.Accounted ts) {t : Token}
    (ht : t.kind = .stringValue) (hprev : b.previous.kind = .stringValue) :
    (b.coalesce t).Accounted (ts ++ [t]) := by
  obtain ⟨hline, hkind, children, earlier, last, hchildren, hlast, hts⟩ := hb.value hprev
  have hw := hb.waiting_eq_nil_of_value hprev
  have hleaves := hb.leaves
  rw [leaves_of_back hw hchildren, hts, content_append _ [last], content_append earlier,
    List.append_left_inj] at hleaves
  have hmerged : mergeValues (ts ++ [t]) = earlier ++ [last.merge t] :=
    mergeValues_concat_value ht hlast hts
  rw [coalesce_of_back hchildren hlast t]
  have hback : Builder.leaves { b with
        current := { b.current with children := children.push (.token (last.merge t)) }
        previous := last.merge t } =
      levelLeaves b.outer ++ b.current.opening.toList ++ Node.leavesAll children.toList ++
        [last.merge t] := leaves_of_back hw rfl
  refine ⟨hb.shaped, ?_, hb.waits, hb.line, ?_, ?_⟩
  · rw [hback, content_append _ [last.merge t], hmerged, content_append earlier, hleaves]
  · rw [lastKind_concat, ht]
    exact ⟨fun _ => rfl, fun _ => hlast⟩
  · exact fun _ => ⟨hline, hkind, children, earlier, _, rfl, hlast, hmerged⟩

theorem Accounted.places {b b₁ b₂ : Builder} {ts : List Token} (hb : b.Accounted ts) {t : Token}
    (hlaid : Laid t b b₁) (hb₁ : b₁.Shaped)
    (hnew : ¬ (t.kind = .stringValue ∧ b₁.current.kind ≠ .template ∧
      b₁.previous.kind = .stringValue))
    (hplaced : Placed t b₁ b₂) : Accounted { b₂ with previous := t } (ts ++ [t]) := by
  have hw := hlaid.waiting_eq_nil hb.waits hb.line
  have hline := hlaid.atLineStart_eq hb.line
  have hmerge : mergeValues (ts ++ [t]) = mergeValues ts ++ [t] := by
    refine mergeValues_concat ?_
    rintro ⟨hlast, ht⟩
    have hprev := hb.previous.mpr hlast
    obtain ⟨hline, hkind, -⟩ := hb.value hprev
    rw [hlaid.eq_self hline (by simp [ht])] at hnew
    exact hnew ⟨ht, hkind, hprev⟩
  have hleaves : content b₂.leaves = content (mergeValues (ts ++ [t])) := by
    rw [hplaced.content_leaves hw, hlaid.content_leaves, hb.leaves, hmerge, content_append]
  have hi : b₂.indentBlocks = b.indentBlocks := by
    obtain ⟨_, _, _, rfl⟩ := hplaced.frame
    obtain ⟨_, _, _, _, _, _, rfl⟩ := hlaid.frame
    rfl
  have hl : b₂.atLineStart = b₁.atLineStart := by
    obtain ⟨_, _, _, rfl⟩ := hplaced.frame
    rfl
  have hw₂ : b₂.waiting = [] := by
    obtain ⟨_, _, _, rfl⟩ := hplaced.frame
    exact hw
  refine ⟨hplaced.shaped hb₁, hleaves, fun h => absurd hw₂ h, ?_, ?_, ?_⟩
  · intro hblocks hstart
    rcases hline with hline | ⟨hn, ht⟩
    · rw [hl, hline (hi ▸ hblocks)] at hstart
      cases hstart
    · -- Neither a line's end nor a comment opens or closes a level.
      have hchild : b₂ = b₁.pushToken t := by
        refine hplaced.eq_pushToken ?_ ?_ ?_ <;> rcases ht with ht | ht <;> rw [ht] <;> rfl
      rw [hchild]
      exact hn
  · rw [lastKind_concat]
    exact ⟨fun h => congrArg some h, fun h => Option.some.inj h⟩
  · intro ht
    obtain ⟨hkind, children, hchildren⟩ := hplaced.back_of_stringValue hb₁ ht
    refine ⟨fun hblocks => ?_, hkind, children, mergeValues ts, t, hchildren, ht, hmerge⟩
    rcases hline with hline | ⟨_, hnl | hcomment⟩
    · exact hl.trans (hline (hi ▸ hblocks))
    · exact absurd (ht.symm.trans hnl) (by decide)
    · exact absurd (ht.symm.trans hcomment) (by decide)

/-- Every token is accounted for. -/
theorem Step.accounted {b b' : Builder} {t : Token} {ts : List Token} (h : Step t b b')
    (hb : b.Accounted ts) : b'.Accounted (ts ++ [t]) := by
  have hb₀ := hb.begin t
  cases h with
  | @waits b₀ hbegin hi hn hl ht =>
      rw [← hbegin] at hb₀
      have hnew : ¬ (ts.getLast?.map Token.kind = some .stringValue ∧ t.kind = .stringValue) := by
        simp [ht]
      refine ⟨hb₀.shaped, ?_, fun _ => ⟨hi, hl⟩, hb₀.line, ?_, ?_⟩
      · rw [mergeValues_concat hnew, content_append, ← hb₀.leaves, ← content_append]
        exact congrArg content (List.append_assoc _ b₀.waiting [t]).symm
      · rw [lastKind_concat]
        exact ⟨fun h => congrArg some h, fun h => Option.some.inj h⟩
      · exact fun h => absurd (ht.symm.trans h) (by decide)
  | merges hlaid ht _ hprev =>
      obtain rfl := hb₀.eq_of_laid hlaid ht hprev
      exact hb₀.merges ht hprev
  | places hlaid hb₁ hnew hplaced => exact hb₀.places hlaid hb₁ hnew hplaced

theorem accounted_of_foldlM {layout : Layout} {tokens : List Token} {b : Builder}
    (h : tokens.foldlM push (start layout) = .ok b) : b.Accounted tokens := by
  refine foldlM_induction (P := fun ts b => b.Accounted ts) (accounted_start layout) ?_ h
  intro ts t _ b b' hb hpush
  exact (step_of_push hb.shaped hpush).accounted hb

/-! ### The end -/

theorem Ended.content_leaves {b b' : Builder} (h : Ended b b') :
    b'.waiting = b.waiting ∧ content b'.leaves = content b.leaves := by
  induction h with
  | done _ => exact ⟨rfl, rfl⟩
  | marks _ ih =>
      refine ⟨ih.1, ih.2.trans ?_⟩
      rw [leaves_pushToken, leaves, content_append, content_append, content_marker rfl,
        List.append_nil, content_append]
  | close houter _ ih =>
      refine ⟨ih.1, ih.2.trans ?_⟩
      rw [content_closed houter none rfl, leaves, content_append]
      simp

theorem content_of_finish {b : Builder} {tree : Tree} (h : b.finish = .ok tree) :
    content tree.toNode.leaves = content b.leaves := by
  obtain ⟨b', hended, rfl⟩ := exists_ended_of_finish h
  obtain ⟨hwaits, hcontent⟩ := hended.content_leaves
  have hleaves : b'.leaves = b'.current.leaves := by
    simp [leaves, levelLeaves, hended.outer_eq_nil, hwaits, flush]
  rw [leaves_flush, hleaves] at hcontent
  rw [← hcontent]
  show content ((b'.current.push (.token (b'.previous.markerAfter .levelEnd))).leaves ++ []) = _
  rw [List.append_nil, OpenTree.leaves_push, Node.leaves, content_append, content_marker rfl,
    List.append_nil]

end Builder

/-- Exactly the tokens are the leaves of their tree, in order, with runs of string values merged.
Markers, and template ends without text, are not counted. -/
theorem Tree.leaves_ofTokens {layout : Layout} {tokens : List Token} {tree : Tree}
    (hmarkers : ∀ t ∈ tokens, t.kind.isMarker = false)
    (h : Tree.ofTokens layout tokens = .ok tree) :
    (tree.toNode.leaves.filter fun t => !t.kind.isMarker && !t.isImplicitEnd) =
      (mergeValues tokens).filter fun t => !t.isImplicitEnd := by
  obtain ⟨b, hrun, hfinish⟩ := bind_eq_ok_iff.mp h
  have haccount := (Builder.accounted_of_foldlM hrun).leaves
  have hkept : content (mergeValues tokens) =
      (mergeValues tokens).filter fun t => !t.isImplicitEnd := by
    refine List.filter_congr fun u hu => ?_
    obtain ⟨t, ht, hkind⟩ := exists_kind_of_mem_mergeValues hu
    rw [Token.isContent, hkind, hmarkers t ht]
    rfl
  rw [← hkept, ← haccount]
  exact Builder.content_of_finish hfinish

/-- An indented string whose template is closed by the text after it. -/
def indentedString : List Token :=
  [.make .symbol "a" ⟨0, 1, 1⟩, .make .newline "\n" ⟨1, 1, 2⟩, .make .whitespace "  " ⟨2, 2, 1⟩,
   .make .stringStart "'" ⟨4, 2, 3⟩, .make .stringValue "x" ⟨5, 2, 4⟩,
   .make .stringValue "\n" ⟨6, 2, 5⟩, .make .templateStart "$" ⟨7, 3, 1⟩,
   .make .templateEnd "" ⟨8, 3, 2⟩, .make .templateStart "$" ⟨8, 3, 2⟩,
   .make .stringValue "y" ⟨9, 3, 3⟩, .make .stringEnd "'" ⟨10, 3, 4⟩]

theorem Tree.leaves_ofTokens_indentedString :
    (∀ t ∈ indentedString, t.kind.isMarker = false) ∧
    ∃ tree, Tree.ofTokens { indentBlocks := true } indentedString = .ok tree ∧
      (tree.toNode.leaves.filter fun t => !t.kind.isMarker && !t.isImplicitEnd) =
        ((mergeValues indentedString).filter fun t => !t.isImplicitEnd) ∧
      ((mergeValues indentedString).map Token.value) =
        ["a", "\n", "  ", "'", "x\n", "$", "", "$", "y", "'"] := by
  have hmarkers : ∀ t ∈ indentedString, t.kind.isMarker = false := by decide
  obtain ⟨tree, h⟩ : ∃ tree, Tree.ofTokens { indentBlocks := true } indentedString = .ok tree :=
    ⟨_, rfl⟩
  exact ⟨hmarkers, tree, h, leaves_ofTokens hmarkers h, by decide⟩

end Nesting
