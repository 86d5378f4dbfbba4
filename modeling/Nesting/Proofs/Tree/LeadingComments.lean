import Nesting.Proofs.Tree.BlankLines

/-! # Comments in front of code

A comment at the start of a line takes its place at once, and with it the blanks in front of it: in
the innermost level there is, whatever the line does.  The indentation of the line is then that
behind the comment, as if the line began there.  So blanks and a comment can be inserted in front of
a line as a line of its own can be, and nothing else changes.

It is another matter to insert a comment and a blank behind the blanks that a line begins with.
Then the line has another indentation, and its own blanks are where the line before it is.  The
tree stays the same only if the line goes on in the innermost block, and the blank behind the
comment repeats the indent of this block (`Tree.agree_ofTokens_of_leadingComment`).  That it stays
the same in no other case is seen from the leaves with their markers: blocks that are closed or
opened leave a marker between the comment and the code. -/

namespace Nesting

/-- Two texts none of which begins the other one. -/
def PartWays (i j : String) : Prop := ¬ i.toList <+: j.toList ∧ ¬ j.toList <+: i.toList

instance (i j : String) : Decidable (PartWays i j) := inferInstanceAs (Decidable (_ ∧ _))

/-! ### Leaves and inserted tokens -/

namespace Node

mutual

theorem Inserted.exists_leaves {ts : List Token} : ∀ {n n' : Node}, n.Inserted ts n' →
    ∃ xs ys, n.leaves = xs ++ ys ∧ n'.leaves = xs ++ ts ++ ys
  | .tree _ opening closing _, .tree _ _ _ _, .tree h => by
      obtain ⟨xs, ys, hns, hns'⟩ := h.exists_leavesAll
      refine ⟨opening.toList ++ xs, ys ++ closing.toList, ?_, ?_⟩
      · rw [leaves, hns]
        simp
      · rw [leaves, hns']
        simp

theorem InsertedAll.exists_leavesAll {ts : List Token} : ∀ {ns ns' : List Node},
    InsertedAll ts ns ns' → ∃ xs ys, leavesAll ns = xs ++ ys ∧ leavesAll ns' = xs ++ ts ++ ys
  | _, _, @InsertedAll.here _ ns ms _ => by
      refine ⟨leavesAll ns, leavesAll ms, leavesAll_append ns ms, ?_⟩
      rw [leavesAll_append, leavesAll_append, leavesAll_map_token]
  | _, _, @InsertedAll.inside _ ns _ _ ms h => by
      obtain ⟨xs, ys, hn, hn'⟩ := h.exists_leaves
      refine ⟨leavesAll ns ++ xs, ys ++ leavesAll ms, ?_, ?_⟩
      · rw [leavesAll_append, leavesAll, hn]
        simp
      · rw [leavesAll_append, leavesAll, hn']
        simp

end

mutual

/-- Places do not matter for the kinds of leaves. -/
theorem kinds_unpositioned (n : Node) :
    n.unpositioned.leaves.map Token.kind = n.leaves.map Token.kind := by
  cases n with
  | token t => rfl
  | tree kind opening closing children =>
      have hkind (t : Option Token) :
          (t.map Token.unpositioned).toList.map Token.kind = t.toList.map Token.kind := by
        cases t <;> rfl
      rw [unpositioned, leaves, leaves]
      simp only [List.map_append, hkind, kinds_unpositionedAll children]

theorem kinds_unpositionedAll (ns : List Node) :
    (leavesAll (unpositionedAll ns)).map Token.kind = (leavesAll ns).map Token.kind := by
  cases ns with
  | nil => rfl
  | cons n ns =>
      rw [unpositionedAll, leavesAll, leavesAll, List.map_append, List.map_append,
        kinds_unpositioned n, kinds_unpositionedAll ns]

end

end Node

namespace Builder

/-! ### Leaves and markers -/

theorem levelLeaves_closed {b : Builder} {parent : OpenTree} {rest : List OpenTree}
    (h : b.outer = parent :: rest) (marker : Token) :
    levelLeaves ((b.closed none marker parent rest).current :: rest) =
      levelLeaves (b.current :: b.outer) ++ [marker] := by
  simp [closed, levelLeaves, h, Node.leaves]

theorem levelLeaves_extend (t : OpenTree) (ts : List Token) (outer : List OpenTree) :
    levelLeaves (t.extend (ts.map .token) :: outer) = levelLeaves (t :: outer) ++ ts := by
  simp [levelLeaves, OpenTree.leaves, OpenTree.extend, Node.leavesAll_append]

/-- Closing blocks adds markers, unless the levels stay as they are. -/
theorem Unblocked.exists_markers {b b' : Builder} {t : Token} (h : Unblocked t b b') :
    ∃ ms : List Token, (∀ m ∈ ms, m.kind.isMarker) ∧
      levelLeaves (b'.current :: b'.outer) = levelLeaves (b.current :: b.outer) ++ ms ∧
      (ms = [] → b'.kinds = b.kinds) := by
  induction h with
  | done => exact ⟨[], List.forall_mem_nil _, (List.append_nil _).symm, fun _ => rfl⟩
  | @close b b' parent rest _ houter _ ih =>
      obtain ⟨ms, hms, hleaves, -⟩ := ih
      have hclosed := levelLeaves_closed houter (t.markerBefore .levelEnd)
      refine ⟨t.markerBefore .levelEnd :: ms, List.forall_mem_cons.mpr ⟨rfl, hms⟩, ?_, nofun⟩
      rw [hleaves]
      exact (congrArg (· ++ ms) hclosed).trans (List.append_assoc _ _ _)

theorem topIndent_of_kinds {b b' : Builder} (hb : b.Shaped) (hb' : b'.Shaped) {indent : String}
    (hindents : b'.indents = b.indents.filter fun j => j.toList <+: indent.toList)
    (hkinds : b'.kinds = b.kinds) : b'.topIndent = b.topIndent := by
  have hlength : b'.indents.length = b.indents.length := by
    have hcount : b.kinds.count .block = b.indents.length := Shape.count_block hb
    have hcount' : b'.kinds.count .block = b'.indents.length := Shape.count_block hb'
    rw [← hcount, ← hcount', hkinds]
  have hsub : b'.indents.Sublist b.indents := hindents ▸ List.filter_sublist
  rw [topIndent, topIndent, hsub.eq_of_length hlength]

/-- A line that does not go on in the innermost block has markers in front of its blanks. -/
theorem exists_markers_of_resolveIndent {b b' : Builder} {t : Token} (hb : b.Shaped)
    (hn : b.nesting = 0) (hne : b.indent ≠ b.topIndent) (h : b.resolveIndent t = .ok b') :
    ∃ ms : List Token, ms ≠ [] ∧ (∀ m ∈ ms, m.kind.isMarker) ∧
      b'.leaves = levelLeaves (b.current :: b.outer) ++ ms ++ b.waiting := by
  obtain ⟨b₁, hun, hb₁, hindents, rfl⟩ := exists_unblocked hb hn h
  obtain ⟨ms, hms, hleaves, hkinds⟩ := hun.exists_markers
  have hwaiting : b₁.waiting = b.waiting := by
    obtain ⟨_, _, _, rfl⟩ := hun.frame
    rfl
  split
  · next heq =>
    have hclosed : ms ≠ [] := fun hnil =>
      hne (heq.trans (topIndent_of_kinds hb hb₁ hindents (hkinds hnil)))
    refine ⟨ms, hclosed, hms, ?_⟩
    rw [leaves_flush, leaves, hleaves, hwaiting]
  · refine ⟨ms ++ [t.markerBefore .levelStart], by simp, ?_, ?_⟩
    · exact List.forall_mem_append.mpr ⟨hms, List.forall_mem_singleton.mpr rfl⟩
    · have hopen : (b₁.openBlock t b.indent).leaves =
          levelLeaves (b₁.current :: b₁.outer) ++ [t.markerBefore .levelStart] ++ b₁.waiting := by
        simp [leaves, openBlock, levelLeaves, OpenTree.leaves, Node.leavesAll, Node.leaves]
      rw [hopen, hleaves, hwaiting]
      simp

theorem resolveIndent_of_topIndent {b : Builder} (h : b.indent = b.topIndent) (t : Token) :
    b.resolveIndent t = .ok ({ b with indent := "" } : Builder).flush := by
  unfold resolveIndent
  exact if_pos h

/-- Outside all delimiters a token becomes the last leaf. -/
theorem leaves_of_accept {b b' : Builder} {t : Token} (hb : b.Shaped)
    (hk : b.current.kind.isDelimited = false) (hprev : b.previous.kind ≠ .stringValue)
    (hw : b.waiting = []) (h : b.accept t = .ok b') : b'.leaves = b.leaves ++ [t] := by
  unfold accept at h
  rw [if_neg (by simp [hprev])] at h
  obtain ⟨b₁, hplace, h⟩ := bind_eq_ok_iff.mp h
  cases h
  cases placed_of_place hb hplace with
  | opens _ _ => exact leaves_openDelimited hw _ t
  | closes hcloses _ => simp [isDelimited_of_closes? hcloses] at hk
  | child _ _ _ =>
      have hpush := leaves_pushToken b t
      have hleaves : b.leaves = levelLeaves (b.current :: b.outer) := by
        rw [leaves, hw, List.append_nil]
      rw [hw, List.append_nil, ← hleaves] at hpush
      exact hpush
  | escapes htemplate _ _ _ =>
      rw [htemplate] at hk
      cases hk

/-- The leaves behind the first token of a line: there is no marker in front of its blanks exactly
if it goes on in the innermost block. -/
theorem AtStart.exists_markers_of_push {b b' : Builder} (h : b.AtStart) {t : Token}
    (ht : t.kind.isTrivia = false) (hpush : b.push t = .ok b') :
    ∃ ms : List Token, (∀ m ∈ ms, m.kind.isMarker) ∧ (ms = [] ↔ b.indent = b.topIndent) ∧
      b'.leaves = levelLeaves (b.current :: b.outer) ++ ms ++ b.waiting ++ [t] := by
  rw [h.push_eq ht] at hpush
  obtain ⟨b₁, hresolve, haccept⟩ := bind_eq_ok_iff.mp hpush
  have hlaid := laid_of_resolveIndent h.shaped h.blocks h.nesting h.line ht hresolve
  have hb₁ := hlaid.shaped h.shaped
  obtain ⟨_, _, _, _, _, _, hframe⟩ := hlaid.frame
  have hn : b₁.nesting = 0 := (congrArg Builder.nesting hframe).trans h.nesting
  have hprevious : b₁.previous = b.previous := (congrArg Builder.previous hframe :)
  have hprev : b₁.previous.kind ≠ .stringValue := hprevious ▸ h.previous
  have hk : b₁.current.kind.isDelimited = false :=
    Bool.eq_false_iff.mpr fun hk => hb₁.isDelimited_iff.mp hk hn
  have hw : b₁.waiting = [] :=
    hlaid.waiting_eq_nil (fun _ => ⟨h.blocks, h.line⟩) fun _ _ => h.nesting
  have hleaves : b'.leaves = b₁.leaves ++ [t] :=
    leaves_of_accept (b := { b₁ with atLineStart := false }) hb₁ hk hprev hw haccept
  by_cases htop : b.indent = b.topIndent
  · obtain rfl := Except.ok.inj ((resolveIndent_of_topIndent htop t).symm.trans hresolve)
    refine ⟨[], List.forall_mem_nil _, iff_of_true rfl htop, ?_⟩
    rw [hleaves, leaves_flush, List.append_nil]
    rfl
  · obtain ⟨ms, hne, hms, hresolved⟩ :=
      exists_markers_of_resolveIndent h.shaped h.nesting htop hresolve
    exact ⟨ms, hms, iff_of_false hne htop, by rw [hleaves, hresolved]⟩

theorem Ended.exists_markers {b b' : Builder} (h : Ended b b') (hw : b.waiting = []) :
    b'.waiting = [] ∧
      ∃ ms : List Token, (∀ m ∈ ms, m.kind.isMarker) ∧ b'.leaves = b.leaves ++ ms := by
  induction h with
  | done _ => exact ⟨hw, [], nofun, (List.append_nil _).symm⟩
  | @marks b b' _ ih =>
      obtain ⟨hw', ms, hms, hleaves⟩ := ih hw
      refine ⟨hw', b.previous.markerAfter .levelStart :: ms,
        List.forall_mem_cons.mpr ⟨rfl, hms⟩, ?_⟩
      rw [hleaves, leaves_pushToken, leaves, hw]
      simp
  | @close b b' parent rest houter _ ih =>
      obtain ⟨hw', ms, hms, hleaves⟩ := ih hw
      have hclosed := levelLeaves_closed houter (b.previous.markerAfter .levelEnd)
      refine ⟨hw', b.previous.markerAfter .levelEnd :: ms,
        List.forall_mem_cons.mpr ⟨rfl, hms⟩, ?_⟩
      rw [hleaves, leaves, leaves, hw, List.append_nil]
      have hsame : (b.closed none (b.previous.markerAfter .levelEnd) parent rest).waiting = [] := hw
      rw [hsame, List.append_nil]
      exact (congrArg (· ++ ms) hclosed).trans (List.append_assoc _ _ _)

/-- Only markers come behind the last token. -/
theorem exists_markers_of_finish {b : Builder} {tree : Tree} (h : b.finish = .ok tree) :
    ∃ ms : List Token, (∀ m ∈ ms, m.kind.isMarker) ∧ tree.toNode.leaves = b.leaves ++ ms := by
  obtain ⟨b', hended, rfl⟩ := exists_ended_of_finish h
  obtain ⟨hwaits, ms, hms, hleaves⟩ := hended.exists_markers rfl
  refine ⟨ms ++ [b'.previous.markerAfter .levelEnd],
    List.forall_mem_append.mpr ⟨hms, List.forall_mem_singleton.mpr rfl⟩, ?_⟩
  rw [leaves_flush, leaves, hended.outer_eq_nil, hwaits, List.append_nil] at hleaves
  have hroot : levelLeaves [b'.current] = b'.current.leaves := List.nil_append _
  rw [← List.append_assoc, ← hleaves, hroot]
  show (b'.current.push (.token (b'.previous.markerAfter .levelEnd))).leaves ++ [] = _
  rw [List.append_nil, OpenTree.leaves_push, Node.leaves]

/-- What is in front of a line: the start marker of the tree, or the end of another line. -/
theorem leaves_of_lineStart {layout : Layout} {b : Builder} {head : List Token}
    (hstart : LineStart layout head) (hrun : head.foldlM push (start layout) = .ok b) :
    b.leaves = [.marker .levelStart {}] ∨
      ∃ earlier n, b.leaves = earlier ++ [n] ∧ n.kind = .newline := by
  have hw := waiting_of_lineStart hstart hrun
  rcases hstart with rfl | ⟨earlier, n, -, rfl, hn, -⟩
  · cases hrun
    exact .inl rfl
  · refine .inr ?_
    obtain ⟨b₀, hrun₀, hpush⟩ := foldlM_concat_eq_ok_iff.mp hrun
    cases step_of_push (shaped_of_foldlM hrun₀) hpush with
    | waits _ _ _ _ hblank => exact absurd (hn.symm.trans hblank) (by decide)
    | merges _ hvalue _ _ => exact absurd (hn.symm.trans hvalue) (by decide)
    | @places b₁ b₂ _ _ _ hplaced =>
        obtain rfl : b₂ = b₁.pushToken n := by
          refine hplaced.eq_pushToken ?_ ?_ ?_ <;> rw [hn] <;> rfl
        have hw : b₁.waiting = [] := hw
        have hleaves := leaves_pushToken b₁ n
        rw [hw, List.append_nil] at hleaves
        exact ⟨_, n, hleaves, hn⟩

end Builder

/-! ### Where a comment can have been inserted -/

section Kinds

variable {as ls us vs xs ys : List TokenKind}

/-- What is inserted into a line is not inserted in front of it. -/
theorem prefix_of_insertedComment
    (has : as = [.levelStart] ∨ ∃ earlier, as = earlier ++ [.newline])
    (hline : .newline ∉ ls ++ .comment :: vs) (h : xs ++ ys = as ++ us)
    (h' : xs ++ [.comment, .whitespace] ++ ys = as ++ ls ++ .comment :: vs) : as <+: xs := by
  rcases List.append_eq_append_iff.mp h with ⟨zs, rfl, rfl⟩ | ⟨zs, rfl, -⟩
  · -- The rest `zs` of what is in front of the line is then behind what is inserted.
    rcases List.eq_nil_or_concat' zs with rfl | ⟨zs, z, rfl⟩
    · exact (List.append_nil xs).symm ▸ List.prefix_rfl
    have hrest : [.comment, .whitespace] ++ zs ++ z :: us =
        zs ++ [z] ++ (ls ++ .comment :: vs) := by simpa using h'
    exfalso
    rcases has with has | ⟨earlier, has⟩
    · obtain ⟨rfl, hzs⟩ : xs = [] ∧ zs ++ [z] = [.levelStart] := by
        simpa [List.append_eq_singleton_iff] using has
      rw [hzs] at hrest
      cases hrest
    · rw [← List.append_assoc] at has
      obtain rfl := List.singleton_inj.mp (List.append_inj' has rfl).2
      rcases List.append_eq_append_iff.mp hrest with ⟨ws, hlonger, -⟩ | ⟨ws, -, hws⟩
      · have hlength := congrArg List.length hlonger
        simp at hlength
        omega
      · refine hline ?_
        rw [hws]
        exact List.mem_append_right ws List.mem_cons_self
  · exact List.prefix_append as zs

/-- The only comment of a line was inserted into it. -/
theorem eq_of_insertedComment (has : as = [.levelStart] ∨ ∃ earlier, as = earlier ++ [.newline])
    (hline : .newline ∉ ls ++ .comment :: vs) (hus : .comment ∉ us) (h : xs ++ ys = as ++ us)
    (h' : xs ++ [.comment, .whitespace] ++ ys = as ++ ls ++ .comment :: vs) :
    xs = as ++ ls ∧ vs = .whitespace :: ys := by
  obtain ⟨zs, rfl⟩ := prefix_of_insertedComment has hline h h'
  rw [List.append_assoc, List.append_cancel_left_eq] at h
  rw [List.append_assoc, List.append_assoc, List.append_assoc, List.append_cancel_left_eq] at h'
  obtain ⟨hzs, hys⟩ := not_or.mp (mt List.mem_append.mpr (h ▸ hus))
  have hys : TokenKind.comment ∉ .whitespace :: ys := by simpa using hys
  obtain ⟨rfl, -, hvs⟩ := (List.append_cons_inj_of_notMem hzs hys).mp h'
  exact ⟨rfl, hvs.symm⟩

theorem eq_nil_of_markers {ms ks ks' : List TokenKind} {k : TokenKind}
    (hms : ∀ m ∈ ms, m.isMarker) (hk : k.isMarker = false) (h : ms ++ ks = k :: ks') : ms = [] := by
  cases ms with
  | nil => rfl
  | cons m ms =>
      have hm := hms m List.mem_cons_self
      rw [(List.cons.inj h).1, hk] at hm
      cases hm

/-- A comment and a blank behind the blanks of a line are inserted in a row only if no marker comes
in front of either blank. -/
theorem eq_nil_of_insertedComment {ms ns ms' ns' : List TokenKind} {k : TokenKind}
    (has : as = [.levelStart] ∨ ∃ earlier, as = earlier ++ [.newline])
    (hls : ∀ l ∈ ls, l = .whitespace) (hms : ∀ m ∈ ms ++ ns, m.isMarker)
    (hms' : ∀ m ∈ ms' ++ ns', m.isMarker) (hk : k.isTrivia = false) (hcode : k.isMarker = false)
    (h : xs ++ ys = as ++ (ms ++ ls ++ k :: ns))
    (h' : xs ++ [.comment, .whitespace] ++ ys =
      as ++ ls ++ .comment :: (ms' ++ .whitespace :: k :: ns')) : ms = [] ∧ ms' = [] := by
  have hline (l : TokenKind) (hl : l = .newline ∨ l = .comment) :
      l ∉ ls ∧ l ∉ ms ++ ns ∧ l ∉ ms' ++ ns' ∧ l ≠ k := by
    refine ⟨fun h => ?_, fun h => ?_, fun h => ?_, ?_⟩
    · rcases hl with rfl | rfl <;> cases hls _ h
    · rcases hl with rfl | rfl <;> cases hms _ h
    · rcases hl with rfl | rfl <;> cases hms' _ h
    · rintro rfl
      rcases hl with rfl | rfl <;> cases hk
  have hnew := hline .newline (.inl rfl)
  have hcomment := hline .comment (.inr rfl)
  simp only [List.mem_append, not_or] at hnew hcomment
  obtain ⟨rfl, hys⟩ := eq_of_insertedComment has (by simp [hnew]) (by simp [hcomment]) h h'
  have hmarkers := (List.forall_mem_append.mp hms).1
  obtain rfl : ms' = [] := eq_nil_of_markers (List.forall_mem_append.mp hms').1 rfl hys
  obtain rfl : k :: ns' = ys := (List.cons.inj hys).2
  rw [List.append_assoc, List.append_assoc, List.append_cancel_left_eq] at h
  refine ⟨?_, rfl⟩
  cases ls with
  | nil => exact eq_nil_of_markers hmarkers hcode h.symm
  | cons l ls =>
      obtain rfl := hls l List.mem_cons_self
      exact eq_nil_of_markers hmarkers rfl h.symm

end Kinds

/-! ### Comments at the start of a line -/

/-- The second tree is the first one with some tokens inserted in a row, up to places. -/
def Tree.GetsInserted (ts : List Token) (s t : Tree) : Prop :=
  ∃ s₁ : Node, s₁.Inserted ts t.toNode ∧ s₁.unpositioned = s.toNode.unpositioned

/-- Where some tokens are inserted behind others, building fails as without them, whatever the
error, or they are inserted into the tree, in a row.

That they stand in a row is more than that every other token stays where it is.  In front of a line
that leaves a block, a comment and a blank without text stand on either side of the block's end. -/
def Tree.TakesInserted (layout : Layout) (earlier ts later : List Token) : Prop :=
  Agree (Tree.GetsInserted ts)
    ((Tree.ofTokens layout (earlier ++ later)).mapError fun _ => ())
    ((Tree.ofTokens layout (earlier ++ ts ++ later)).mapError fun _ => ())

namespace Builder

variable {layout : Layout} {head : List Token} {b : Builder} {c : Token}

theorem atStart_of_lineStart (hlayout : layout.indentBlocks) (hstart : LineStart layout head)
    (hrun : head.foldlM push (start layout) = .ok b) :
    b.AtStart ∧ b.indent = "" ∧ b.waiting = [] := by
  have hw := waiting_of_lineStart hstart hrun
  have hnone : IsGap [] := List.forall_mem_nil _
  rw [← List.append_nil head] at hrun
  obtain ⟨hl, hindent⟩ := indent_of_lineStart hlayout hstart hnone hrun
  exact ⟨atStart_of_foldlM hlayout hrun hl, hindent, hw⟩

/-- What a comment at the start of a line does, with the gap in front of it. -/
theorem AtStart.foldlM_comment (h : b.AtStart) (hw : b.waiting = []) {gap : List Token}
    (hgap : IsGap gap) (hc : c.kind = .comment) :
    (gap ++ [c]).foldlM push b = .ok { b with
      current := b.current.extend ((gap ++ [c]).map .token), indent := "", previous := c } := by
  obtain ⟨placed, waiting, indent, previous, hsplit, hprev, hrun⟩ := h.foldlM_gap hw hgap
  have h₁ := h.extend placed waiting indent hprev
  refine foldlM_concat_eq_ok_iff.mpr ⟨_, hrun, (h₁.push_comment hc).trans ?_⟩
  dsimp only
  rw [OpenTree.extend_extend, ← List.map_append, ← List.append_assoc, hsplit, hw]

theorem flush_eq (b : Builder) :
    b.flush = { b with current := b.current.extend (b.waiting.map .token), waiting := [] } := by
  rw [← current_flush]
  rfl

/-- Blanks at the start of a line wait. -/
theorem AtStart.foldlM_blanks (h : b.AtStart) {blanks : List Token}
    (hblanks : ∀ u ∈ blanks, u.kind = .whitespace) :
    ∃ previous, previous.kind ≠ .stringValue ∧ blanks.foldlM push b = .ok { b with
      indent := b.indent ++ lineIndent blanks, waiting := b.waiting ++ blanks, previous } := by
  induction blanks using List.reverseRecOn with
  | nil =>
      refine ⟨b.previous, h.previous, ?_⟩
      rw [List.append_nil, show lineIndent [] = "" from rfl, String.append_empty]
      rfl
  | append_singleton blanks t ih =>
      obtain ⟨hblanks, ht⟩ := List.forall_mem_append.mp hblanks
      have ht := List.forall_mem_singleton.mp ht
      obtain ⟨previous, hprev, hrun⟩ := ih hblanks
      have h₁ := h.extend [] (b.waiting ++ blanks) (b.indent ++ lineIndent blanks) hprev
      rw [List.map_nil, OpenTree.extend_nil] at h₁
      refine ⟨t, by simp [ht], ?_⟩
      refine foldlM_concat_eq_ok_iff.mpr ⟨_, hrun, (h₁.push_whitespace ht).trans ?_⟩
      dsimp only
      rw [List.append_assoc, String.append_assoc, lineIndent_concat_of_whitespace ht]

/-- The kinds of the leaves of a tree, if a line goes on after a builder has taken its blanks. -/
theorem AtStart.exists_kinds (h : b.AtStart) {t : Token} (ht : t.kind.isTrivia = false)
    {b' : Builder} {tree : Tree} (hpush : b.push t = .ok b') (hfinish : b'.finish = .ok tree) :
    ∃ ms ks : List TokenKind, (∀ k ∈ ms ++ ks, k.isMarker) ∧
      (ms = [] ↔ b.indent = b.topIndent) ∧
      tree.toNode.leaves.map Token.kind =
        (levelLeaves (b.current :: b.outer)).map Token.kind ++ ms ++ b.waiting.map Token.kind ++
          t.kind :: ks := by
  obtain ⟨ms, hms, hgoesOn, hleaves⟩ := h.exists_markers_of_push ht hpush
  obtain ⟨ns, hns, htree⟩ := exists_markers_of_finish hfinish
  refine ⟨ms.map Token.kind, ns.map Token.kind, ?_, ?_, ?_⟩
  · intro k hk
    rw [← List.map_append] at hk
    obtain ⟨m, hm, rfl⟩ := List.mem_map.mp hk
    exact (List.forall_mem_append.mpr ⟨hms, hns⟩) m hm
  · rw [List.map_eq_nil_iff, hgoesOn]
  · rw [htree, hleaves]
    simp

/-- The trees tell that the line goes on in the innermost block, with the comment and without. -/
theorem topIndent_of_getsInserted {b₀ b₁ b₀' b₁' : Builder} {lead : List Token} {w t : Token}
    {s s' : Tree} (h₀ : b₀.AtStart) (h₁ : b₁.AtStart)
    (hlevels : levelLeaves (b₁.current :: b₁.outer) =
      levelLeaves (b₀.current :: b₀.outer) ++ lead ++ [c])
    (hfront : levelLeaves (b₀.current :: b₀.outer) = [.marker .levelStart {}] ∨
      ∃ earlier n, levelLeaves (b₀.current :: b₀.outer) = earlier ++ [n] ∧ n.kind = .newline)
    (hwaiting₀ : b₀.waiting = lead) (hwaiting₁ : b₁.waiting = [w])
    (hlead : ∀ u ∈ lead, u.kind = .whitespace) (hc : c.kind = .comment)
    (hw : w.kind = .whitespace) (ht : t.kind.isTrivia = false) (hmarker : t.kind.isMarker = false)
    (hpush₀ : b₀.push t = .ok b₀') (hpush₁ : b₁.push t = .ok b₁')
    (hfinish₀ : b₀'.finish = .ok s) (hfinish₁ : b₁'.finish = .ok s')
    (h : s.GetsInserted [c, w] s') :
    b₀.indent = b₀.topIndent ∧ b₁.indent = b₁.topIndent := by
  obtain ⟨ms₀, ks₀, hms₀, hiff₀, hkinds₀⟩ := h₀.exists_kinds ht hpush₀ hfinish₀
  obtain ⟨ms₁, ks₁, hms₁, hiff₁, hkinds₁⟩ := h₁.exists_kinds ht hpush₁ hfinish₁
  obtain ⟨s₁, hinserted, hplaces⟩ := h
  obtain ⟨xs, ys, hxs, hxs'⟩ := hinserted.exists_leaves
  have hold := Node.kinds_unpositioned s₁
  rw [hplaces, Node.kinds_unpositioned, hkinds₀, hwaiting₀, hxs, List.map_append] at hold
  rw [hxs', hlevels, hwaiting₁] at hkinds₁
  have hfront : (levelLeaves (b₀.current :: b₀.outer)).map Token.kind = [.levelStart] ∨
      ∃ earlier, (levelLeaves (b₀.current :: b₀.outer)).map Token.kind =
        earlier ++ [.newline] := by
    rcases hfront with hfront | ⟨earlier, n, hfront, hn⟩
    · exact .inl (congrArg (List.map Token.kind) hfront)
    · exact .inr ⟨earlier.map Token.kind, by simp [hfront, hn]⟩
  have hblanks : ∀ k ∈ lead.map Token.kind, k = .whitespace := by simpa using hlead
  obtain ⟨hnil₀, hnil₁⟩ := eq_nil_of_insertedComment hfront hblanks hms₀ hms₁ ht
    hmarker (by simpa using hold.symm) (by simpa [hc, hw] using hkinds₁)
  exact ⟨hiff₀.mp hnil₀, hiff₁.mp hnil₁⟩

/-- Two builders whose lines go on in the innermost block. -/
theorem agree_push_of_topIndent {b₀ b₁ : Builder} (h₀ : b₀.AtStart) (h₁ : b₁.AtStart)
    (htop₀ : b₀.indent = b₀.topIndent) (htop₁ : b₁.indent = b₁.topIndent) {ts : List Token}
    {n t : Token} (ht : t.kind.isTrivia = false) (hn : n.kind ≠ .stringValue)
    (h : ({ b₀ with indent := "", atLineStart := false } : Builder).flush.Inserted (ts ++ [n])
      ({ b₁ with indent := "", atLineStart := false } : Builder).flush) :
    Agree (Inserted (ts ++ [n])) (b₀.push t) (b₁.push t) := by
  rw [h₀.push_eq ht, h₁.push_eq ht, resolveIndent_of_topIndent htop₀,
    resolveIndent_of_topIndent htop₁]
  exact agree_accept h hn h₀.shaped (fun _ h => absurd h h₀.previous)
    fun _ h => absurd h h₁.previous

/-- A line fails if its indent and that of the innermost block part ways. -/
theorem AtStart.exists_error_iff (h : b.AtStart) {t : Token} (ht : t.kind.isTrivia = false) :
    (∃ e, b.push t = .error e) ↔ PartWays b.indent b.topIndent := by
  constructor
  · rintro ⟨e, he⟩
    obtain ⟨-, hexpected, hfound, -⟩ := (push_eq_error_iff h.shaped).mp he
    exact ⟨hfound, hexpected⟩
  · rintro ⟨hfound, hexpected⟩
    exact ⟨_, (push_eq_error_iff h.shaped).mpr
      ⟨⟨h.blocks, h.nesting, h.line, ht⟩, hexpected, hfound, rfl⟩⟩

end Builder

namespace Tree

variable {layout : Layout} {head : List Token} {c : Token}

theorem run_append {tokens more : List Token} {b b' : Builder}
    (hrun : tokens.foldlM Builder.push (.start layout) = .ok b)
    (h : more.foldlM Builder.push b = .ok b') :
    (tokens ++ more).foldlM Builder.push (.start layout) = .ok b' := by
  rw [List.foldlM_append, hrun]
  exact h

theorem ofTokens_append {tokens : List Token} {b : Builder}
    (hrun : tokens.foldlM Builder.push (.start layout) = .ok b) (later : List Token) :
    ofTokens layout (tokens ++ later) = later.foldlM Builder.push b >>= Builder.finish := by
  unfold ofTokens
  rw [List.foldlM_append, hrun]
  rfl

theorem ofTokens_eq_error {tokens : List Token} {b : Builder} {t : Token} {e : BuildError}
    (hrun : tokens.foldlM Builder.push (.start layout) = .ok b) (hpush : b.push t = .error e)
    (later : List Token) : ofTokens layout (tokens ++ t :: later) = .error e := by
  rw [ofTokens_append hrun, List.foldlM_cons, hpush]
  rfl

/-- With one more token there is a tree, or the token fails. -/
theorem ofTokens_concat {tokens : List Token} {b : Builder}
    (hrun : tokens.foldlM Builder.push (.start layout) = .ok b) (t : Token) :
    (∃ e, b.push t = .error e ∧ ofTokens layout (tokens ++ [t]) = .error e) ∨
      ∃ b' tree, b.push t = .ok b' ∧ b'.finish = .ok tree ∧
        ofTokens layout (tokens ++ [t]) = .ok tree := by
  cases hpush : b.push t with
  | error e => exact .inl ⟨e, rfl, ofTokens_eq_error hrun hpush []⟩
  | ok b' =>
      obtain ⟨tree, hfinish⟩ := b'.exists_finish
      refine .inr ⟨b', tree, rfl, hfinish, ?_⟩
      rw [ofTokens_append hrun, List.foldlM_cons, hpush]
      exact hfinish

/-- From two builders on, one of them with inserted tokens, the trees differ by these tokens. -/
theorem agree_ofTokens_of_inserted {tokens tokens' ts : List Token} {n : Token} {b b' : Builder}
    (hrun : tokens.foldlM Builder.push (.start layout) = .ok b)
    (hrun' : tokens'.foldlM Builder.push (.start layout) = .ok b')
    (h : b.Inserted (ts ++ [n]) b') (hn : n.kind ≠ .stringValue) (later : List Token) :
    Agree (GetsInserted (ts ++ [n])) (ofTokens layout (tokens ++ later))
      (ofTokens layout (tokens' ++ later)) := by
  have hlater := Builder.agree_foldlM h hn (Builder.accounted_of_foldlM hrun)
    (Builder.accounted_of_foldlM hrun') later
  rw [ofTokens_append hrun, ofTokens_append hrun']
  exact hlater.bind fun _ _ h => Builder.agree_finish h

/-- A gap that ends with a comment can be inserted in front of a line. -/
theorem agree_ofTokens_of_gap (hlayout : layout.indentBlocks)
    (hstart : Builder.LineStart layout head) (hc : c.kind = .comment) {gap : List Token}
    (hgap : IsGap gap) (later : List Token) :
    Agree (GetsInserted (gap ++ [c])) (ofTokens layout (head ++ later))
      (ofTokens layout (head ++ (gap ++ [c]) ++ later)) := by
  cases hrun : head.foldlM Builder.push (.start layout) with
  | error e =>
      unfold ofTokens
      rw [List.append_assoc, List.foldlM_append, List.foldlM_append, hrun]
      exact .error e
  | ok b =>
      obtain ⟨hb, hindent, hw⟩ := Builder.atStart_of_lineStart hlayout hstart hrun
      have hcomment := hb.foldlM_comment hw hgap hc
      rw [← hindent] at hcomment
      have hrun' := run_append hrun hcomment
      have hinserted := Builder.inserted_extend rfl hb.current (gap ++ [c]) hb.previous
        (by simp [hc] : c.kind ≠ .stringValue)
      exact agree_ofTokens_of_inserted hrun hrun' hinserted (by simp [hc]) later

/-- What a line does with tokens inserted in front of its first one: `hgoesOn` is what the builders
say if it goes on in the innermost block with and without them, and `hback` what the trees say. -/
theorem takesInserted_iff {tokens ts : List Token} {n t : Token} {b₀ b₁ : Builder}
    (h₀ : b₀.AtStart) (h₁ : b₁.AtStart)
    (hrun₀ : tokens.foldlM Builder.push (.start layout) = .ok b₀)
    (hrun₁ : (tokens ++ (ts ++ [n])).foldlM Builder.push (.start layout) = .ok b₁)
    (ht : t.kind.isTrivia = false) (hn : n.kind ≠ .stringValue)
    (hgoesOn : ({ b₀ with indent := "", atLineStart := false } : Builder).flush.Inserted (ts ++ [n])
      ({ b₁ with indent := "", atLineStart := false } : Builder).flush)
    (hback : ∀ b₀' b₁' s s', b₀.push t = .ok b₀' → b₁.push t = .ok b₁' → b₀'.finish = .ok s →
      b₁'.finish = .ok s' → s.GetsInserted (ts ++ [n]) s' →
      b₀.indent = b₀.topIndent ∧ b₁.indent = b₁.topIndent) :
    (∀ later, TakesInserted layout tokens (ts ++ [n]) (t :: later)) ↔
      (PartWays b₀.indent b₀.topIndent ∧ PartWays b₁.indent b₁.topIndent) ∨
        (b₀.indent = b₀.topIndent ∧ b₁.indent = b₁.topIndent) := by
  constructor
  · intro h
    have h : Agree _ _ _ := h []
    rcases ofTokens_concat hrun₀ t with
        ⟨e₀, hpush₀, htree₀⟩ | ⟨b₀', s, hpush₀, hfinish₀, htree₀⟩ <;>
      rcases ofTokens_concat hrun₁ t with
        ⟨e₁, hpush₁, htree₁⟩ | ⟨b₁', s', hpush₁, hfinish₁, htree₁⟩ <;>
      rw [htree₀, htree₁] at h
    · exact .inl ⟨(h₀.exists_error_iff ht).mp ⟨e₀, hpush₀⟩,
        (h₁.exists_error_iff ht).mp ⟨e₁, hpush₁⟩⟩
    · cases h
    · cases h
    · exact .inr (hback b₀' b₁' s s' hpush₀ hpush₁ hfinish₀ hfinish₁ h.of_ok)
  · rintro (⟨hparts₀, hparts₁⟩ | ⟨htop₀, htop₁⟩) later
    · obtain ⟨e₀, hpush₀⟩ := (h₀.exists_error_iff ht).mpr hparts₀
      obtain ⟨e₁, hpush₁⟩ := (h₁.exists_error_iff ht).mpr hparts₁
      unfold TakesInserted
      rw [ofTokens_eq_error hrun₀ hpush₀, ofTokens_eq_error hrun₁ hpush₁]
      exact .error ()
    · have hpushed := (Builder.agree_push_of_topIndent h₀ h₁ htop₀ htop₁ ht hn hgoesOn).with_eq
      have hagree : Agree (GetsInserted (ts ++ [n])) (ofTokens layout (tokens ++ t :: later))
          (ofTokens layout (tokens ++ (ts ++ [n]) ++ t :: later)) := by
        rw [ofTokens_append hrun₀, ofTokens_append hrun₁, List.foldlM_cons, List.foldlM_cons,
          bind_assoc, bind_assoc]
        refine hpushed.bind fun b₀' b₁' ⟨h, hpush₀, hpush₁⟩ => ?_
        have hrun₀' := foldlM_concat_eq_ok_iff.mpr ⟨_, hrun₀, hpush₀⟩
        have hrun₁' := foldlM_concat_eq_ok_iff.mpr ⟨_, hrun₁, hpush₁⟩
        rw [← ofTokens_append hrun₀', ← ofTokens_append hrun₁']
        exact agree_ofTokens_of_inserted hrun₀' hrun₁' h hn later
      exact hagree.mapError _

/-- A comment and a blank behind the blanks of a line. -/
theorem takesInserted_comment_iff (hlayout : layout.indentBlocks)
    (hstart : Builder.LineStart layout head) (hc : c.kind = .comment) {lead : List Token}
    {w t : Token} {b : Builder} (hlead : ∀ u ∈ lead, u.kind = .whitespace)
    (hblank : w.kind = .whitespace) (ht : t.kind.isTrivia = false)
    (hmarker : t.kind.isMarker = false)
    (hrun : head.foldlM Builder.push (.start layout) = .ok b) :
    (∀ later, TakesInserted layout (head ++ lead) [c, w] (t :: later)) ↔
      (PartWays (lineIndent lead) b.topIndent ∧ PartWays w.value b.topIndent) ∨
        (lineIndent lead = b.topIndent ∧ w.value = b.topIndent) := by
  have hcvalue : c.kind ≠ .stringValue := by simp [hc]
  have hwvalue : w.kind ≠ .stringValue := by simp [hblank]
  obtain ⟨hb, hindent, hw⟩ := Builder.atStart_of_lineStart hlayout hstart hrun
  -- The builder behind the blanks of the line, and the one behind the comment and its blank.
  obtain ⟨previous, hprev, hlead₀⟩ := hb.foldlM_blanks hlead
  have h₀ := hb.extend [] (b.waiting ++ lead) (b.indent ++ lineIndent lead) hprev
  rw [List.map_nil, OpenTree.extend_nil] at h₀
  have hlead₁ := hb.foldlM_comment hw (fun u hu => .inl (hlead u hu)) hc
  have hcommented := hb.extend (lead ++ [c]) b.waiting "" hcvalue
  have hrun₁ : (head ++ (lead ++ [c]) ++ [w]).foldlM Builder.push (.start layout) = .ok
      { b with
        current := b.current.extend ((lead ++ [c]).map .token), indent := "" ++ w.value,
        waiting := b.waiting ++ [w], previous := w } := foldlM_concat_eq_ok_iff.mpr
    ⟨_, run_append hrun hlead₁, hcommented.push_whitespace hblank⟩
  have h₁ := hb.extend (lead ++ [c]) (b.waiting ++ [w]) ("" ++ w.value) hwvalue
  rw [show head ++ (lead ++ [c]) ++ [w] = head ++ lead ++ ([c] ++ [w]) by simp] at hrun₁
  have hiff := takesInserted_iff h₀ h₁ (run_append hrun hlead₀) hrun₁ ht hwvalue ?_ ?_
  · rw [hindent, String.empty_append, String.empty_append] at hiff
    exact hiff
  · have hstart := hb.current.extend (lead.map .token)
    have hinserted := Builder.inserted_extend (b := { b with
      current := b.current.extend (lead.map .token), indent := "", atLineStart := false,
      waiting := [], previous }) rfl hstart ([c] ++ [w]) hprev hwvalue
    rw [OpenTree.extend_extend, ← List.map_append, ← List.append_assoc] at hinserted
    rw [Builder.flush_eq, Builder.flush_eq, hw]
    dsimp only
    rw [OpenTree.extend_extend, ← List.map_append]
    exact hinserted
  · intro b₀' b₁' s s' hpush₀ hpush₁ hfinish₀ hfinish₁ hs
    refine Builder.topIndent_of_getsInserted h₀ h₁ ?_ ?_ ?_ ?_ hlead hc hblank ht hmarker hpush₀
      hpush₁ hfinish₀ hfinish₁ hs
    · rw [List.append_assoc]
      exact Builder.levelLeaves_extend b.current (lead ++ [c]) b.outer
    · have hfront := Builder.leaves_of_lineStart hstart hrun
      rwa [Builder.leaves, hw, List.append_nil] at hfront
    · exact congrArg (· ++ lead) hw
    · exact congrArg (· ++ [w]) hw

/-- **Comments in front of code.**  Let blocks be made, and let a line start behind some tokens.  A
gap that ends with a comment can be inserted in front of the line, as if it were a line of its own:
the line is indented by what is behind its last comment.

So a comment and a blank between the blanks of a line and its first token take its indentation away.
Building goes on as without them, and they are inserted in the tree in a row, whatever tokens come
later, exactly in two cases: the line has no place with either indentation, or both are that of the
innermost block. -/
theorem agree_ofTokens_of_leadingComment (hlayout : layout.indentBlocks)
    (hstart : Builder.LineStart layout head) (hc : c.kind = .comment) :
    (∀ gap later, IsGap gap →
      Agree (GetsInserted (gap ++ [c])) (ofTokens layout (head ++ later))
        (ofTokens layout (head ++ (gap ++ [c]) ++ later))) ∧
    ∀ lead w t b, (∀ u ∈ lead, u.kind = .whitespace) → w.kind = .whitespace →
      t.kind.isTrivia = false → t.kind.isMarker = false →
      head.foldlM Builder.push (.start layout) = .ok b →
      ((∀ later, TakesInserted layout (head ++ lead) [c, w] (t :: later)) ↔
        (PartWays (lineIndent lead) b.topIndent ∧ PartWays w.value b.topIndent) ∨
          (lineIndent lead = b.topIndent ∧ w.value = b.topIndent)) := by
  constructor
  · intro gap later hgap
    exact agree_ofTokens_of_gap hlayout hstart hc hgap later
  · intro lead w t b hlead hblank ht hmarker hrun
    exact takesInserted_comment_iff hlayout hstart hc hlead hblank ht hmarker hrun

/-- Two lines, the second one indented by a tab. -/
def tabbedLines : List Token :=
  [.make .symbol "f" ⟨0, 1, 1⟩, .make .newline "\n" ⟨1, 1, 2⟩, .make .whitespace "\t" ⟨2, 2, 1⟩,
   .make .symbol "a" ⟨3, 2, 2⟩, .make .newline "\n" ⟨4, 2, 3⟩]

/-- A third line with the same indent goes on in the block.  With a comment and a space in front of
its code it has no place, and with a comment and a tab it goes on. -/
theorem agree_ofTokens_of_leadingComment_tabbedLines :
    ∃ b : Builder,
      tabbedLines.foldlM Builder.push (.start { indentBlocks := true }) = .ok b ∧
      b.topIndent = "\t" ∧
      (∃ tree, ofTokens { indentBlocks := true }
        (tabbedLines ++ [.make .whitespace "\t" ⟨5, 3, 1⟩, .make .symbol "b" ⟨6, 3, 2⟩]) =
          .ok tree) ∧
      ofTokens { indentBlocks := true }
        (tabbedLines ++ [.make .whitespace "\t" ⟨5, 3, 1⟩, .make .comment "/* c */" ⟨6, 3, 2⟩,
          .make .whitespace " " ⟨13, 3, 9⟩, .make .symbol "b" ⟨14, 3, 10⟩]) =
          .error (.inconsistentIndent 3 10 "\t" " ") ∧
      (¬ ∀ later, TakesInserted { indentBlocks := true }
        (tabbedLines ++ [.make .whitespace "\t" ⟨5, 3, 1⟩])
        [.make .comment "/* c */" ⟨6, 3, 2⟩, .make .whitespace " " ⟨13, 3, 9⟩]
        (.make .symbol "b" ⟨14, 3, 10⟩ :: later)) ∧
      ∀ later, TakesInserted { indentBlocks := true }
        (tabbedLines ++ [.make .whitespace "\t" ⟨5, 3, 1⟩])
        [.make .comment "/* c */" ⟨6, 3, 2⟩, .make .whitespace "\t" ⟨13, 3, 9⟩]
        (.make .symbol "b" ⟨14, 3, 10⟩ :: later) := by
  have hstart : Builder.LineStart { indentBlocks := true } tabbedLines :=
    .inr ⟨tabbedLines.dropLast, .make .newline "\n" ⟨4, 2, 3⟩, _, rfl, rfl, rfl, rfl⟩
  have hlead : ∀ u ∈ [Token.make .whitespace "\t" ⟨5, 3, 1⟩], u.kind = .whitespace := by decide
  have hindent : lineIndent [.make .whitespace "\t" ⟨5, 3, 1⟩] = "\t" := by decide +kernel
  obtain ⟨b, hrun, htop⟩ : ∃ b : Builder,
      tabbedLines.foldlM Builder.push (.start { indentBlocks := true }) = .ok b ∧
      b.topIndent = "\t" := ⟨_, rfl, rfl⟩
  have hlayout : ({ indentBlocks := true } : Layout).indentBlocks := rfl
  have hcomment : (Token.make .comment "/* c */" ⟨6, 3, 2⟩).kind = .comment := rfl
  have hiff (w : String) := (agree_ofTokens_of_leadingComment hlayout hstart hcomment).2
    [.make .whitespace "\t" ⟨5, 3, 1⟩] (.make .whitespace w ⟨13, 3, 9⟩)
    (.make .symbol "b" ⟨14, 3, 10⟩) b hlead rfl rfl rfl hrun
  rw [hindent, htop] at hiff
  refine ⟨b, hrun, htop, ⟨_, rfl⟩, rfl, ?_, (hiff "\t").mpr (.inr ⟨rfl, rfl⟩)⟩
  rw [hiff " "]
  decide

end Tree

end Nesting
