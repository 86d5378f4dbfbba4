import Mathlib.Data.List.DropRight
import Nesting.Proofs.Tree.Dissolve

/-! # Indentation

With blocks, a line of code begins behind the start of the text, or behind a newline outside all
delimiters, and then a gap of blanks and comments (`Builder.OpensLine`).  Its indent is the text of
the blanks behind the last comment of the gap (`lineIndent`).  A builder has kept this text when the
line begins (`Builder.indent_of_lineStart`), and looks at it nowhere else
(`Builder.exists_lineStart`).

The indents of the open blocks go on from one another (`Builder.GoesOn`).  So if the indent of a
line and that of the innermost block do not part ways, closing blocks one by one leaves exactly
those whose indents begin that of the line (`Builder.dropWhile_outdents`).  This makes the blocks of
a line a matter of one filter (`Builder.blocks_of_lines`). -/

namespace Nesting

/-- Blanks and comments. -/
def IsGap (gap : List Token) : Prop :=
  ∀ u ∈ gap, u.kind = .whitespace ∨ u.kind = .comment

instance (gap : List Token) : Decidable (IsGap gap) :=
  inferInstanceAs (Decidable (∀ u ∈ gap, u.kind = .whitespace ∨ u.kind = .comment))

/-- The text of the blanks behind the last comment of a gap. -/
def lineIndent (gap : List Token) : String :=
  String.join ((gap.rtakeWhile (·.kind = .whitespace)).map (·.value))

theorem lineIndent_concat_of_whitespace {t : Token} (h : t.kind = .whitespace)
    (gap : List Token) : lineIndent (gap ++ [t]) = lineIndent gap ++ t.value := by
  have hblanks := List.rtakeWhile_concat_pos (fun u : Token => decide (u.kind = .whitespace)) gap t
    (decide_eq_true h)
  rw [lineIndent, hblanks, List.map_append, String.join_append]
  simp [lineIndent]

theorem lineIndent_concat_of_ne_whitespace {t : Token} (h : t.kind ≠ .whitespace)
    (gap : List Token) : lineIndent (gap ++ [t]) = "" := by
  have hblanks := List.rtakeWhile_concat_neg (fun u : Token => decide (u.kind = .whitespace)) gap t
    (by simpa using h)
  rw [lineIndent, hblanks]
  rfl

namespace Builder

/-! ### Starts of lines -/

/-- Tokens behind which a line starts: none, or those up to a newline outside all delimiters. -/
def LineStart (layout : Layout) (tokens : List Token) : Prop :=
  tokens = [] ∨ ∃ earlier n b, tokens = earlier ++ [n] ∧ n.kind = .newline ∧
    earlier.foldlM push (start layout) = .ok b ∧ b.nesting = 0

/-- A line of code: behind the start of a line and a gap of blanks and comments, a token that is
neither. -/
structure OpensLine (layout : Layout) (head gap : List Token) (t : Token) : Prop where
  start : LineStart layout head
  gap : IsGap gap
  code : t.kind.isTrivia = false

/-- With blocks, a builder is at the start of a line behind a newline outside all delimiters, and
stays there for the blanks and comments that follow.  It keeps the text of the blanks since the last
of these tokens that is no blank. -/
theorem Step.line {b b' : Builder} {t : Token} {ts : List Token} (h : Step t b b')
    (hb : b.Accounted ts) (hi : b.indentBlocks) :
    (b'.atLineStart ↔
      b.nesting = 0 ∧ (t.kind = .newline ∨ (b.atLineStart ∧ t.kind.isTrivia))) ∧
    (b'.atLineStart → b'.indent = if t.kind = .whitespace then b.indent ++ t.value else "") := by
  have hb₀ := hb.begin t
  obtain ⟨children, hbegin⟩ := b.begin_eq t
  have goesOn {b' : Builder} (hl' : b'.atLineStart = false)
      (hcode : ¬(b.nesting = 0 ∧ (t.kind = .newline ∨ (b.atLineStart ∧ t.kind.isTrivia)))) :
      (b'.atLineStart ↔
        b.nesting = 0 ∧ (t.kind = .newline ∨ (b.atLineStart ∧ t.kind.isTrivia))) ∧
      (b'.atLineStart → b'.indent = if t.kind = .whitespace then b.indent ++ t.value else "") := by
    rw [hl']
    exact ⟨iff_of_false Bool.false_ne_true hcode, fun h => absurd h Bool.false_ne_true⟩
  have hcode (ht : ¬t.kind.isTrivia) :
      ¬(b.nesting = 0 ∧ (t.kind = .newline ∨ (b.atLineStart ∧ t.kind.isTrivia))) := by
    rintro ⟨-, hnew | ⟨-, htrivia⟩⟩
    · exact ht (hnew ▸ rfl)
    · exact ht htrivia
  cases h with
  | @waits b₀ h₀ _ hn hl ht =>
      rw [h₀, hbegin] at hn hl ⊢
      exact ⟨iff_of_true hl ⟨hn, .inr ⟨hl, by rw [ht]; rfl⟩⟩, fun _ => (if_pos ht).symm⟩
  | @merges b₁ hlaid ht _ hprev =>
      obtain rfl := hb₀.eq_of_laid hlaid ht hprev
      have hl := (hb₀.value hprev).1
      obtain ⟨_, _, hcoalesce⟩ := (b.begin t).coalesce_eq t
      rw [hbegin] at hl hcoalesce
      rw [hbegin, hcoalesce]
      exact goesOn (hl hi) (hcode (by simp [ht, TokenKind.isTrivia]))
  | @places b₁ b₂ hlaid _ _ hplaced =>
      obtain ⟨_, _, _, rfl⟩ := hplaced.frame
      have hline := hb₀.line
      rw [hbegin] at hline hlaid
      cases hlaid with
      | inside h =>
          have hl : b.atLineStart = false := Bool.eq_false_iff.mpr fun hl => by
            have hfalse := (h hi (hline hi hl)).1
            rw [show b.atLineStart = true from hl] at hfalse
            cases hfalse
          refine goesOn hl ?_
          rintro ⟨hn, hnew | ⟨hstart, -⟩⟩
          · exact (h hi hn).2 hnew
          · exact Bool.eq_false_iff.mp hl hstart
      | newline _ hn ht =>
          exact ⟨iff_of_true rfl ⟨hn, .inl ht⟩, fun _ => (if_neg (by simp [ht])).symm⟩
      | comment _ hn hl ht =>
          exact ⟨iff_of_true hl ⟨hn, .inr ⟨hl, by rw [ht]; rfl⟩⟩,
            fun _ => (if_neg (by simp [ht])).symm⟩
      | stays _ _ _ ht _ _ => exact goesOn rfl (hcode (by simp [ht]))
      | opens _ _ _ ht _ _ _ _ => exact goesOn rfl (hcode (by simp [ht]))

variable {layout : Layout} {b : Builder}

/-- Behind the start of a line and a gap, a builder is at the start of a line, and has kept the
indent. -/
theorem indent_of_lineStart (hlayout : layout.indentBlocks) {head gap : List Token}
    (hstart : LineStart layout head) (hgap : IsGap gap)
    (hrun : (head ++ gap).foldlM push (start layout) = .ok b) :
    b.atLineStart ∧ b.indent = lineIndent gap := by
  induction gap using List.reverseRecOn generalizing b with
  | nil =>
      rw [List.append_nil] at hrun
      rcases hstart with rfl | ⟨earlier, n, b₀, rfl, hnew, hrun₀, hn⟩
      · cases hrun
        exact ⟨rfl, rfl⟩
      · obtain ⟨b₁, hrun₁, hpush⟩ := foldlM_concat_eq_ok_iff.mp hrun
        obtain rfl := Except.ok.inj (hrun₀.symm.trans hrun₁)
        have hb₀ := accounted_of_foldlM hrun₀
        have hi : b₀.indentBlocks := (indentBlocks_of_foldlM hrun₀).trans hlayout
        obtain ⟨hl, hindent⟩ := (step_of_push hb₀.shaped hpush).line hb₀ hi
        have hl := hl.mpr ⟨hn, .inl hnew⟩
        exact ⟨hl, (hindent hl).trans (if_neg (by simp [hnew]))⟩
  | append_singleton gap t ih =>
      rw [← List.append_assoc] at hrun
      obtain ⟨b₀, hrun₀, hpush⟩ := foldlM_concat_eq_ok_iff.mp hrun
      obtain ⟨hgap, ht⟩ := List.forall_mem_append.mp hgap
      have ht := List.forall_mem_singleton.mp ht
      obtain ⟨hl₀, hindent₀⟩ := ih hgap hrun₀
      have hb₀ := accounted_of_foldlM hrun₀
      have hi : b₀.indentBlocks := (indentBlocks_of_foldlM hrun₀).trans hlayout
      obtain ⟨hl, hindent⟩ := (step_of_push hb₀.shaped hpush).line hb₀ hi
      have htrivia : t.kind.isTrivia := by rcases ht with ht | ht <;> rw [ht] <;> rfl
      have hl := hl.mpr ⟨hb₀.line hi hl₀, .inr ⟨hl₀, htrivia⟩⟩
      refine ⟨hl, (hindent hl).trans ?_⟩
      split
      · next ht => rw [lineIndent_concat_of_whitespace ht, hindent₀]
      · next ht => rw [lineIndent_concat_of_ne_whitespace ht]

/-- A builder is at the start of a line only behind one and a gap. -/
theorem exists_lineStart (hlayout : layout.indentBlocks) {tokens : List Token}
    (hrun : tokens.foldlM push (start layout) = .ok b) (hl : b.atLineStart) :
    ∃ head gap, tokens = head ++ gap ∧ LineStart layout head ∧ IsGap gap := by
  induction tokens using List.reverseRecOn generalizing b with
  | nil => exact ⟨[], [], rfl, .inl rfl, nofun⟩
  | append_singleton tokens t ih =>
      obtain ⟨b₀, hrun₀, hpush⟩ := foldlM_concat_eq_ok_iff.mp hrun
      have hb₀ := accounted_of_foldlM hrun₀
      have hi : b₀.indentBlocks := (indentBlocks_of_foldlM hrun₀).trans hlayout
      obtain ⟨hn, hkind⟩ := ((step_of_push hb₀.shaped hpush).line hb₀ hi).1.mp hl
      by_cases hnew : t.kind = .newline
      · exact ⟨tokens ++ [t], [], (List.append_nil _).symm,
          .inr ⟨tokens, t, b₀, rfl, hnew, hrun₀, hn⟩, nofun⟩
      · obtain ⟨hl₀, htrivia⟩ := hkind.resolve_left hnew
        obtain ⟨head, gap, rfl, hstart, hgap⟩ := ih hrun₀ hl₀
        refine ⟨head, gap ++ [t], List.append_assoc _ _ _, hstart, ?_⟩
        refine List.forall_mem_append.mpr ⟨hgap, List.forall_mem_singleton.mpr ?_⟩
        cases hk : t.kind with
        | newline => exact absurd hk hnew
        | whitespace => exact .inl rfl
        | comment => exact .inr rfl
        | _ =>
            rw [hk] at htrivia
            cases htrivia

theorem Accounted.previous_ne {us : List Token} (hb : b.Accounted us) (hi : b.indentBlocks)
    (hl : b.atLineStart) : b.previous.kind ≠ .stringValue := by
  intro hprev
  have hfalse := (hb.value hprev).1 hi
  rw [hl] at hfalse
  cases hfalse

/-- What holds of a builder at the start of a line. -/
structure AtStart (b : Builder) : Prop where
  shaped : b.Shaped
  blocks : b.indentBlocks
  nesting : b.nesting = 0
  line : b.atLineStart
  current : b.current.HasStart
  previous : b.previous.kind ≠ .stringValue

theorem AtStart.begin_eq {b : Builder} (h : b.AtStart) (t : Token) : b.begin t = b :=
  if_neg (by simp [h.current.children_ne])

theorem atStart_of_foldlM (hlayout : layout.indentBlocks) {tokens : List Token}
    (hrun : tokens.foldlM push (start layout) = .ok b) (hl : b.atLineStart) : b.AtStart := by
  have hb := accounted_of_foldlM hrun
  have hi : b.indentBlocks := (indentBlocks_of_foldlM hrun).trans hlayout
  have hn := hb.line hi hl
  refine ⟨hb.shaped, hi, hn, hl, ?_, hb.previous_ne hi hl⟩
  exact (foldlM_dissolve hrun).1.current.resolve_right fun h =>
    hb.shaped.isDelimited_iff.mp h.1 hn

/-! ### The indents of a line -/

/-- An indent that goes on from another one. -/
def GoesOn (inner outer : String) : Prop := outer.toList <+: inner.toList ∧ outer ≠ inner

theorem eq_of_prefixes {i j : String} (h : i.toList <+: j.toList) (h' : j.toList <+: i.toList) :
    i = j :=
  String.toList_inj.mp (h.eq_of_length_le h'.length_le)

instance : IsTrans String GoesOn where
  trans inner middle outer h h' := by
    refine ⟨h'.1.trans h.1, ?_⟩
    rintro rfl
    exact h.2 (eq_of_prefixes h.1 h'.1)

/-- Whether a block is indented further than a line, so that the line closes it. -/
def outdents (indent top : String) : Bool := top ≠ indent && indent.toList.isPrefixOf top.toList

theorem outdents_iff {indent top : String} : outdents indent top ↔ GoesOn top indent := by
  rw [outdents, Bool.and_eq_true, decide_eq_true_iff, List.isPrefixOf_iff_prefix, GoesOn, and_comm,
    ne_comm]

theorem Shape.pairwise_indents {n : ℕ} {indents : List String} {ks : List TreeKind}
    (h : Shape n indents ks) : indents.Pairwise GoesOn ∧ ∀ indent ∈ indents, indent ≠ "" := by
  have hchain : (indents ++ [""]).IsChain GoesOn := h.indents
  obtain ⟨hindents, -, hroot⟩ := List.pairwise_append.mp hchain.pairwise
  exact ⟨hindents, fun indent hmem => (hroot indent hmem "" List.mem_cons_self).2.symm⟩

theorem Shaped.pairwise_indents {b : Builder} (hb : b.Shaped) :
    b.indents.Pairwise GoesOn ∧ ∀ indent ∈ b.indents, indent ≠ "" :=
  Shape.pairwise_indents hb

/-- The blocks that are not closed are those whose indent the line goes on from, or repeats. -/
theorem dropWhile_outdents {indent : String} {indents : List String}
    (hindents : indents.Pairwise GoesOn)
    (hlines : indent.toList <+: (indents.headD "").toList ∨
      (indents.headD "").toList <+: indent.toList) :
    indents.dropWhile (outdents indent) = indents.filter fun j => j.toList <+: indent.toList := by
  induction indents with
  | nil => rfl
  | cons top rest ih =>
      obtain ⟨htop, hrest⟩ := List.pairwise_cons.mp hindents
      by_cases hclose : GoesOn top indent
      · have hpre : ¬ top.toList <+: indent.toList := fun h => hclose.2 (eq_of_prefixes hclose.1 h)
        rw [List.dropWhile_cons_of_pos (outdents_iff.mpr hclose),
          List.filter_cons_of_neg (by simpa using hpre)]
        refine ih hrest ?_
        cases rest with
        | nil => exact .inr List.nil_prefix
        | cons next rest =>
            exact List.prefix_or_prefix_of_prefix hclose.1 (htop next List.mem_cons_self).1
      · have hpre : top.toList <+: indent.toList := by
          rcases hlines with hpre | hpre
          · by_contra hne
            exact hclose ⟨hpre, fun h => hne (h ▸ List.prefix_rfl)⟩
          · exact hpre
        rw [List.dropWhile_cons_of_neg fun h => hclose (outdents_iff.mp h)]
        symm
        refine List.filter_eq_self.mpr (List.forall_mem_cons.mpr ⟨decide_eq_true hpre, ?_⟩)
        exact fun j hj => decide_eq_true ((htop j hj).1.trans hpre)

/-- The indents of the blocks that are left, and that of the line where none of them has it. -/
theorem indents_of_line {indent : String} {indents : List String}
    (hindents : indents.Pairwise GoesOn) (hroot : ∀ j ∈ indents, j ≠ "")
    (hpre : ∀ j ∈ indents, j.toList <+: indent.toList) :
    (indent = indents.headD "" ↔ indent = "" ∨ indent ∈ indents) ∧
      (if indent = indents.headD "" then indents else indent :: indents) =
        (if indent = "" then [] else [indent]) ++ indents.filter (· ≠ indent) := by
  cases indents with
  | nil => by_cases h : indent = "" <;> simp [h]
  | cons top rest =>
      obtain ⟨htop, -⟩ := List.pairwise_cons.mp hindents
      have hne : indent ≠ "" := by
        rintro rfl
        have hnil := List.prefix_nil.mp (hpre top List.mem_cons_self)
        exact hroot top List.mem_cons_self (String.toList_inj.mp hnil)
      -- All blocks but the innermost one go on to another block, which the line goes on from.
      have hrest : ∀ j ∈ rest, j ≠ indent := by
        rintro j hj rfl
        exact (htop j hj).2 (eq_of_prefixes (htop j hj).1 (hpre top List.mem_cons_self))
      have hfilter : rest.filter (· ≠ indent) = rest :=
        List.filter_eq_self.mpr fun j hj => decide_eq_true (hrest j hj)
      rw [if_neg hne, List.headD_cons]
      by_cases heq : indent = top
      · subst heq
        rw [if_pos rfl, List.filter_cons_of_neg (by simp), hfilter]
        exact ⟨iff_of_true rfl (.inr List.mem_cons_self), rfl⟩
      · have hmem : indent ∉ top :: rest := fun h =>
          (List.mem_cons.mp h).elim heq fun h => hrest indent h rfl
        rw [if_neg heq, List.filter_cons_of_pos (by simpa using Ne.symm heq), hfilter]
        exact ⟨iff_of_false heq fun h => h.elim hne hmem, rfl⟩

theorem indents_of_closeBlocks {b b' : Builder} {t : Token} {indent : String}
    {indents : List String} (h : closeBlocks t indent indents b = .ok b') :
    b'.indents = indents.dropWhile (outdents indent) := by
  induction indents generalizing b with
  | nil =>
      cases h
      rfl
  | cons top rest ih =>
      rw [closeBlocks] at h
      split at h
      · next hclose =>
        obtain ⟨b₁, -, h⟩ := bind_eq_ok_iff.mp h
        have hclose : outdents indent top := hclose
        rw [List.dropWhile_cons_of_pos hclose]
        exact ih h
      · next hclose =>
        have hclose : ¬ outdents indent top := hclose
        cases h
        exact (List.dropWhile_cons_of_neg hclose).symm

/-- No block is closed from a line that is not less indented than the innermost one. -/
theorem closeBlocks_eq_self {b : Builder} {indent : String} (h : ¬ GoesOn b.topIndent indent)
    (t : Token) : closeBlocks t indent b.indents b = .ok b := by
  unfold topIndent at h
  cases hindents : b.indents with
  | nil => rw [closeBlocks, ← hindents]
  | cons top rest =>
      rw [hindents] at h
      have hstays : ¬ outdents indent top := fun hc => h (outdents_iff.mp hc)
      rw [closeBlocks, ← hindents]
      exact if_neg hstays

/-- What the indentation of a line does: it closes the blocks that are indented further, and opens
one if none of those that are left is that of the line. -/
theorem resolveIndent_eq {b : Builder} (hb : b.Shaped) (hn : b.nesting = 0) (t : Token) :
    b.resolveIndent t =
      if b.topIndent.toList <+: b.indent.toList ∨ b.indent.toList <+: b.topIndent.toList then do
        let b₁ ← closeBlocks t b.indent b.indents { b with indent := "" }
        return if b.indent = b₁.topIndent then b₁.flush else b₁.openBlock t b.indent
      else .error (.inconsistentIndent t.pos.line t.pos.col b.topIndent b.indent) := by
  have stays (hclose : ¬ GoesOn b.topIndent b.indent) :
      closeBlocks t b.indent b.indents { b with indent := "" } = .ok { b with indent := "" } :=
    closeBlocks_eq_self (b := { b with indent := "" }) hclose t
  unfold resolveIndent
  dsimp only
  split
  · next heq =>
    have heq : b.indent = b.topIndent := heq
    rw [if_pos (.inl (heq ▸ List.prefix_rfl)), stays fun h => h.2 heq]
    exact congrArg Except.ok (if_pos heq).symm
  · next hne =>
    have hne : b.indent ≠ b.topIndent := hne
    split
    · next hpre =>
      have hpre : b.topIndent.toList <+: b.indent.toList := List.isPrefixOf_iff_prefix.mp hpre
      rw [if_pos (.inl hpre), stays fun h => h.2 (eq_of_prefixes h.1 hpre)]
      exact congrArg Except.ok (if_neg hne).symm
    · next hgoes =>
      have hgoes : ¬ b.topIndent.toList <+: b.indent.toList := fun h =>
        hgoes (List.isPrefixOf_iff_prefix.mpr h)
      split
      · next hparts =>
        have hparts : ¬ b.indent.toList <+: b.topIndent.toList := fun h => by
          have hparts : (!b.indent.toList.isPrefixOf b.topIndent.toList) = true := hparts
          rw [List.isPrefixOf_iff_prefix.mpr h] at hparts
          cases hparts
        exact (if_neg (not_or.mpr ⟨hgoes, hparts⟩)).symm
      · next hstops =>
        have hpre : b.indent.toList <+: b.topIndent.toList := by
          have hstops : ¬ (!b.indent.toList.isPrefixOf b.topIndent.toList) = true := hstops
          exact List.isPrefixOf_iff_prefix.mp (by simpa using hstops)
        have hshape : Shape 0 b.indents b.kinds := hn ▸ hb
        obtain ⟨b₁, hclose, htop⟩ : ∃ b₁, closeBlocks t b.indent b.indents
            { b with indent := "" } = .ok b₁ ∧ b₁.topIndent.toList <+: b.indent.toList :=
          exists_closeBlocks (b := { b with indent := "" }) hshape (.inl hpre)
        rw [if_pos (.inr hpre), hclose]
        show (if b.indent = b₁.topIndent then .ok b₁.flush
          else if b₁.topIndent.toList.isPrefixOf b.indent.toList then .ok (b₁.openBlock t b.indent)
          else _) = Except.ok _
        rw [List.isPrefixOf_iff_prefix.mpr htop]
        split <;> rfl

/-- The blocks that are left are those that the line goes on from. -/
theorem exists_unblocked {b b' : Builder} {t : Token} (hb : b.Shaped) (hn : b.nesting = 0)
    (h : b.resolveIndent t = .ok b') :
    ∃ b₁, Unblocked t { b with indent := "" } b₁ ∧ b₁.Shaped ∧
      b₁.indents = b.indents.filter (fun j => j.toList <+: b.indent.toList) ∧
      b' = if b.indent = b₁.topIndent then b₁.flush else b₁.openBlock t b.indent := by
  rw [resolveIndent_eq hb hn] at h
  split at h
  · next hlines =>
    obtain ⟨b₁, hclose, h⟩ := bind_eq_ok_iff.mp h
    have hshape : Shape 0 b.indents b.kinds := hn ▸ hb
    obtain ⟨hun, hb₁⟩ := unblocked_of_closeBlocks (b := { b with indent := "" }) hn hshape hclose
    refine ⟨b₁, hun, hb₁, ?_, (Except.ok.inj h).symm⟩
    rw [indents_of_closeBlocks hclose]
    exact dropWhile_outdents hb.pairwise_indents.1 hlines.symm
  · cases h

/-! ### Open blocks -/

/-- A level that has got more children. -/
def Grows (t t' : OpenTree) : Prop := ∃ ns, t' = t.extend ns

instance : Std.Refl Grows where
  refl t := ⟨[], t.extend_nil.symm⟩

instance : IsTrans OpenTree Grows where
  trans t t' t'' h h' := by
    obtain ⟨ns, rfl⟩ := h
    obtain ⟨ms, rfl⟩ := h'
    exact ⟨ns ++ ms, t.extend_extend ns ms⟩

theorem grows_push (t : OpenTree) (n : Node) : Grows t (t.push n) := ⟨[n], t.push_eq_extend n⟩

theorem grow_trans {ts ts' ts'' : List OpenTree} (h : List.Forall₂ Grows ts ts')
    (h' : List.Forall₂ Grows ts' ts'') : List.Forall₂ Grows ts ts'' := by
  induction h generalizing ts'' with
  | nil => exact h'
  | cons hgrows _ ih =>
      cases h' with
      | cons hgrows' h' => exact .cons (IsTrans.trans _ _ _ hgrows hgrows') (ih h')

theorem exists_append_of_grow {ts us vs : List OpenTree} (h : List.Forall₂ Grows (ts ++ us) vs) :
    ∃ ts' us', vs = ts' ++ us' ∧ List.Forall₂ Grows ts ts' ∧ List.Forall₂ Grows us us' := by
  refine ⟨vs.take ts.length, vs.drop ts.length, (List.take_append_drop _ _).symm, ?_, ?_⟩
  · simpa using List.forall₂_take ts.length h
  · simpa using List.forall₂_drop ts.length h

/-- The open blocks, the outermost first. -/
def blocks (b : Builder) : List OpenTree :=
  ((b.current :: b.outer).filter (·.kind = .block)).reverse

theorem Shape.count_block {n : ℕ} {indents : List String} {ks : List TreeKind}
    (h : Shape n indents ks) : ks.count .block = indents.length := by
  induction h with
  | root => rfl
  | block _ _ _ ih => rw [List.count_cons_self, ih, List.length_cons]
  | wrapped _ ih => rw [List.count_cons_of_ne (by decide), ih]
  | string _ ih => rw [List.count_cons_of_ne (by decide), ih]
  | template _ ih => rw [List.count_cons_of_ne (by decide), ih]

theorem Shaped.length_blocks {b : Builder} (hb : b.Shaped) :
    b.blocks.length = b.indents.length := by
  have hb : Shape b.nesting b.indents ((b.current :: b.outer).map OpenTree.kind) := hb
  rw [← hb.count_block, blocks, List.length_reverse, List.count, List.countP_map,
    List.countP_eq_length_filter]
  rfl

theorem blocks_grow {ts ts' : List OpenTree} (h : List.Forall₂ Grows ts ts') :
    List.Forall₂ Grows (ts.filter (·.kind = .block)).reverse
      (ts'.filter (·.kind = .block)).reverse := by
  refine List.rel_reverse (List.rel_filter ?_ h)
  rintro t _ ⟨ns, rfl⟩
  exact Iff.rfl

/-- Closing blocks keeps the outer ones. -/
theorem Unblocked.exists_closed {b b' : Builder} {t : Token} (h : Unblocked t b b') :
    ∃ closed kept, b.current :: b.outer = closed ++ kept ∧ (∀ x ∈ closed, x.kind = .block) ∧
      List.Forall₂ Grows kept (b'.current :: b'.outer) := by
  induction h with
  | @done b indents => exact ⟨[], _, rfl, nofun, List.forall₂_refl _⟩
  | @close b b' parent rest hk houter _ ih =>
      obtain ⟨closed, kept, hlevels, hclosed, hkept⟩ := ih
      have hgrows := grows_push parent
        ((b.current.push (.token (t.markerBefore .levelEnd))).close none)
      rw [houter]
      cases closed with
      | nil =>
          obtain rfl : _ = kept := hlevels
          refine ⟨[b.current], parent :: rest, rfl, by simpa using hk, ?_⟩
          exact grow_trans (.cons hgrows (List.forall₂_refl rest)) hkept
      | cons first closed =>
          obtain ⟨rfl, rfl⟩ := List.cons.inj hlevels
          obtain ⟨hparent, hclosed⟩ := List.forall_mem_cons.mp hclosed
          refine ⟨b.current :: parent :: closed, kept, rfl, ?_, hkept⟩
          exact List.forall_mem_cons.mpr ⟨hk, List.forall_mem_cons.mpr ⟨hparent, hclosed⟩⟩

theorem Unblocked.grow_blocks {b b' : Builder} {t : Token} (h : Unblocked t b b')
    (hb' : b'.Shaped) : List.Forall₂ Grows (b.blocks.take b'.indents.length) b'.blocks := by
  obtain ⟨closed, kept, hlevels, hclosed, hkept⟩ := h.exists_closed
  have hkept := blocks_grow hkept
  have hlength := hkept.length_eq.trans hb'.length_blocks
  have hfilter : closed.filter (·.kind = .block) = closed :=
    List.filter_eq_self.mpr fun x hx => decide_eq_true (hclosed x hx)
  rw [blocks, hlevels, List.filter_append, hfilter, List.reverse_append,
    List.take_left' hlength]
  exact hkept

theorem grow_flush (b : Builder) : List.Forall₂ Grows b.blocks b.flush.blocks :=
  blocks_grow (.cons ⟨_, current_flush b⟩ (List.forall₂_refl b.outer))

theorem blocks_openDelimited {b : Builder} {k : TreeKind} (hk : k.isDelimited) (t : Token) :
    (b.openDelimited k t).blocks = b.blocks := by
  refine congrArg List.reverse (List.filter_cons_of_neg fun h => ?_)
  obtain rfl : k = .block := of_decide_eq_true h
  cases hk

/-- Outside all delimiters a token keeps the open blocks, and is in the innermost one. -/
theorem accept_of_undelimited {b b' : Builder} {t : Token} (hb : b.Shaped)
    (hk : b.current.kind.isDelimited = false) (hprev : b.previous.kind ≠ .stringValue)
    (h : b.accept t = .ok b') :
    b'.indents = b.indents ∧ List.Forall₂ Grows b.blocks b'.blocks := by
  unfold accept at h
  rw [if_neg (by simp [hprev])] at h
  obtain ⟨b₁, hplace, h⟩ := bind_eq_ok_iff.mp h
  cases h
  cases placed_of_place hb hplace with
  | @opens _ k hopens _ =>
      have hsame := blocks_openDelimited (b := b) (isDelimited_of_opens? hopens) t
      exact ⟨rfl, hsame ▸ List.forall₂_refl _⟩
  | closes hcloses _ => simp [isDelimited_of_closes? hcloses] at hk
  | child _ _ _ =>
      exact ⟨rfl, blocks_grow (.cons (grows_push _ _) (List.forall₂_refl b.outer))⟩
  | escapes htemplate _ _ _ =>
      rw [htemplate] at hk
      cases hk

/-! ### The first token of a line -/

theorem AtStart.push_eq {b : Builder} (h : b.AtStart) {t : Token} (ht : t.kind.isTrivia = false) :
    b.push t = b.resolveIndent t >>= fun b₁ => { b₁ with atLineStart := false }.accept t := by
  unfold push
  rw [h.begin_eq]
  dsimp only
  rw [if_pos (by simp [h.blocks, h.nesting])]
  split
  · next hk => simp [hk, TokenKind.isTrivia] at ht
  · next hk _ => simp [hk, TokenKind.isTrivia] at ht
  · next hk _ => simp [hk, TokenKind.isTrivia] at ht
  · rfl
  · next hfalse _ => simp [h.line] at hfalse

/-- The blocks around the first token of a line. -/
theorem AtStart.blocks_of_push {b b' : Builder} {t : Token} (h : b.AtStart)
    (ht : t.kind.isTrivia = false) (hpush : b.push t = .ok b') :
    b'.indents = (if b.indent = "" then [] else [b.indent]) ++
      b.indents.filter (fun j => j ≠ b.indent ∧ j.toList <+: b.indent.toList) ∧
    ∃ kept opened, b'.blocks = kept ++ opened ∧
      List.Forall₂ Grows
        (b.blocks.take (b.indents.countP fun j => j.toList <+: b.indent.toList)) kept ∧
      opened.length = (if b.indent = "" ∨ b.indent ∈ b.indents then 0 else 1) ∧
      ∀ x ∈ opened, x.children.toList.head? = some (.token (t.markerBefore .levelStart)) := by
  rw [h.push_eq ht] at hpush
  obtain ⟨b₂, hresolve, haccept⟩ := bind_eq_ok_iff.mp hpush
  have hlaid := laid_of_resolveIndent h.shaped h.blocks h.nesting h.line ht hresolve
  have hb₂ := hlaid.shaped h.shaped
  obtain ⟨b₁, hun, hb₁, hindents, rfl⟩ := exists_unblocked h.shaped h.nesting hresolve
  have hleft (j : String) : j ∈ b₁.indents ↔ j ∈ b.indents ∧ j.toList <+: b.indent.toList := by
    rw [hindents, List.mem_filter, decide_eq_true_iff]
  obtain ⟨htop, hline⟩ := indents_of_line hb₁.pairwise_indents.1 hb₁.pairwise_indents.2
    fun j hj => ((hleft j).mp hj).2
  have hinner : b₁.indents.filter (· ≠ b.indent) =
      b.indents.filter (fun j => j ≠ b.indent ∧ j.toList <+: b.indent.toList) := by
    rw [hindents, List.filter_filter]
    exact List.filter_congr fun j _ => (Bool.decide_and _ _).symm
  have hopen : (b.indent = "" ∨ b.indent ∈ b₁.indents) ↔ b.indent = "" ∨ b.indent ∈ b.indents := by
    rw [hleft, and_iff_left List.prefix_rfl]
  have hkept := hun.grow_blocks hb₁
  rw [hindents, ← List.countP_eq_length_filter] at hkept
  have hframe : b₁.nesting = 0 ∧ b₁.previous = b.previous := by
    obtain ⟨_, _, _, rfl⟩ := hun.frame
    exact ⟨h.nesting, rfl⟩
  by_cases heq : b.indent = b₁.topIndent
  · have hk : b₁.current.kind.isDelimited = false :=
      Bool.eq_false_iff.mpr fun hk => hb₁.isDelimited_iff.mp hk hframe.1
    rw [if_pos heq] at haccept hb₂
    obtain ⟨hindents', hgrow⟩ := accept_of_undelimited hb₂ hk (hframe.2 ▸ h.previous) haccept
    refine ⟨?_, b'.blocks, [], (List.append_nil _).symm, ?_, ?_, nofun⟩
    · rw [← hinner, ← hline]
      exact hindents'.trans (if_pos heq).symm
    · exact grow_trans (grow_trans hkept (grow_flush b₁)) hgrow
    · rw [if_pos (hopen.mp (htop.mp heq))]
      rfl
  · rw [if_neg heq] at haccept hb₂
    obtain ⟨hindents', hgrow⟩ := accept_of_undelimited hb₂ rfl (hframe.2 ▸ h.previous) haccept
    have hblocks : (b₁.openBlock t b.indent).blocks =
        b₁.blocks ++ [(b₁.openBlock t b.indent).current] := List.reverse_cons
    have hgrow : List.Forall₂ Grows (b₁.openBlock t b.indent).blocks b'.blocks := hgrow
    rw [hblocks] at hgrow
    obtain ⟨kept, opened, hsplit, hgrow, hopened⟩ := exists_append_of_grow hgrow
    refine ⟨?_, kept, opened, hsplit, grow_trans hkept hgrow, ?_, ?_⟩
    · rw [← hinner, ← hline]
      exact hindents'.trans (if_neg heq).symm
    · rw [← hopened.length_eq, if_neg fun h => heq (htop.mpr (hopen.mpr h))]
      rfl
    · obtain ⟨x, _, ⟨ns, rfl⟩, hnil, rfl⟩ := List.forall₂_cons_left_iff.mp hopened
      cases hnil
      simp [openBlock, OpenTree.extend]

/-- **The blocks of a line.**  Let blocks be made.  Building fails exactly at a token that begins a
line whose indent and that of the innermost block part ways: none of the two begins the other.  At
any other line, the indents of the open blocks are afterwards those from before that the line's
indent goes on from, and then the line's indent, unless it is empty.  The blocks whose indents begin
that of the line stay open, a block of the line's own indent among them; otherwise one is opened at
the token. -/
theorem blocks_of_lines (hlayout : layout.indentBlocks) :
    (∀ tokens e, Tree.ofTokens layout tokens = .error e ↔
      ∃ head gap t later b, tokens = head ++ gap ++ t :: later ∧ OpensLine layout head gap t ∧
        (head ++ gap).foldlM push (start layout) = .ok b ∧
        ¬ b.topIndent.toList <+: (lineIndent gap).toList ∧
        ¬ (lineIndent gap).toList <+: b.topIndent.toList ∧
        e = .inconsistentIndent t.pos.line t.pos.col b.topIndent (lineIndent gap)) ∧
    ∀ head gap t b, OpensLine layout head gap t →
      (head ++ gap).foldlM push (start layout) = .ok b →
      b.topIndent.toList <+: (lineIndent gap).toList ∨
        (lineIndent gap).toList <+: b.topIndent.toList →
      ∃ b', b.push t = .ok b' ∧
        b'.indents.reverse = b.indents.reverse.filter
            (fun j => j ≠ lineIndent gap ∧ j.toList <+: (lineIndent gap).toList) ++
          (if lineIndent gap = "" then [] else [lineIndent gap]) ∧
        b.blocks.length = b.indents.length ∧
        ∃ kept opened, b'.blocks = kept ++ opened ∧
          List.Forall₂ Grows
            (b.blocks.take (b.indents.countP fun j => j.toList <+: (lineIndent gap).toList))
            kept ∧
          opened.length = (if lineIndent gap = "" ∨ lineIndent gap ∈ b.indents then 0 else 1) ∧
          ∀ x ∈ opened,
            x.children.toList.head? = some (.token (t.markerBefore .levelStart)) := by
  constructor
  · intro tokens e
    constructor
    · intro h
      obtain ⟨earlier, t, later, b, rfl, hrun, hpush⟩ := exists_push_of_ofTokens_eq_error h
      obtain ⟨⟨-, -, hl, ht⟩, hexpected, hfound, rfl⟩ :=
        (push_eq_error_iff (shaped_of_foldlM hrun)).mp hpush
      obtain ⟨head, gap, rfl, hstart, hgap⟩ := exists_lineStart hlayout hrun hl
      rw [(indent_of_lineStart hlayout hstart hgap hrun).2] at hexpected hfound ⊢
      exact ⟨head, gap, t, later, b, rfl, ⟨hstart, hgap, ht⟩, hrun, hexpected, hfound, rfl⟩
    · rintro ⟨head, gap, t, later, b, rfl, hline, hrun, hexpected, hfound, rfl⟩
      obtain ⟨hl, hindent⟩ := indent_of_lineStart hlayout hline.start hline.gap hrun
      have hb := atStart_of_foldlM hlayout hrun hl
      rw [← hindent] at hexpected hfound ⊢
      have hpush := (push_eq_error_iff hb.shaped (t := t)).mpr
        ⟨⟨hb.blocks, hb.nesting, hl, hline.code⟩, hexpected, hfound, rfl⟩
      unfold Tree.ofTokens
      rw [foldlM_eq_error_iff.mpr ⟨head ++ gap, t, later, b, rfl, hrun, hpush⟩]
      rfl
  · intro head gap t b hline hrun hlines
    obtain ⟨hl, hindent⟩ := indent_of_lineStart hlayout hline.start hline.gap hrun
    have hb := atStart_of_foldlM hlayout hrun hl
    rw [← hindent] at hlines ⊢
    cases hpush : b.push t with
    | error e =>
        obtain ⟨-, hexpected, hfound, -⟩ := (push_eq_error_iff hb.shaped).mp hpush
        exact absurd hlines (not_or.mpr ⟨hexpected, hfound⟩)
    | ok b' =>
        obtain ⟨hindents, hblocks⟩ := hb.blocks_of_push hline.code hpush
        refine ⟨b', rfl, ?_, hb.shaped.length_blocks, hblocks⟩
        rw [hindents, List.reverse_append, List.filter_reverse]
        split <;> rfl

/-- Three lines, each one indented further than the one before it. -/
def deepeningLines : List Token :=
  [.make .symbol "a" ⟨0, 1, 1⟩, .make .newline "\n" ⟨1, 1, 2⟩, .make .whitespace "  " ⟨2, 2, 1⟩,
   .make .symbol "b" ⟨4, 2, 3⟩, .make .newline "\n" ⟨5, 2, 4⟩, .make .whitespace "    " ⟨6, 3, 1⟩,
   .make .symbol "c" ⟨10, 3, 5⟩, .make .newline "\n" ⟨11, 3, 6⟩]

/-- A gap with a comment in it. -/
def commentedGap : List Token :=
  [.make .whitespace " " ⟨12, 4, 1⟩, .make .comment "#" ⟨13, 4, 2⟩,
   .make .whitespace "   " ⟨14, 4, 3⟩]

/-- A fourth line that is indented between the second and the third one keeps the block of the
second one, and begins one.  With a tab it has no place. -/
theorem blocks_of_lines_deepeningLines :
    ∃ b b' : Builder,
      (deepeningLines ++ commentedGap).foldlM push (start { indentBlocks := true }) = .ok b ∧
      b.push (.make .symbol "d" ⟨17, 4, 6⟩) = .ok b' ∧
      b.indents.reverse = ["  ", "    "] ∧ b'.indents.reverse = ["  ", "   "] ∧
      (∃ kept opened, b'.blocks = kept ++ opened ∧
        List.Forall₂ Grows (b.blocks.take 1) kept ∧ opened.length = 1) ∧
      Tree.ofTokens { indentBlocks := true } (deepeningLines ++
        [.make .whitespace "\t" ⟨12, 4, 1⟩, .make .symbol "d" ⟨13, 4, 2⟩]) =
        .error (.inconsistentIndent 4 2 "    " "\t") := by
  have hstart : LineStart { indentBlocks := true } deepeningLines :=
    .inr ⟨deepeningLines.dropLast, .make .newline "\n" ⟨11, 3, 6⟩, _, rfl, rfl, rfl, rfl⟩
  have hlayout : ({ indentBlocks := true } : Layout).indentBlocks := rfl
  obtain ⟨hfails, hlines⟩ := blocks_of_lines hlayout
  obtain ⟨b, hrun, hindents⟩ : ∃ b : Builder,
      (deepeningLines ++ commentedGap).foldlM push (start { indentBlocks := true }) = .ok b ∧
      b.indents = ["    ", "  "] := ⟨_, rfl, rfl⟩
  have hindent : lineIndent commentedGap = "   " := by decide +kernel
  obtain ⟨b', hpush, hindents', -, kept, opened, hblocks, hkept, hopened, -⟩ :=
    hlines deepeningLines commentedGap (.make .symbol "d" ⟨17, 4, 6⟩) b
      ⟨hstart, by decide, rfl⟩ hrun (.inr (by rw [topIndent, hindents, hindent]; decide))
  rw [hindents, hindent] at hindents' hkept hopened
  refine ⟨b, b', hrun, hpush, congrArg List.reverse hindents, hindents'.trans ?_,
    ⟨kept, opened, hblocks, hkept, hopened⟩, ?_⟩
  · decide
  · refine (hfails _ _).mpr ⟨deepeningLines, [.make .whitespace "\t" ⟨12, 4, 1⟩],
      .make .symbol "d" ⟨13, 4, 2⟩, [], _, rfl, ⟨hstart, by decide, rfl⟩, rfl, ?_, ?_, ?_⟩
    all_goals decide +kernel

end Builder

end Nesting
