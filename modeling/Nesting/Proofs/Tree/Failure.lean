import Mathlib.Data.List.Chain
import Nesting.Proofs.Tree.Leaves

/-! # When building fails

Between two tokens a builder is `Coherent`: its levels are the root, one block for each indent and
as many delimited levels as it counts, a template lies directly inside a string, every indent goes
on from the one around it, and blanks wait only outside all delimiters.

Therefore every level that a token closes is open, and a token can only fail by its indentation.
Blocks are closed from an indent that goes on from the text of the line, so the innermost indent
that is left lines up with that text (`exists_closeBlocks`): the one way to fail is that neither
goes on from the other before any block is closed (`push_eq_error_iff`).  The count of delimited
levels moves by exactly `TokenKind.nestingChange`, so it is never taken below zero. -/

namespace Nesting

/-- How many more delimited levels are open after a token of a kind than before it, when the
innermost level is of a given kind. -/
def TokenKind.nestingChange : TokenKind → TreeKind → Int
  | .bracketLeft, _ | .stringStart, _ | .templateStart, .string => 1
  | .bracketRight, .wrapped | .stringEnd, .string | .templateEnd, .template
  | .stringValue, .template => -1
  | .stringEnd, .template => -2
  | _, _ => 0

/-- Outside all delimiters a token can only open a level. -/
theorem TokenKind.nestingChange_eq_of_undelimited (k : TokenKind) {level level' : TreeKind}
    (h : level.isDelimited = false) (h' : level'.isDelimited = false) :
    k.nestingChange level = k.nestingChange level' := by
  have at_root {level : TreeKind} (h : level.isDelimited = false) :
      k.nestingChange level = k.nestingChange .root := by
    cases level with
    | root => rfl
    | block => cases k <;> rfl
    | _ => cases h
  rw [at_root h, at_root h']

theorem TokenKind.nestingChange_of_child {k : TokenKind} {level : TreeKind}
    (hopens : ∀ tree, k.opens? = some tree → tree = .template ∧ level ≠ .string)
    (hcloses : k.closes? ≠ some level)
    (hleaves : ¬ (level = .template ∧ k.leavesTemplate)) : k.nestingChange level = 0 := by
  cases k with
  | bracketLeft => exact absurd (hopens _ rfl).1 (by decide)
  | stringStart => exact absurd (hopens _ rfl).1 (by decide)
  | templateStart =>
      cases level with
      | string => exact absurd rfl (hopens _ rfl).2
      | template => exact absurd ⟨rfl, rfl⟩ hleaves
      | _ => rfl
  | bracketRight =>
      cases level with
      | wrapped => exact absurd rfl hcloses
      | _ => rfl
  | stringEnd =>
      cases level with
      | string => exact absurd rfl hcloses
      | template => exact absurd ⟨rfl, rfl⟩ hleaves
      | _ => rfl
  | templateEnd =>
      cases level with
      | template => exact absurd rfl hcloses
      | _ => rfl
  | stringValue =>
      cases level with
      | template => exact absurd ⟨rfl, rfl⟩ hleaves
      | _ => rfl
  | _ => rfl

namespace Builder

/-! ### The shape of the levels -/

/-- What holds of a builder between two tokens. -/
structure Coherent (b : Builder) : Prop where
  /-- The root, a block for each indent, and as many delimited levels as are counted. -/
  levels : ∃ delimited : List TreeKind,
    b.kinds = delimited ++ List.replicate b.indents.length .block ++ [.root] ∧
    delimited.length = b.nesting ∧ ∀ k ∈ delimited, k.isDelimited
  /-- A template is directly inside a string. -/
  template : ∀ inside around, b.kinds = inside ++ .template :: around →
    around.head? = some .string
  /-- An indent goes on from the one around it, and the outermost one has a text. -/
  indents : (b.indents ++ [""]).IsChain fun inner outer =>
    outer.toList <+: inner.toList ∧ outer ≠ inner
  /-- Blanks wait outside all delimiters. -/
  waiting : b.waiting ≠ [] → b.nesting = 0

theorem Shape.levels {n : Nat} {indents : List String} {ks : List TreeKind}
    (h : Shape n indents ks) : ∃ delimited : List TreeKind,
      ks = delimited ++ List.replicate indents.length .block ++ [.root] ∧
      delimited.length = n ∧ ∀ k ∈ delimited, k.isDelimited := by
  -- A delimited level is added in front of those there are.
  have add {n : Nat} {ks blocks : List TreeKind} {k : TreeKind} (hk : k.isDelimited)
      (h : ∃ delimited : List TreeKind, ks = delimited ++ blocks ++ [.root] ∧
        delimited.length = n ∧ ∀ k ∈ delimited, k.isDelimited) :
      ∃ delimited : List TreeKind, k :: ks = delimited ++ blocks ++ [.root] ∧
        delimited.length = n + 1 ∧ ∀ k ∈ delimited, k.isDelimited := by
    obtain ⟨delimited, rfl, rfl, hall⟩ := h
    exact ⟨k :: delimited, rfl, rfl, List.forall_mem_cons.mpr ⟨hk, hall⟩⟩
  induction h with
  | root => exact ⟨[], rfl, rfl, by simp⟩
  | block _ _ _ ih =>
      obtain ⟨delimited, rfl, hlength, -⟩ := ih
      obtain rfl := List.length_eq_zero_iff.mp hlength
      exact ⟨[], rfl, rfl, by simp⟩
  | wrapped _ ih => exact add rfl ih
  | string _ ih => exact add rfl ih
  | template _ ih => exact add rfl ih

theorem Shape.head_of_template {n : Nat} {indents : List String} {ks : List TreeKind}
    (h : Shape n indents ks) (inside around : List TreeKind)
    (hks : ks = inside ++ .template :: around) : around.head? = some .string := by
  induction h generalizing inside with
  | root => cases inside <;> simp at hks
  | block _ _ _ ih =>
      cases inside with
      | nil => cases hks
      | cons k inside => exact ih inside (List.cons.inj hks).2
  | wrapped _ ih =>
      cases inside with
      | nil => cases hks
      | cons k inside => exact ih inside (List.cons.inj hks).2
  | string _ ih =>
      cases inside with
      | nil => cases hks
      | cons k inside => exact ih inside (List.cons.inj hks).2
  | template _ ih =>
      cases inside with
      | nil =>
          cases hks
          rfl
      | cons k inside => exact ih inside (List.cons.inj hks).2

theorem Shape.indents {n : Nat} {indents : List String} {ks : List TreeKind}
    (h : Shape n indents ks) : (indents ++ [""]).IsChain fun inner outer =>
      outer.toList <+: inner.toList ∧ outer ≠ inner := by
  induction h with
  | root => exact List.isChain_singleton ""
  | @block indents _ indent _ hne hpre ih =>
      cases indents with
      | nil => exact List.isChain_cons_cons.mpr ⟨⟨hpre, hne⟩, ih⟩
      | cons outer indents => exact List.isChain_cons_cons.mpr ⟨⟨hpre, hne⟩, ih⟩
  | wrapped _ ih => exact ih
  | string _ ih => exact ih
  | template _ ih => exact ih

theorem Accounted.coherent {b : Builder} {ts : List Token} (h : b.Accounted ts) :
    b.Coherent where
  levels := h.shaped.levels
  template := h.shaped.head_of_template
  indents := h.shaped.indents
  waiting hw := h.line (h.waits hw).1 (h.waits hw).2

/-! ### Levels that can be closed -/

theorem Shaped.exists_outer {b : Builder} (hb : b.Shaped) (hk : b.current.kind ≠ .root) :
    ∃ parent rest, b.outer = parent :: rest := by
  cases houter : b.outer with
  | cons parent rest => exact ⟨parent, rest, rfl⟩
  | nil =>
      have hb : Shape b.nesting b.indents (b.current.kind :: b.outer.map OpenTree.kind) := hb
      rw [houter] at hb
      generalize b.nesting = n, b.indents = indents, b.current.kind = k at hb hk
      cases hb with
      | root => exact absurd rfl hk
      | block h _ _ => cases h
      | wrapped h => cases h
      | string h => cases h

theorem Shaped.isDelimited_iff {b : Builder} (hb : b.Shaped) :
    b.current.kind.isDelimited ↔ b.nesting ≠ 0 := by
  have hb : Shape b.nesting b.indents (b.current.kind :: b.outer.map OpenTree.kind) := hb
  generalize b.nesting = n, b.indents = indents, b.current.kind = k,
    b.outer.map OpenTree.kind = ks at hb ⊢
  cases hb <;> simp [TreeKind.isDelimited]

theorem exists_closeDelimited {b : Builder} (hb : b.Shaped) (hk : b.current.kind.isDelimited)
    (t : Token) : ∃ b', b.closeDelimited t = .ok b' := by
  obtain ⟨parent, rest, houter⟩ := hb.exists_outer fun h => by simp [h, TreeKind.isDelimited] at hk
  exact ⟨_, closeDelimited_eq_ok_iff.mpr ⟨parent, rest, houter, rfl⟩⟩

theorem exists_closeTemplate {b : Builder} (hb : b.Shaped) (hk : b.current.kind = .template)
    (t : Token) : ∃ b', b.closeTemplate t = .ok b' ∧ b'.Shaped ∧ b'.current.kind = .string := by
  obtain ⟨parent, rest, houter⟩ := hb.exists_outer fun h => by simp [hk] at h
  refine ⟨_, closeTemplate_eq_ok_iff.mpr ⟨parent, rest, houter, rfl⟩, ?_, ?_⟩
  · exact hb.closedDelimited houter (by rw [hk]; rfl) _ _
  · have hparent := hb.kind_of_template hk houter
    exact hparent

theorem exists_place {b : Builder} (hb : b.Shaped) (t : Token) : ∃ b', b.place t = .ok b' := by
  unfold place
  split
  · next hk =>
    obtain ⟨b₁, h₁, -, -⟩ := exists_closeTemplate hb hk t
    rw [h₁]
    exact ⟨_, rfl⟩
  · exact ⟨_, rfl⟩
  · next hk => exact exists_closeDelimited hb (by rw [hk]; rfl) t
  · next hk => exact exists_closeDelimited hb (by rw [hk]; rfl) t
  · next hk => exact exists_closeDelimited hb (by rw [hk]; rfl) t
  · exact ⟨_, rfl⟩
  · exact ⟨_, rfl⟩
  · next hk =>
    obtain ⟨b₁, h₁, -, -⟩ := exists_closeTemplate hb hk t
    rw [h₁]
    exact ⟨_, rfl⟩
  · next hk =>
    obtain ⟨b₁, h₁, hb₁, hs⟩ := exists_closeTemplate hb hk t
    rw [h₁]
    exact exists_closeDelimited hb₁ (by rw [hs]; rfl) t
  · exact ⟨_, rfl⟩

theorem exists_accept {b : Builder} (hb : b.Shaped) (t : Token) : ∃ b', b.accept t = .ok b' := by
  unfold accept
  split
  · exact ⟨_, rfl⟩
  · obtain ⟨b', h⟩ := exists_place hb t
    rw [h]
    exact ⟨_, rfl⟩

/-! ### Indentation -/

/-- Closing blocks succeeds, and the innermost indent that is left begins the text of the line, if
one of the two begins the other before. -/
theorem exists_closeBlocks {b : Builder} {t : Token} {indent : String} {indents : List String}
    (hb : Shape 0 indents b.kinds)
    (hlines : indent.toList <+: (indents.headD "").toList ∨
      (indents.headD "").toList <+: indent.toList) :
    ∃ b', closeBlocks t indent indents b = .ok b' ∧ b'.topIndent.toList <+: indent.toList := by
  induction indents generalizing b with
  | nil => exact ⟨_, rfl, List.nil_prefix⟩
  | cons top rest ih =>
      rw [closeBlocks]
      split
      · next hclose =>
        obtain ⟨hne, hpre⟩ := Bool.and_eq_true_iff.mp hclose
        have hpre : indent.toList <+: top.toList := List.isPrefixOf_iff_prefix.mp hpre
        have hb : Shape 0 (top :: rest) (b.current.kind :: b.outer.map OpenTree.kind) := hb
        generalize hk : b.current.kind = k at hb
        generalize hks : b.outer.map OpenTree.kind = ks at hb
        cases hb with
        | block hrest _ hgoes =>
            cases houter : b.outer with
            | nil =>
                rw [houter] at hks
                subst hks
                cases hrest
            | cons parent outer =>
                have hclosed : b.closeLevel none (t.markerBefore .levelEnd) = .ok _ :=
                  closeLevel_eq_ok_iff.mpr ⟨parent, outer, houter, rfl⟩
                rw [hclosed]
                refine ih (b := b.closed none (t.markerBefore .levelEnd) parent outer) ?_
                  (List.prefix_or_prefix_of_prefix hpre hgoes)
                rw [houter] at hks
                subst hks
                exact hrest
      · next hclose =>
        refine ⟨_, rfl, ?_⟩
        show top.toList <+: indent.toList
        rcases hlines with hpre | hpre
        · have hpre : indent.toList <+: top.toList := hpre
          by_cases heq : top = indent
          · exact heq ▸ List.prefix_rfl
          · exact absurd (by simp [heq, hpre]) hclose
        · exact hpre

/-- Indentation fails when the text of the line and the innermost indent part ways, before any
block is closed. -/
theorem resolveIndent_eq_error_iff {b : Builder} (hb : b.Shaped) (hn : b.nesting = 0) {t : Token}
    {e : BuildError} :
    b.resolveIndent t = .error e ↔
      ¬ b.topIndent.toList <+: b.indent.toList ∧ ¬ b.indent.toList <+: b.topIndent.toList ∧
      e = .inconsistentIndent t.pos.line t.pos.col b.topIndent b.indent := by
  have goes_iff : b.topIndent.toList.isPrefixOf b.indent.toList ↔
      b.topIndent.toList <+: b.indent.toList := List.isPrefixOf_iff_prefix
  have stops_iff : b.indent.toList.isPrefixOf b.topIndent.toList ↔
      b.indent.toList <+: b.topIndent.toList := List.isPrefixOf_iff_prefix
  unfold resolveIndent
  dsimp only
  split
  · next heq =>
    have hpre : b.topIndent.toList <+: b.indent.toList :=
      (show b.indent = b.topIndent from heq) ▸ List.prefix_rfl
    exact iff_of_false nofun fun h => h.1 hpre
  · split
    · next hgoes => exact iff_of_false nofun fun h => h.1 (goes_iff.mp hgoes)
    · next hgoes =>
      have hgoes : ¬ b.topIndent.toList <+: b.indent.toList := fun h => hgoes (goes_iff.mpr h)
      split
      · next hparts =>
        have hparts : ¬ b.indent.toList <+: b.topIndent.toList := fun h => by
          have hparts : (!b.indent.toList.isPrefixOf b.topIndent.toList) = true := hparts
          rw [stops_iff.mpr h] at hparts
          cases hparts
        constructor
        · intro h
          cases h
          exact ⟨hgoes, hparts, rfl⟩
        · rintro ⟨-, -, rfl⟩
          rfl
      · next hstops =>
        have hpre : b.indent.toList <+: b.topIndent.toList := by
          have hstops : ¬ (!b.indent.toList.isPrefixOf b.topIndent.toList) = true := hstops
          exact stops_iff.mp (by simpa using hstops)
        refine iff_of_false ?_ fun h => h.2.1 hpre
        have hshape : Shape 0 b.indents b.kinds := hn ▸ hb
        obtain ⟨b₁, hclose, htop⟩ : ∃ b₁, closeBlocks t b.indent b.indents
            { b with indent := "" } = .ok b₁ ∧ b₁.topIndent.toList <+: b.indent.toList :=
          exists_closeBlocks (b := { b with indent := "" }) hshape (.inl hpre)
        rw [hclose]
        show ¬ (if b.indent = b₁.topIndent then .ok b₁.flush
          else if b₁.topIndent.toList.isPrefixOf b.indent.toList then .ok (b₁.openBlock t b.indent)
          else _) = Except.error e
        rw [List.isPrefixOf_iff_prefix.mpr htop]
        split <;> nofun

/-- The only failure is a line whose text and the innermost indent part ways. -/
theorem push_eq_error_iff {b : Builder} (hb : b.Shaped) {t : Token} {e : BuildError} :
    b.push t = .error e ↔
      (b.indentBlocks ∧ b.nesting = 0 ∧ b.atLineStart ∧ t.kind.isTrivia = false) ∧
      ¬ b.topIndent.toList <+: b.indent.toList ∧ ¬ b.indent.toList <+: b.topIndent.toList ∧
      e = .inconsistentIndent t.pos.line t.pos.col b.topIndent b.indent := by
  have accepted {b₁ : Builder} (hb₁ : b₁.Shaped) {P : Prop} (hP : ¬ P) :
      b₁.accept t = .error e ↔ P := by
    obtain ⟨b', h⟩ := exists_accept hb₁ t
    rw [h]
    exact iff_of_false nofun hP
  -- The start marker of a level plays no part.
  have hb₀ := hb.begin t
  obtain ⟨children, hbegin⟩ := b.begin_eq t
  have hblocks : (b.begin t).indentBlocks = b.indentBlocks := by rw [hbegin]
  have hnesting : (b.begin t).nesting = b.nesting := by rw [hbegin]
  have hline : (b.begin t).atLineStart = b.atLineStart := by rw [hbegin]
  have htop : (b.begin t).topIndent = b.topIndent := by rw [hbegin]; rfl
  have hindent : (b.begin t).indent = b.indent := by rw [hbegin]
  unfold push
  rw [← hblocks, ← hnesting, ← hline, ← htop, ← hindent]
  generalize b.begin t = b₀ at hb₀
  dsimp only
  split
  · next h₀ =>
    obtain ⟨hi, hn⟩ := Bool.and_eq_true_iff.mp h₀
    have hn : b₀.nesting = 0 := of_decide_eq_true hn
    split
    · next ht =>
      refine accepted ((Laid.newline hi hn ht).shaped hb₀) fun h => ?_
      simp [ht, TokenKind.isTrivia] at h
    · next ht _ =>
      refine iff_of_false nofun fun h => ?_
      simp [ht, TokenKind.isTrivia] at h
    · next ht hl =>
      refine accepted ((Laid.comment hi hn hl ht).shaped hb₀) fun h => ?_
      simp [ht, TokenKind.isTrivia] at h
    · next hl hnew hblank hcomment =>
      have htrivia : t.kind.isTrivia = false := by
        cases hk : t.kind with
        | newline => exact (hnew hk).elim
        | whitespace => exact (hblank hk).elim
        | comment => exact (hcomment hk).elim
        | _ => rfl
      have hstart : b₀.indentBlocks ∧ b₀.nesting = 0 ∧ b₀.atLineStart ∧ t.kind.isTrivia = false :=
        ⟨hi, hn, hl, htrivia⟩
      rw [and_iff_right hstart, ← resolveIndent_eq_error_iff hb₀ hn]
      cases hresolve : b₀.resolveIndent t with
      | error e' => exact Iff.rfl
      | ok b₁ =>
          have hb₁ := (laid_of_resolveIndent hb₀ hi hn hl htrivia hresolve).shaped hb₀
          exact accepted hb₁ nofun
    · next hl _ =>
      refine accepted hb₀ fun h => ?_
      simp [hl] at h
  · next h₀ =>
    refine accepted hb₀ fun h => h₀ ?_
    simp [h.1.1, h.1.2.1]

/-! ### The end -/

theorem exists_closeAll {b : Builder} {outer : List OpenTree} (houter : b.outer = outer) :
    ∃ b', closeAll outer b = .ok b' := by
  induction outer generalizing b with
  | nil => exact ⟨b, rfl⟩
  | cons parent rest ih =>
      have close {begun : Builder} (ho : begun.outer = parent :: rest) :
          ∃ b', (begun.closeLevel none (begun.previous.markerAfter .levelEnd) >>= closeAll rest) =
            .ok b' := by
        rw [closeLevel_eq_ok_iff.mpr ⟨parent, rest, ho, rfl⟩]
        exact ih rfl
      rw [closeAll]
      split
      · exact close houter
      · exact close houter

theorem exists_finish (b : Builder) : ∃ tree, b.finish = .ok tree := by
  obtain ⟨b', h⟩ := exists_closeAll (b := b.flush) rfl
  unfold finish
  dsimp only
  rw [h]
  exact ⟨_, rfl⟩

/-! ### The count of delimited levels -/

theorem Placed.nesting_eq {b b' : Builder} {t : Token} (h : Placed t b b') (hb : b.Shaped) :
    (b'.nesting : Int) = b.nesting + t.kind.nestingChange b.current.kind := by
  induction h with
  | @opens b k hopens hstring =>
      have hchange : t.kind.nestingChange b.current.kind = 1 := by
        rcases TokenKind.opens?_eq_some_iff.mp hopens with ⟨ht, rfl⟩ | ⟨ht, rfl⟩ | ⟨ht, rfl⟩
        · rw [ht]
          rfl
        · rw [ht]
          rfl
        · rw [ht, hstring rfl]
          rfl
      show ((b.nesting + 1 : Nat) : Int) = _
      rw [hchange]
      rfl
  | @closes b parent rest hcloses houter =>
      have hn := hb.isDelimited_iff.mp (isDelimited_of_closes? hcloses)
      have hchange : t.kind.nestingChange b.current.kind = -1 := by
        rcases TokenKind.closes?_eq_some_iff.mp hcloses with ⟨ht, hk⟩ | ⟨ht, hk⟩ | ⟨ht, hk⟩ <;>
          rw [ht, hk] <;> rfl
      show ((b.nesting - 1 : Nat) : Int) = _
      rw [hchange]
      omega
  | child hopens hcloses hleaves =>
      rw [TokenKind.nestingChange_of_child hopens hcloses hleaves, Int.add_zero]
      rfl
  | @escapes b b' parent rest hk hleaves houter hplaced ih =>
      -- The string around the template sees the token as if the template had been closed before.
      have hn := hb.isDelimited_iff.mp (by rw [hk]; rfl)
      have hb₁ := hb.closedDelimited houter (by rw [hk]; rfl) (t.markerBefore .templateEnd)
        (t.markerBefore .levelEnd)
      have hparent : parent.kind = .string := hb.kind_of_template hk houter
      have hcount : (b'.nesting : Int) =
          ((b.nesting - 1 : Nat) : Int) + t.kind.nestingChange parent.kind := ih hb₁
      have hchange : t.kind.nestingChange b.current.kind =
          t.kind.nestingChange parent.kind - 1 := by
        rw [hk, hparent]
        rcases TokenKind.leavesTemplate_iff.mp hleaves with ht | ht | ht <;> rw [ht] <;> rfl
      rw [hcount, hchange]
      omega

/-- Indentation changes the innermost level outside all delimiters only, and no count. -/
theorem Laid.nestingChange_eq {b b' : Builder} {t : Token} (h : Laid t b b') (hb : b.Shaped) :
    b'.nesting = b.nesting ∧
      t.kind.nestingChange b'.current.kind = t.kind.nestingChange b.current.kind := by
  have hn : b'.nesting = b.nesting := by
    obtain ⟨_, _, _, _, _, _, rfl⟩ := h.frame
    rfl
  refine ⟨hn, ?_⟩
  by_cases h₀ : b.nesting = 0
  · have hk : b.current.kind.isDelimited = false :=
      Bool.eq_false_iff.mpr fun hk => hb.isDelimited_iff.mp hk h₀
    have hk' : b'.current.kind.isDelimited = false :=
      Bool.eq_false_iff.mpr fun hk => (h.shaped hb).isDelimited_iff.mp hk (hn.trans h₀)
    exact t.kind.nestingChange_eq_of_undelimited hk' hk
  · rw [h.eq_self_of_nesting h₀]

/-- The count of delimited levels moves by what the token does to them, and never stops at zero. -/
theorem Step.nesting_eq {b b' : Builder} {t : Token} (h : Step t b b') (hb : b.Shaped) :
    (b'.nesting : Int) = b.nesting + t.kind.nestingChange b.current.kind := by
  obtain ⟨children, hbegin⟩ := b.begin_eq t
  have hn : (b.begin t).nesting = b.nesting := by rw [hbegin]
  have hk : (b.begin t).current.kind = b.current.kind := by rw [hbegin]
  rw [← hn, ← hk]
  cases h with
  | waits h₀ _ _ _ ht =>
      rw [ht, h₀]
      exact (Int.add_zero _).symm
  | @merges b₁ hlaid ht hlevel _ =>
      obtain ⟨hcount, hchange⟩ := hlaid.nestingChange_eq (hb.begin t)
      obtain ⟨_, _, hcoalesce⟩ := b₁.coalesce_eq t
      rw [← hcount, ← hchange, hcoalesce, ht]
      cases hkind : b₁.current.kind with
      | template => exact absurd hkind hlevel
      | _ => exact (Int.add_zero _).symm
  | places hlaid hb₁ _ hplaced =>
      obtain ⟨hcount, hchange⟩ := hlaid.nestingChange_eq (hb.begin t)
      rw [← hcount, ← hchange]
      exact hplaced.nesting_eq hb₁

/-! ### Runs -/

theorem Step.indentBlocks_eq {b b' : Builder} {t : Token} (h : Step t b b') :
    b'.indentBlocks = b.indentBlocks := by
  have hbegin : (b.begin t).indentBlocks = b.indentBlocks := by
    obtain ⟨_, hb⟩ := b.begin_eq t
    rw [hb]
  rw [← hbegin]
  cases h with
  | waits h₀ _ _ _ _ => rw [h₀]
  | @merges b₁ hlaid _ _ _ =>
      obtain ⟨_, _, hcoalesce⟩ := b₁.coalesce_eq t
      obtain ⟨_, _, _, _, _, _, rfl⟩ := hlaid.frame
      rw [hcoalesce]
  | places hlaid _ _ hplaced =>
      obtain ⟨_, _, _, rfl⟩ := hplaced.frame
      obtain ⟨_, _, _, _, _, _, rfl⟩ := hlaid.frame
      rfl

theorem indentBlocks_of_foldlM {layout : Layout} {tokens : List Token} {b : Builder}
    (h : tokens.foldlM push (start layout) = .ok b) : b.indentBlocks = layout.indentBlocks := by
  have hrun : b.Shaped ∧ b.indentBlocks = layout.indentBlocks := by
    refine foldlM_induction (P := fun _ b => b.Shaped ∧ b.indentBlocks = layout.indentBlocks)
      ⟨shaped_start layout, rfl⟩ ?_ h
    rintro _ t _ b b' ⟨hb, hblocks⟩ hpush
    have hstep := step_of_push hb hpush
    exact ⟨hstep.shaped hb, hstep.indentBlocks_eq.trans hblocks⟩
  exact hrun.2

/-- Building fails at the first token that cannot be taken. -/
theorem exists_push_of_ofTokens_eq_error {layout : Layout} {tokens : List Token} {e : BuildError}
    (h : Tree.ofTokens layout tokens = .error e) :
    ∃ (earlier : List Token) (t : Token) (later : List Token) (b : Builder),
      tokens = earlier ++ t :: later ∧ earlier.foldlM push (start layout) = .ok b ∧
      b.push t = .error e := by
  unfold Tree.ofTokens at h
  cases hrun : tokens.foldlM push (start layout) with
  | error e' =>
      rw [hrun] at h
      cases h
      exact foldlM_eq_error_iff.mp hrun
  | ok b =>
      obtain ⟨tree, hfinish⟩ := b.exists_finish
      rw [hrun] at h
      exact absurd (hfinish.symm.trans h) nofun

/-- **The levels of a run, and its failures.**  After any tokens the builder is coherent.  The next
token changes the count of delimited levels by exactly its share, and fails only if the text of its
line and the innermost indent, as they are before any block is closed, part ways.  So a level that
is not open is never closed, and without blocks there is a tree for any tokens. -/
theorem run_levels (layout : Layout) (tokens : List Token) :
    (∀ b, tokens.foldlM push (start layout) = .ok b →
      b.Coherent ∧
      (∀ t b', b.push t = .ok b' →
        (b'.nesting : Int) = b.nesting + t.kind.nestingChange b.current.kind) ∧
      ∀ t e, b.push t = .error e →
        ¬ b.topIndent.toList <+: b.indent.toList ∧ ¬ b.indent.toList <+: b.topIndent.toList ∧
        e = .inconsistentIndent t.pos.line t.pos.col b.topIndent b.indent) ∧
    Tree.ofTokens layout tokens ≠ .error .unbalanced ∧
    (layout.indentBlocks = false → ∃ tree, Tree.ofTokens layout tokens = .ok tree) := by
  have failure {e : BuildError} (h : Tree.ofTokens layout tokens = .error e) :
      layout.indentBlocks ∧ e ≠ .unbalanced := by
    obtain ⟨_, t, _, b, _, hrun, hpush⟩ := exists_push_of_ofTokens_eq_error h
    obtain ⟨⟨hi, -⟩, -, -, rfl⟩ := (push_eq_error_iff (shaped_of_foldlM hrun)).mp hpush
    exact ⟨indentBlocks_of_foldlM hrun ▸ hi, nofun⟩
  refine ⟨fun b hrun => ?_, ?_, ?_⟩
  · have hb := accounted_of_foldlM hrun
    refine ⟨hb.coherent, fun t b' h => ?_, fun t e h => ?_⟩
    · exact (step_of_push hb.shaped h).nesting_eq hb.shaped
    · exact ((push_eq_error_iff hb.shaped).mp h).2
  · exact fun h => (failure h).2 rfl
  · intro hflat
    cases h : Tree.ofTokens layout tokens with
    | ok tree => exact ⟨tree, rfl⟩
    | error e => exact absurd (failure h).1 (by simp [hflat])

/-- A string on an indented line, with a template that nothing closes. -/
def openTemplate : List Token :=
  [.make .symbol "a" ⟨0, 1, 1⟩, .make .newline "\n" ⟨1, 1, 2⟩, .make .whitespace "  " ⟨2, 2, 1⟩,
   .make .stringStart "'" ⟨4, 2, 3⟩, .make .templateStart "$" ⟨5, 2, 4⟩]

/-- The end of the string closes two levels at once. -/
theorem run_levels_openTemplate :
    ∃ b b' : Builder, openTemplate.foldlM push (start { indentBlocks := true }) = .ok b ∧
      b.push (.make .stringEnd "'" ⟨6, 2, 5⟩) = .ok b' ∧
      b.Coherent ∧ b.nesting = 2 ∧ b.indents = ["  "] ∧ (b'.nesting : Int) = b.nesting + (-2) := by
  obtain ⟨b, b', hrun, hpush, hnesting, hindents, hlevel⟩ : ∃ b b' : Builder,
      openTemplate.foldlM push (start { indentBlocks := true }) = .ok b ∧
      b.push (.make .stringEnd "'" ⟨6, 2, 5⟩) = .ok b' ∧ b.nesting = 2 ∧ b.indents = ["  "] ∧
      b.current.kind = .template := ⟨_, _, rfl, rfl, rfl, rfl, rfl⟩
  obtain ⟨hcoherent, hcount, -⟩ := (run_levels { indentBlocks := true } openTemplate).1 b hrun
  refine ⟨b, b', hrun, hpush, hcoherent, hnesting, hindents, ?_⟩
  rw [hcount _ _ hpush, hlevel]
  rfl

end Builder

end Nesting
