import Nesting.Proofs.Tree.Leaves

/-! # What the leaves of a tree are

A builder makes up zero-width tokens, takes tokens as they are, and adds string values to string
values.  So every leaf of a tree is `Made` of the tokens in one of these ways, and in particular a
marker among the leaves has no text (`Tree.value_of_isMarker`). -/

namespace Nesting

/-- What a leaf of a tree of tokens can be. -/
inductive Token.Made (tokens : List Token) : Token → Prop
  | marker (kind pos) : Made tokens (.marker kind pos)
  | token {t} : t ∈ tokens → Made tokens t
  | merge {t u} : Made tokens t → t.kind = .stringValue → u ∈ tokens → Made tokens (t.merge u)

namespace Builder

variable {tokens : List Token} {b b' : Builder} {t : Token}

/-- Every leaf is made of the tokens. -/
def AllMade (tokens : List Token) (b : Builder) : Prop := ∀ u ∈ b.leaves, u.Made tokens

theorem AllMade.of_leaves (hb : b.AllMade tokens) {new : List Token}
    (hnew : ∀ u ∈ new, u.Made tokens) (h : ∀ u ∈ b'.leaves, u ∈ b.leaves ∨ u ∈ new) :
    b'.AllMade tokens := fun u hu => (h u hu).elim (hb u) (hnew u)

theorem AllMade.pushToken (hb : b.AllMade tokens) (ht : t.Made tokens) :
    (b.pushToken t).AllMade tokens := by
  refine hb.of_leaves (List.forall_mem_singleton.mpr ht) fun u hu => ?_
  rw [leaves_pushToken] at hu
  simp only [leaves, List.mem_append] at hu ⊢
  tauto

theorem AllMade.begin (hb : b.AllMade tokens) (t : Token) : (b.begin t).AllMade tokens := by
  unfold Builder.begin
  split
  · exact hb.pushToken (.marker _ _)
  · exact hb

theorem AllMade.flush (hb : b.AllMade tokens) : b.flush.AllMade tokens := by
  rw [AllMade, leaves_flush]
  exact hb

theorem AllMade.openDelimited (hb : b.AllMade tokens) (k : TreeKind) (ht : t.Made tokens) :
    (b.openDelimited k t).AllMade tokens := by
  refine hb.of_leaves (List.forall_mem_singleton.mpr ht) fun u hu => ?_
  simp only [leaves, Builder.openDelimited, openLevel, levelLeaves, OpenTree.leaves, Node.leavesAll,
    Option.toList_some, List.append_nil, List.mem_append] at hu ⊢
  tauto

theorem AllMade.openBlock (hb : b.AllMade tokens) (t : Token) (indent : String) :
    (b.openBlock t indent).AllMade tokens := by
  refine hb.of_leaves (List.forall_mem_singleton.mpr (.marker .levelStart t.pos)) fun u hu => ?_
  simp only [leaves, Builder.openBlock, levelLeaves, OpenTree.leaves, List.map_cons,
    Node.leavesAll, Node.leaves, Node.leavesAll_map_token, Option.toList_none, List.nil_append,
    List.append_nil, List.mem_append] at hu ⊢
  tauto

theorem AllMade.closed (hb : b.AllMade tokens) {parent : OpenTree} {rest : List OpenTree}
    (houter : b.outer = parent :: rest) {closing : Option Token}
    (hclosing : ∀ u ∈ closing, u.Made tokens) {marker : Token} (hmarker : marker.Made tokens) :
    (b.closed closing marker parent rest).AllMade tokens := by
  have hnew : ∀ u ∈ marker :: closing.toList, u.Made tokens := by
    refine List.forall_mem_cons.mpr ⟨hmarker, fun u hu => hclosing u ?_⟩
    exact Option.mem_toList.mp hu
  refine hb.of_leaves hnew fun u hu => ?_
  simp only [leaves, Builder.closed, levelLeaves, houter, OpenTree.leaves_push,
    OpenTree.leaves_close, Node.leaves, List.mem_append, List.mem_cons, List.not_mem_nil,
    or_false] at hu ⊢
  tauto

theorem AllMade.coalesce (hb : b.AllMade tokens) (ht : t ∈ tokens) :
    (b.coalesce t).AllMade tokens := by
  have pushed : AllMade tokens { b.pushToken t with previous := t } := hb.pushToken (.token ht)
  unfold Builder.coalesce
  split
  · next last hback =>
    split
    · next hkind =>
      obtain ⟨children, hchildren⟩ := Array.back?_eq_some_iff.mp hback
      have hlast : last ∈ b.leaves := by
        simp [leaves, levelLeaves, OpenTree.leaves, hchildren, Node.leavesAll_append, Node.leaves]
      have hmerged : (last.merge t).Made tokens := .merge (hb last hlast) hkind ht
      refine hb.of_leaves (List.forall_mem_singleton.mpr hmerged) fun u hu => ?_
      simp only [leaves, levelLeaves, hchildren, Array.pop_push, OpenTree.push, OpenTree.leaves,
        Array.toList_push, Node.leavesAll_append, Node.leavesAll_singleton, Node.leaves,
        List.mem_append] at hu ⊢
      tauto
    · exact pushed
  · exact pushed

/-! ### Tokens -/

theorem Placed.allMade (h : Placed t b b') (hb : b.AllMade tokens) (ht : t ∈ tokens) :
    b'.AllMade tokens := by
  induction h with
  | opens _ _ => exact hb.openDelimited _ (.token ht)
  | closes _ houter =>
      have hclosing : ∀ u ∈ some t, u.Made tokens := by
        rintro _ ⟨rfl⟩
        exact .token ht
      exact hb.closed houter hclosing (.marker _ _)
  | child _ _ _ => exact hb.pushToken (.token ht)
  | escapes _ _ houter _ ih =>
      have hclosing : ∀ u ∈ some (t.markerBefore .templateEnd), u.Made tokens := by
        rintro _ ⟨rfl⟩
        exact .marker _ _
      exact ih (hb.closed houter hclosing (.marker _ _))

theorem Unblocked.allMade (h : Unblocked t b b') (hb : b.AllMade tokens) : b'.AllMade tokens := by
  induction h with
  | done => exact hb
  | close _ houter _ ih => exact ih (hb.closed houter (by simp) (.marker _ _))

theorem Laid.allMade (h : Laid t b b') (hb : b.AllMade tokens) : b'.AllMade tokens := by
  cases h with
  | inside _ => exact hb
  | newline _ _ _ => exact hb.flush
  | comment _ _ _ _ => exact hb.flush
  | stays _ _ _ _ hun _ =>
      have hb₁ := hun.allMade hb
      exact hb₁.flush
  | opens _ _ _ _ hun _ _ _ =>
      have hb₁ := hun.allMade hb
      exact hb₁.openBlock t b.indent

theorem Step.allMade (h : Step t b b') (hb : b.AllMade tokens) (ht : t ∈ tokens) :
    b'.AllMade tokens := by
  have hb₀ := hb.begin t
  cases h with
  | @waits b₀ hbegin _ _ _ _ =>
      rw [← hbegin] at hb₀
      refine hb₀.of_leaves (List.forall_mem_singleton.mpr (.token ht)) fun u hu => ?_
      simp only [leaves, List.mem_append] at hu ⊢
      tauto
  | merges hlaid _ _ _ => exact (hlaid.allMade hb₀).coalesce ht
  | places hlaid _ _ hplaced => exact hplaced.allMade (hlaid.allMade hb₀) ht

theorem Ended.allMade (h : Ended b b') (hb : b.AllMade tokens) : b'.AllMade tokens := by
  induction h with
  | done _ => exact hb
  | marks _ ih => exact ih (hb.pushToken (.marker _ _))
  | close houter _ ih => exact ih (hb.closed houter (by simp) (.marker _ _))

end Builder

namespace Tree

variable {layout : Layout} {tokens : List Token} {tree : Tree}

theorem made_of_mem_leaves (h : Tree.ofTokens layout tokens = .ok tree) :
    ∀ t ∈ tree.toNode.leaves, t.Made tokens := by
  obtain ⟨b, hrun, hfinish⟩ := bind_eq_ok_iff.mp h
  have hb : b.Shaped ∧ b.AllMade tokens := by
    refine foldlM_induction (P := fun _ b => b.Shaped ∧ b.AllMade tokens)
      ⟨Builder.shaped_start layout, ?_⟩ ?_ hrun
    · exact List.forall_mem_singleton.mpr (.marker .levelStart {})
    · rintro _ t ht b b' ⟨hshaped, hb⟩ hpush
      have hstep := Builder.step_of_push hshaped hpush
      exact ⟨hstep.shaped hshaped, hstep.allMade hb ht⟩
  obtain ⟨b', hended, rfl⟩ := Builder.exists_ended_of_finish hfinish
  have hb' := (hended.allMade hb.2.flush).pushToken (.marker .levelEnd b'.previous.endPosition)
  intro t ht
  refine hb' t ?_
  have ht : t ∈ (b'.current.push (.token (b'.previous.markerAfter .levelEnd))).leaves ++ [] := ht
  rw [List.append_nil] at ht
  exact List.mem_append_left _ (List.mem_append_right _ ht)

/-- A marker in a tree has no text. -/
theorem value_of_isMarker (hmarkers : ∀ t ∈ tokens, t.kind.isMarker = false)
    (h : Tree.ofTokens layout tokens = .ok tree) :
    ∀ t ∈ tree.toNode.leaves, t.kind.isMarker → t.value = "" := by
  intro t ht hmarker
  cases made_of_mem_leaves h t ht with
  | marker => rfl
  | token ht => exact absurd hmarker (by simp [hmarkers t ht])
  | merge _ hkind _ => simp [Token.kind_merge, hkind, TokenKind.isMarker] at hmarker

end Tree

end Nesting
