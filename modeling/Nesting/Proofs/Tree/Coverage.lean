import Nesting.Proofs.Tree.Dissolve
import Nesting.Proofs.Tree.Trees

/-! # The tokens that a node was built of

Every node of a tree that was built covers a stretch of the tokens (`Node.Covers`): a marker covers
nothing, any other token covers itself or the run of string values that it stands for, and a tree
covers its opening, what its children cover, and its closing, unless the closing was made up.  The
whole tree covers all tokens (`Tree.covers_ofTokens`), so that each tree inside it covers a stretch
of them (`Tree.covers_of_mem_trees`).

While a tree is built, the levels cover the tokens up to the blanks that wait
(`Builder.LevelsCover`); every function of the builder keeps this. -/

namespace Nesting

/-! ### Nodes -/

mutual

/-- A node was built of some tokens in a row. -/
inductive Node.Covers : Node → List Token → Prop
  /-- A marker was made up. -/
  | marker {m} : m.kind.isMarker → Node.Covers (.token m) []
  /-- Any other token stands for itself, or for a run of string values. -/
  | token {t run} : t.kind.isMarker = false → mergeValues run = [t] →
      Node.Covers (.token t) run
  /-- A tree was built of its delimiters and of what is between them. -/
  | tree {kind opening closing children ts} : Node.CoversAll children ts →
      Node.Covers (.tree kind opening closing children) (opening.toList ++ ts ++ closing.toList)
  /-- The end of a template was made up. -/
  | implied {kind opening closing children ts} : closing.isImplicitEnd →
      Node.CoversAll children ts →
      Node.Covers (.tree kind opening (some closing) children) (opening.toList ++ ts)

/-- Neighbouring nodes were built of some tokens in a row. -/
inductive Node.CoversAll : List Node → List Token → Prop
  | nil : Node.CoversAll [] []
  | cons {n ns ts us} : Node.Covers n ts → Node.CoversAll ns us →
      Node.CoversAll (n :: ns) (ts ++ us)

end

namespace Node

theorem coversAll_append_iff {ns ms : List Node} {ts : List Token} :
    CoversAll (ns ++ ms) ts ↔ ∃ us vs, ts = us ++ vs ∧ CoversAll ns us ∧ CoversAll ms vs := by
  induction ns generalizing ts with
  | nil =>
      constructor
      · exact fun h => ⟨[], ts, rfl, .nil, h⟩
      · rintro ⟨_, vs, rfl, hnil, h⟩
        cases hnil
        exact h
  | cons n ns ih =>
      constructor
      · intro h
        cases h with
        | cons hn h =>
            obtain ⟨us, vs, rfl, hns, hms⟩ := ih.mp h
            exact ⟨_, vs, (List.append_assoc _ us vs).symm, .cons hn hns, hms⟩
      · rintro ⟨_, vs, rfl, h, hms⟩
        cases h with
        | @cons _ _ us₁ us₂ hn hns =>
            rw [List.append_assoc]
            exact .cons hn (ih.mpr ⟨us₂, vs, rfl, hns, hms⟩)

theorem coversAll_singleton_iff {n : Node} {ts : List Token} :
    CoversAll [n] ts ↔ n.Covers ts := by
  constructor
  · intro h
    cases h with
    | cons hn hnil =>
        cases hnil
        rwa [List.append_nil]
  · intro h
    have hone := CoversAll.cons h .nil
    rwa [List.append_nil] at hone

@[simp] theorem isMarker_token (t : Token) : (Node.token t).isMarker = t.kind.isMarker := rfl

theorem covers_marker_iff {m : Token} (hm : m.kind.isMarker) {ts : List Token} :
    (Node.token m).Covers ts ↔ ts = [] := by
  constructor
  · intro h
    cases h with
    | marker _ => rfl
    | token hnot _ => simp [hnot] at hm
  · rintro rfl
    exact .marker hm

theorem covers_token {t : Token} (h : t.kind.isMarker = false) : (Node.token t).Covers [t] :=
  .token h rfl

theorem coversAll_map_token {ts : List Token} (h : ∀ t ∈ ts, t.kind.isMarker = false) :
    CoversAll (ts.map .token) ts := by
  induction ts with
  | nil => exact .nil
  | cons t ts ih =>
      obtain ⟨ht, hts⟩ := List.forall_mem_cons.mp h
      exact .cons (covers_token ht) (ih hts)

mutual

/-- What is inside a node covers a stretch of what the node covers. -/
theorem Covers.exists_of_mem_trees {x : Tree} : ∀ {n : Node} {ts : List Token}, n.Covers ts →
    x ∈ n.trees → ∃ us vs ws, ts = us ++ vs ++ ws ∧ x.toNode.Covers vs
  | _, _, .marker _, hx => absurd hx List.not_mem_nil
  | _, _, .token _ _, hx => absurd hx List.not_mem_nil
  | _, _, @Covers.tree kind opening closing children ts h, hx => by
      rcases List.mem_cons.mp hx with rfl | hx
      · exact ⟨[], _, [], by simp, .tree h⟩
      · obtain ⟨us, vs, ws, rfl, hvs⟩ := h.exists_of_mem_treesAll hx
        exact ⟨opening.toList ++ us, vs, ws ++ closing.toList, by simp, hvs⟩
  | _, _, @Covers.implied kind opening closing children ts hc h, hx => by
      rcases List.mem_cons.mp hx with rfl | hx
      · exact ⟨[], _, [], by simp, .implied hc h⟩
      · obtain ⟨us, vs, ws, rfl, hvs⟩ := h.exists_of_mem_treesAll hx
        exact ⟨opening.toList ++ us, vs, ws, by simp, hvs⟩

theorem CoversAll.exists_of_mem_treesAll {x : Tree} : ∀ {ns : List Node} {ts : List Token},
    CoversAll ns ts → x ∈ treesAll ns → ∃ us vs ws, ts = us ++ vs ++ ws ∧ x.toNode.Covers vs
  | _, _, .nil, hx => absurd hx List.not_mem_nil
  | _, _, @CoversAll.cons _ _ ts₁ ts₂ hn h, hx => by
      rcases List.mem_append.mp hx with hx | hx
      · obtain ⟨us, vs, ws, rfl, hvs⟩ := hn.exists_of_mem_trees hx
        exact ⟨us, vs, ws ++ ts₂, by simp, hvs⟩
      · obtain ⟨us, vs, ws, rfl, hvs⟩ := h.exists_of_mem_treesAll hx
        exact ⟨ts₁ ++ us, vs, ws, by simp, hvs⟩

end

end Node

/-! ### Open levels -/

namespace OpenTree

/-- An open level was built of some tokens in a row. -/
def Covers (t : OpenTree) (ts : List Token) : Prop :=
  ∃ us, ts = t.opening.toList ++ us ∧ Node.CoversAll t.children.toList us

theorem covers_extend_iff {t : OpenTree} {ns : List Node} {ts : List Token} :
    (t.extend ns).Covers ts ↔ ∃ us vs, ts = us ++ vs ∧ t.Covers us ∧ Node.CoversAll ns vs := by
  have hlist : (t.extend ns).children.toList = t.children.toList ++ ns := rfl
  unfold Covers
  rw [hlist]
  constructor
  · rintro ⟨_, rfl, h⟩
    obtain ⟨us, vs, rfl, hus, hvs⟩ := Node.coversAll_append_iff.mp h
    exact ⟨_, vs, (List.append_assoc _ us vs).symm, ⟨us, rfl, hus⟩, hvs⟩
  · rintro ⟨_, vs, rfl, ⟨us, rfl, hus⟩, hvs⟩
    have hall := Node.coversAll_append_iff.mpr ⟨us, vs, rfl, hus, hvs⟩
    exact ⟨us ++ vs, List.append_assoc _ us vs, hall⟩

theorem covers_push_iff {t : OpenTree} {n : Node} {ts : List Token} :
    (t.push n).Covers ts ↔ ∃ us vs, ts = us ++ vs ∧ t.Covers us ∧ n.Covers vs := by
  rw [push_eq_extend, covers_extend_iff]
  simp only [Node.coversAll_singleton_iff]

theorem Covers.push {t : OpenTree} {n : Node} {us vs : List Token} (h : t.Covers us)
    (hn : n.Covers vs) : (t.push n).Covers (us ++ vs) :=
  covers_push_iff.mpr ⟨us, vs, rfl, h, hn⟩

theorem Covers.push_marker {t : OpenTree} {us : List Token} (h : t.Covers us) {m : Token}
    (hm : m.kind.isMarker) : (t.push (.token m)).Covers us := by
  have hpush := h.push (.marker hm)
  rwa [List.append_nil] at hpush

theorem Covers.close {t : OpenTree} {us : List Token} (h : t.Covers us)
    (closing : Option Token) : (t.close closing).Covers (us ++ closing.toList) := by
  obtain ⟨us, rfl, h⟩ := h
  exact .tree h

theorem Covers.close_implied {t : OpenTree} {us : List Token} (h : t.Covers us)
    {closing : Token} (hc : closing.isImplicitEnd) : (t.close (some closing)).Covers us := by
  obtain ⟨us, rfl, h⟩ := h
  exact .implied hc h

end OpenTree

namespace Builder

/-- Levels, the innermost first, were built of some tokens in a row. -/
inductive LevelsCover : List OpenTree → List Token → Prop
  | nil : LevelsCover [] []
  | cons {t outer us vs} : LevelsCover outer us → t.Covers vs → LevelsCover (t :: outer) (us ++ vs)

theorem LevelsCover.extend {t : OpenTree} {outer : List OpenTree} {us vs : List Token}
    (h : LevelsCover (t :: outer) us) {ns : List Node} (hns : Node.CoversAll ns vs) :
    LevelsCover (t.extend ns :: outer) (us ++ vs) := by
  cases h with
  | cons houter ht =>
      rw [List.append_assoc]
      exact .cons houter (OpenTree.covers_extend_iff.mpr ⟨_, vs, rfl, ht, hns⟩)

theorem LevelsCover.push {t : OpenTree} {outer : List OpenTree} {us vs : List Token}
    (h : LevelsCover (t :: outer) us) {n : Node} (hn : n.Covers vs) :
    LevelsCover (t.push n :: outer) (us ++ vs) := by
  rw [OpenTree.push_eq_extend]
  exact h.extend (Node.coversAll_singleton_iff.mpr hn)

theorem LevelsCover.push_marker {t : OpenTree} {outer : List OpenTree} {us : List Token}
    (h : LevelsCover (t :: outer) us) {m : Token} (hm : m.kind.isMarker) :
    LevelsCover (t.push (.token m) :: outer) us := by
  have hpush := h.push (.marker hm)
  rwa [List.append_nil] at hpush

theorem LevelsCover.closes {t parent : OpenTree} {rest : List OpenTree} {us vs : List Token}
    (h : LevelsCover (t :: parent :: rest) us) {n : Node}
    (hn : ∀ ts, t.Covers ts → n.Covers (ts ++ vs)) :
    LevelsCover (parent.push n :: rest) (us ++ vs) := by
  cases h with
  | cons houter ht =>
      rw [List.append_assoc]
      exact houter.push (hn _ ht)

/-- The levels of a builder were built of some tokens in a row. -/
def Covers (b : Builder) (ts : List Token) : Prop := LevelsCover (b.current :: b.outer) ts

theorem Covers.closed {b : Builder} {ts : List Token} (h : b.Covers ts) {parent : OpenTree}
    {rest : List OpenTree} (houter : b.outer = parent :: rest) (closing : Option Token)
    {m : Token} (hm : m.kind.isMarker) :
    (b.closed closing m parent rest).Covers (ts ++ closing.toList) := by
  unfold Covers at h
  rw [houter] at h
  exact h.closes fun _ ht => (ht.push_marker hm).close closing

theorem Covers.closed_implied {b : Builder} {ts : List Token} (h : b.Covers ts)
    {parent : OpenTree} {rest : List OpenTree} (houter : b.outer = parent :: rest)
    {closing : Token} (hc : closing.isImplicitEnd) {m : Token} (hm : m.kind.isMarker) :
    (b.closed (some closing) m parent rest).Covers ts := by
  unfold Covers at h
  rw [houter] at h
  have hclosed : (b.closed (some closing) m parent rest).Covers (ts ++ []) :=
    LevelsCover.closes h fun us ht => by
      rw [List.append_nil]
      exact (ht.push_marker hm).close_implied hc
  rwa [List.append_nil] at hclosed

theorem Covers.flush {b : Builder} {ts : List Token} (h : b.Covers ts)
    (hw : ∀ u ∈ b.waiting, u.kind.isMarker = false) : b.flush.Covers (ts ++ b.waiting) := by
  show LevelsCover (b.flush.current :: b.outer) (ts ++ b.waiting)
  rw [current_flush]
  exact h.extend (Node.coversAll_map_token hw)

theorem Covers.openBlock {b : Builder} {ts : List Token} (h : b.Covers ts)
    (hw : ∀ u ∈ b.waiting, u.kind.isMarker = false) (t : Token) (indent : String) :
    (b.openBlock t indent).Covers (ts ++ b.waiting) := by
  have hchildren : Node.CoversAll (b.openBlock t indent).current.children.toList b.waiting :=
    .cons (.marker rfl) (Node.coversAll_map_token hw)
  exact .cons h ⟨b.waiting, rfl, hchildren⟩

/-! ### Tokens -/

theorem Placed.covers {b b' : Builder} {t : Token} {ts : List Token} (h : Placed t b b')
    (ht : t.kind.isMarker = false) (hb : b.Covers ts) : b'.Covers (ts ++ [t]) := by
  induction h with
  | opens _ _ => exact .cons hb ⟨[], rfl, .nil⟩
  | closes _ houter => exact hb.closed houter (some t) rfl
  | child _ _ _ => exact hb.push (Node.covers_token ht)
  | escapes _ _ houter _ ih => exact ih (hb.closed_implied houter rfl rfl)

theorem Unblocked.covers {b b' : Builder} {t : Token} {ts : List Token} (h : Unblocked t b b')
    (hb : b.Covers ts) : b'.Covers ts := by
  induction h with
  | done => exact hb
  | close _ houter _ ih =>
      refine ih ?_
      have hclosed := hb.closed houter none (m := t.markerBefore .levelEnd) rfl
      rwa [Option.toList_none, List.append_nil] at hclosed

/-- A builder was built of some tokens, up to the blanks that wait. -/
structure Covered (b : Builder) (ts : List Token) : Prop where
  levels : ∃ us, ts = us ++ b.waiting ∧ b.Covers us
  waiting : ∀ u ∈ b.waiting, u.kind.isMarker = false

theorem Covered.of_levels {b : Builder} {ts : List Token} (h : b.Covers ts)
    (hw : b.waiting = []) : b.Covered ts where
  levels := ⟨ts, by rw [hw, List.append_nil], h⟩
  waiting := by simp [hw]

theorem Covered.covers {b : Builder} {ts : List Token} (h : b.Covered ts)
    (hw : b.waiting = []) : b.Covers ts := by
  obtain ⟨us, rfl, hus⟩ := h.levels
  rwa [hw, List.append_nil]

theorem Covered.flush {b : Builder} {ts : List Token} (h : b.Covered ts) : b.flush.Covers ts := by
  obtain ⟨us, rfl, hus⟩ := h.levels
  exact hus.flush h.waiting

theorem Unblocked.covered {b b' : Builder} {t : Token} {ts : List Token} (h : Unblocked t b b')
    (hb : b.Covered ts) : b'.Covered ts := by
  obtain ⟨us, rfl, hus⟩ := hb.levels
  have hw : b'.waiting = b.waiting := by
    obtain ⟨_, _, _, rfl⟩ := h.frame
    rfl
  exact ⟨⟨us, by rw [hw], h.covers hus⟩, hw ▸ hb.waiting⟩

theorem Laid.covered {b b' : Builder} {t : Token} {ts : List Token} (h : Laid t b b')
    (hb : b.Covered ts) : b'.Covered ts := by
  have unblocked {b₁ : Builder} (hun : Unblocked t { b with indent := "" } b₁) :
      b₁.Covered ts := hun.covered ⟨hb.levels, hb.waiting⟩
  cases h with
  | inside _ => exact hb
  | newline _ _ _ => exact .of_levels hb.flush rfl
  | comment _ _ _ _ => exact .of_levels hb.flush rfl
  | stays _ _ _ _ hun _ => exact .of_levels (unblocked hun).flush rfl
  | @opens b₁ _ _ _ _ hun _ _ _ =>
      obtain ⟨us, hts, hus⟩ := (unblocked hun).levels
      rw [hts]
      exact .of_levels (hus.openBlock (unblocked hun).waiting t b.indent) rfl

theorem Covered.begin {b : Builder} {ts : List Token} (h : b.Covered ts) (t : Token) :
    (b.begin t).Covered ts := by
  unfold Builder.begin
  split
  · obtain ⟨us, hts, hus⟩ := h.levels
    exact ⟨⟨us, hts, hus.push_marker rfl⟩, h.waiting⟩
  · exact h

/-- A string value that is added to the one before it makes its run longer. -/
theorem Covers.coalesce {b : Builder} {ts : List Token} (h : b.Covers ts)
    {children : Array Node} {last : Token}
    (hchildren : b.current.children = children.push (.token last))
    (hlast : last.kind = .stringValue) {t : Token} (ht : t.kind = .stringValue) :
    (b.coalesce t).Covers (ts ++ [t]) := by
  have hcurrent : b.current = OpenTree.push { b.current with children } (.token last) := by
    rw [OpenTree.push, ← hchildren]
  unfold Covers at h
  rw [hcurrent] at h
  rw [coalesce_of_back hchildren hlast]
  cases h with
  | cons houter hlevel =>
      obtain ⟨us, run, rfl, hus, hrun⟩ := OpenTree.covers_push_iff.mp hlevel
      cases hrun with
      | marker hm => simp [hlast, TokenKind.isMarker] at hm
      | token hm hrun =>
          have hmerged : mergeValues (run ++ [t]) = [last.merge t] :=
            mergeValues_concat_value ht hlast (show mergeValues run = [] ++ [last] from hrun)
          -- The merged token is of the kind of the one whose place it takes.
          have hnode : (Node.token (last.merge t)).Covers (run ++ [t]) := .token hm hmerged
          rw [List.append_assoc, List.append_assoc]
          exact .cons houter (hus.push hnode)

/-- Every token is covered. -/
theorem Step.covered {b b' : Builder} {t : Token} {ts : List Token} (h : Step t b b')
    (haccount : b.Accounted ts) (hb : b.Covered ts) (ht : t.kind.isMarker = false) :
    b'.Covered (ts ++ [t]) := by
  have haccount₀ := haccount.begin t
  have hb₀ := hb.begin t
  cases h with
  | @waits b₀ h₀ _ _ _ _ =>
      rw [← h₀] at hb₀
      obtain ⟨us, rfl, hus⟩ := hb₀.levels
      exact ⟨⟨us, List.append_assoc us b₀.waiting [t], hus⟩,
        List.forall_mem_append.mpr ⟨hb₀.waiting, List.forall_mem_singleton.mpr ht⟩⟩
  | merges hlaid hvalue _ hprev =>
      obtain rfl := haccount₀.eq_of_laid hlaid hvalue hprev
      obtain ⟨-, -, children, _, last, hchildren, hlast, -⟩ := haccount₀.value hprev
      have hw := haccount₀.waiting_eq_nil_of_value hprev
      refine .of_levels ((hb₀.covers hw).coalesce hchildren hlast hvalue) ?_
      rw [coalesce_of_back hchildren hlast]
      exact hw
  | places hlaid _ _ hplaced =>
      have hw := hlaid.waiting_eq_nil haccount₀.waits haccount₀.line
      have hcovers := hplaced.covers ht ((hlaid.covered hb₀).covers hw)
      refine .of_levels hcovers ?_
      obtain ⟨_, _, _, rfl⟩ := hplaced.frame
      exact hw

theorem covered_start (layout : Layout) : (start layout).Covered [] := by
  have hmarker : Node.CoversAll (start layout).current.children.toList ([] ++ []) :=
    .cons (.marker rfl) .nil
  exact .of_levels (.cons .nil ⟨[], rfl, hmarker⟩) rfl

theorem covered_of_foldlM {layout : Layout} {tokens : List Token} {b : Builder}
    (hmarkers : ∀ t ∈ tokens, t.kind.isMarker = false)
    (h : tokens.foldlM push (start layout) = .ok b) : b.Covered tokens := by
  have hrun : b.Accounted tokens ∧ b.Covered tokens := by
    refine foldlM_induction (P := fun ts b => b.Accounted ts ∧ b.Covered ts)
      ⟨accounted_start layout, covered_start layout⟩ ?_ h
    rintro ts t ht b b' ⟨haccount, hb⟩ hpush
    have hstep := step_of_push haccount.shaped hpush
    exact ⟨hstep.accounted haccount, hstep.covered haccount hb (hmarkers t ht)⟩
  exact hrun.2

/-! ### The end -/

theorem Ended.covers {b b' : Builder} {ts : List Token} (h : Ended b b') (hb : b.Covers ts) :
    b'.Covers ts := by
  induction h with
  | done _ => exact hb
  | marks _ ih => exact ih (hb.push_marker rfl)
  | @close b _ _ _ houter _ ih =>
      refine ih ?_
      have hclosed := hb.closed houter none (m := b.previous.markerAfter .levelEnd) rfl
      rwa [Option.toList_none, List.append_nil] at hclosed

theorem Covers.rooted {b : Builder} {ts : List Token} (h : b.Covers ts) (houter : b.outer = []) :
    b.rooted.toNode.Covers ts := by
  unfold Covers at h
  rw [houter] at h
  cases h with
  | cons hnil hroot =>
      cases hnil
      have hmark : (b.previous.markerAfter .levelEnd).kind.isMarker := rfl
      have hclosed := (hroot.push_marker hmark).close none
      rwa [Option.toList_none, List.append_nil] at hclosed

end Builder

/-- A tree was built of all tokens. -/
theorem Tree.covers_ofTokens {layout : Layout} {tokens : List Token} {tree : Tree}
    (hmarkers : ∀ t ∈ tokens, t.kind.isMarker = false)
    (h : Tree.ofTokens layout tokens = .ok tree) : tree.toNode.Covers tokens := by
  obtain ⟨b, hrun, hfinish⟩ := bind_eq_ok_iff.mp h
  obtain ⟨b', hended, rfl⟩ := Builder.exists_ended_of_finish hfinish
  have hcovers := (Builder.covered_of_foldlM hmarkers hrun).flush
  exact (hended.covers hcovers).rooted hended.outer_eq_nil

theorem Tree.exists_covers_of_mem_trees {layout : Layout} {tokens : List Token} {tree : Tree}
    (hmarkers : ∀ t ∈ tokens, t.kind.isMarker = false)
    (h : Tree.ofTokens layout tokens = .ok tree) {x : Tree} (hx : x ∈ tree.toNode.trees) :
    ∃ before part after, tokens = before ++ part ++ after ∧ x.toNode.Covers part :=
  (Tree.covers_ofTokens hmarkers h).exists_of_mem_trees hx

end Nesting
