import Nesting.Proofs.Text.Position
import Nesting.Proofs.Tree.ForceClosed
import Nesting.Proofs.Tree.OwnedLeaves

/-! # Where the leaves of a tree stand

Where the tokens tile a text, the leaves of their tree stand in a row (`Tree.stand_ofTokens`).

Every function of the builder adds leaves at the end: a token comes behind the leaves that close
delimited levels (`Builder.Placed.exists_owned`), and in front of the blanks that wait come the
markers of the blocks that their line closes or opens (`Builder.Laid.exists_owned`).  What has been
added is settled once the token has got its place, which `Builder.Standing` keeps for every token
(`Builder.Step.standing`). -/

namespace Nesting

/-! ### The leaves of a builder -/

/-- The leaves of an open level, each with the kind of the tree that it belongs to. -/
def OpenTree.owned (t : OpenTree) : List OwnedLeaf :=
  t.opening.toList.map (OwnedLeaf.mk t.kind) ++ Node.ownedAll t.kind t.children.toList

@[simp] theorem OpenTree.owned_push (t : OpenTree) (n : Node) :
    (t.push n).owned = t.owned ++ n.owned t.kind := by
  simp [owned, push, Node.ownedAll]

theorem OpenTree.owned_extend_tokens (t : OpenTree) (ts : List Token) :
    (t.extend (ts.map .token)).owned = t.owned ++ ts.map (OwnedLeaf.mk t.kind) := by
  simp [owned, extend]

theorem OpenTree.owned_close (t : OpenTree) (closing : Option Token) (owner : TreeKind) :
    (t.close closing).owned owner = t.owned ++ closing.toList.map (OwnedLeaf.mk t.kind) := rfl

namespace Builder

open OwnedLeaf

/-- The leaves of levels, the innermost first. -/
def levelOwned : List OpenTree → List OwnedLeaf
  | [] => []
  | t :: outer => levelOwned outer ++ t.owned

/-- The leaves of the open levels. -/
def owned (b : Builder) : List OwnedLeaf := levelOwned (b.current :: b.outer)

theorem owned_pushToken (b : Builder) (t : Token) :
    (b.pushToken t).owned = b.owned ++ [⟨b.current.kind, t⟩] := by
  simp [owned, levelOwned, pushToken, pushNode, Node.owned]

theorem owned_flush (b : Builder) :
    b.flush.owned = b.owned ++ b.waiting.map (OwnedLeaf.mk b.current.kind) := by
  have hcurrent := congrArg OpenTree.owned (current_flush b)
  rw [OpenTree.owned_extend_tokens] at hcurrent
  show levelOwned b.outer ++ b.flush.current.owned = _
  rw [hcurrent, ← List.append_assoc]
  rfl

theorem owned_openDelimited (b : Builder) (k : TreeKind) (t : Token) :
    (b.openDelimited k t).owned = b.owned ++ [⟨k, t⟩] := by
  simp [owned, levelOwned, openDelimited, openLevel, OpenTree.owned, Node.ownedAll]

theorem owned_closed {b : Builder} {parent : OpenTree} {rest : List OpenTree}
    (h : b.outer = parent :: rest) (closing : Option Token) (marker : Token) :
    (b.closed closing marker parent rest).owned =
      b.owned ++ ⟨b.current.kind, marker⟩ :: closing.toList.map (OwnedLeaf.mk b.current.kind) := by
  have hcurrent : (b.current.push (.token marker)).owned =
      b.current.owned ++ [⟨b.current.kind, marker⟩] := OpenTree.owned_push _ _
  simp only [owned, closed, h, levelOwned, OpenTree.owned_push, OpenTree.owned_close, hcurrent,
    List.append_assoc, List.singleton_append]
  rfl

theorem owned_closedDelimited {b : Builder} {parent : OpenTree} {rest : List OpenTree}
    (h : b.outer = parent :: rest) (closing marker : Token) :
    (b.closedDelimited closing marker parent rest).owned =
      b.owned ++ [⟨b.current.kind, marker⟩, ⟨b.current.kind, closing⟩] :=
  owned_closed h (some closing) marker

theorem owned_openBlock (b : Builder) (t : Token) (indent : String) :
    (b.openBlock t indent).owned =
      b.owned ++ ⟨.block, t.markerBefore .levelStart⟩ :: b.waiting.map (OwnedLeaf.mk .block) := by
  simp [owned, levelOwned, openBlock, OpenTree.owned, Node.ownedAll, Node.owned]

/-- A token that is placed comes last, behind the leaves that close delimited levels. -/
theorem Placed.exists_owned {b b' : Builder} {t : Token} (h : Placed t b b') :
    ∃ ends owner, b'.owned = b.owned ++ ends ++ [⟨owner, t⟩] ∧ EndsAt t.pos ends ∧
      (∀ x ∈ ends, x.owner.isDelimited) ∧ (b.current.kind.isDelimited = false → ends = []) := by
  induction h with
  | @opens b k hopens _ =>
      exact ⟨[], k, by rw [owned_openDelimited, List.append_nil], List.forall_mem_nil _,
        List.forall_mem_nil _, fun _ => rfl⟩
  | @closes b parent rest hcloses houter =>
      have hdelimited := isDelimited_of_closes? hcloses
      refine ⟨[⟨b.current.kind, t.markerBefore .levelEnd⟩], b.current.kind, ?_, ?_, ?_, ?_⟩
      · rw [owned_closedDelimited houter, List.append_assoc]
        rfl
      · exact List.forall_mem_singleton.mpr ⟨rfl, rfl⟩
      · exact List.forall_mem_singleton.mpr hdelimited
      · intro hk
        rw [hdelimited] at hk
        cases hk
  | @child b _ _ _ =>
      exact ⟨[], b.current.kind, by rw [owned_pushToken, List.append_nil], List.forall_mem_nil _,
        List.forall_mem_nil _, fun _ => rfl⟩
  | @escapes b b' parent rest hk _ houter _ ih =>
      obtain ⟨ends, owner, howned, hends, hdelimited, -⟩ := ih
      have htemplate : b.current.kind.isDelimited := by rw [hk]; rfl
      refine ⟨[⟨b.current.kind, t.markerBefore .levelEnd⟩,
        ⟨b.current.kind, t.markerBefore .templateEnd⟩] ++ ends, owner, ?_, ?_, ?_, ?_⟩
      · rw [howned, owned_closedDelimited houter, List.append_assoc b.owned]
      · refine List.forall_mem_append.mpr ⟨?_, hends⟩
        exact List.forall_mem_cons.mpr ⟨⟨rfl, rfl⟩, List.forall_mem_singleton.mpr ⟨rfl, rfl⟩⟩
      · refine List.forall_mem_append.mpr ⟨?_, hdelimited⟩
        exact List.forall_mem_cons.mpr ⟨htemplate, List.forall_mem_singleton.mpr htemplate⟩
      · intro hne
        rw [htemplate] at hne
        cases hne

/-- Blocks that are closed before a token end in front of it. -/
theorem Unblocked.exists_owned {b b' : Builder} {t : Token} (h : Unblocked t b b') :
    ∃ ends, b'.owned = b.owned ++ ends ∧ ∀ x ∈ ends, x.owner = .block ∧
      x.token = t.markerBefore .levelEnd := by
  induction h with
  | done => exact ⟨[], (List.append_nil _).symm, List.forall_mem_nil _⟩
  | @close b b' parent rest hk houter _ ih =>
      obtain ⟨ends, howned, hends⟩ := ih
      refine ⟨⟨b.current.kind, t.markerBefore .levelEnd⟩ :: ends, ?_, ?_⟩
      · rw [howned, owned_closed houter]
        simp
      · exact List.forall_mem_cons.mpr ⟨⟨hk, rfl⟩, hends⟩

/-- The blanks that wait come behind the markers of the blocks that their line closes or opens. -/
theorem Laid.exists_owned {b b' : Builder} {t : Token} (h : Laid t b b')
    (hw : b'.waiting = []) :
    ∃ markers owner, b'.owned = b.owned ++ markers ++ b.waiting.map (OwnedLeaf.mk owner) ∧
      EndsAt t.pos markers ∧ (∀ x ∈ markers, x.owner = .block ∧ x.isMarker) ∧
      (markers ≠ [] → t.kind.isTrivia = false ∧ b'.nesting = 0) ∧
      (∀ x ∈ markers, x.token.kind = .levelStart → b.indent ≠ "") := by
  have plain (owner : TreeKind)
      (howned : b'.owned = b.owned ++ b.waiting.map (OwnedLeaf.mk owner)) :
      ∃ markers owner, b'.owned = b.owned ++ markers ++ b.waiting.map (OwnedLeaf.mk owner) ∧
        EndsAt t.pos markers ∧ (∀ x ∈ markers, x.owner = .block ∧ x.isMarker) ∧
        (markers ≠ [] → t.kind.isTrivia = false ∧ b'.nesting = 0) ∧
        (∀ x ∈ markers, x.token.kind = .levelStart → b.indent ≠ "") := by
    refine ⟨[], owner, by rw [List.append_nil]; exact howned, ?_⟩
    exact ⟨List.forall_mem_nil _, List.forall_mem_nil _, fun h => absurd rfl h,
      List.forall_mem_nil _⟩
  cases h with
  | inside _ => exact plain .root (by simp [hw])
  | newline _ _ _ => exact plain _ (owned_flush b)
  | comment _ _ _ _ => exact plain _ (owned_flush b)
  | @stays b₁ _ hn _ ht hun _ =>
      obtain ⟨ends, howned, hends⟩ := hun.exists_owned
      obtain ⟨_, _, _, rfl⟩ := hun.frame
      refine ⟨ends, _, (owned_flush _).trans (congrArg (· ++ _) howned), ?_, ?_, ?_, ?_⟩
      · intro x hx
        rw [(hends x hx).2]
        exact ⟨rfl, rfl⟩
      · intro x hx
        exact ⟨(hends x hx).1, by rw [isMarker, (hends x hx).2]; rfl⟩
      · exact fun _ => ⟨ht, hn⟩
      · intro x hx hstart
        rw [(hends x hx).2] at hstart
        cases hstart
  | @opens b₁ _ hn _ ht hun _ hne hpre =>
      obtain ⟨ends, howned, hends⟩ := hun.exists_owned
      have hindent : b.indent ≠ "" := by
        rintro hempty
        rw [hempty] at hne hpre
        exact hne (String.toList_inj.mp (List.prefix_nil.mp hpre))
      obtain ⟨_, _, _, rfl⟩ := hun.frame
      refine ⟨ends ++ [⟨.block, t.markerBefore .levelStart⟩], .block, ?_, ?_, ?_, ?_, ?_⟩
      · refine (owned_openBlock _ t b.indent).trans ?_
        rw [howned]
        simp only [List.append_assoc, List.singleton_append]
        rfl
      · refine List.forall_mem_append.mpr ⟨fun x hx => ?_, List.forall_mem_singleton.mpr ⟨rfl, rfl⟩⟩
        rw [(hends x hx).2]
        exact ⟨rfl, rfl⟩
      · refine List.forall_mem_append.mpr ⟨fun x hx => ?_, List.forall_mem_singleton.mpr ⟨rfl, rfl⟩⟩
        exact ⟨(hends x hx).1, by rw [isMarker, (hends x hx).2]; rfl⟩
      · exact fun _ => ⟨ht, hn⟩
      · exact fun _ _ _ => hindent

/-! ### What is kept while a tree is built -/

/-- Where the leaves of a builder that has read a text stand. -/
structure Standing (b : Builder) (cs : List Char) : Prop where
  settled : Settled {} b.owned
  waiting : ∃ ds, cs = chars b.owned ++ ds ∧
    Tiles (({} : Position).advance (chars b.owned)) b.waiting ds
  blanks : ∀ u ∈ b.waiting, u.kind = .whitespace
  indent : b.indent = String.join (b.waiting.map Token.value)
  previous : ∃ ds, b.previous = .make b.previous.kind (String.ofList ds) b.previous.pos ∧
    b.previous.pos.advance ds = ({} : Position).advance cs
  value : b.previous.kind = .stringValue →
    ∃ children : Array Node, b.current.children = children.push (.token b.previous)

theorem standing_start (layout : Layout) : (start layout).Standing [] where
  settled := settled_singleton nofun rfl fun _ => rfl
  waiting := ⟨[], rfl, rfl⟩
  blanks := List.forall_mem_nil _
  indent := rfl
  previous := ⟨[], rfl, rfl⟩
  value := nofun

theorem Standing.begin {b : Builder} {cs : List Char} {ts : List Token} {t : Token}
    (h : b.Standing cs) (hb : b.Accounted ts) (hm : b.Marked)
    (ht : t.pos = ({} : Position).advance cs) : (b.begin t).Standing cs := by
  rcases hm.current with hstart | ⟨hdelimited, hempty⟩
  · have hbegin : b.begin t = b := by
      rw [Builder.begin, if_neg (by simp [hstart.children_ne])]
    rw [hbegin]
    exact h
  · have hbegin : b.begin t = b.pushToken (t.markerBefore .levelStart) := by
      rw [Builder.begin, if_pos (by simp [hempty])]
    have howned := owned_pushToken b (t.markerBefore .levelStart)
    have hw : b.waiting = [] := hb.waiting_eq_nil hdelimited
    obtain ⟨ds, hcs, htiles⟩ := h.waiting
    rw [hw] at htiles
    obtain rfl : ds = [] := htiles
    rw [List.append_nil] at hcs
    have hends : EndsAt t.pos [⟨b.current.kind, t.markerBefore .levelStart⟩] :=
      List.forall_mem_singleton.mpr ⟨rfl, rfl⟩
    have hchars : chars (b.pushToken (t.markerBefore .levelStart)).owned = cs := by
      rw [howned, chars_append, hends.chars_eq, List.append_nil, hcs]
    rw [hbegin]
    refine ⟨?_, ⟨[], by rw [hchars, List.append_nil], ?_⟩, h.blanks, h.indent, h.previous, ?_⟩
    · rw [howned]
      refine h.settled.append ?_
      rw [← hcs, ← ht]
      refine hends.settled (List.forall_mem_singleton.mpr fun hblock => ?_)
      rw [show b.current.kind = .block from hblock] at hdelimited
      cases hdelimited
    · show Tiles _ b.waiting []
      rw [hw]
      rfl
    · intro hvalue
      obtain ⟨children, hchildren⟩ := h.value hvalue
      simp [hchildren] at hempty

theorem owned_of_back {b : Builder} {children : Array Node} {last : Token}
    (hchildren : b.current.children = children.push (.token last)) :
    b.owned = levelOwned b.outer ++ (b.current.opening.toList.map (OwnedLeaf.mk b.current.kind) ++
      Node.ownedAll b.current.kind children.toList) ++ [⟨b.current.kind, last⟩] := by
  simp [owned, levelOwned, OpenTree.owned, hchildren, Node.ownedAll, Node.owned]

/-- A string value that is added to the one before it stands where that one did. -/
theorem Standing.merges {b : Builder} {cs : List Char} {t : Token} (h : b.Standing cs)
    (hw : b.waiting = []) (hprev : b.previous.kind = .stringValue)
    (ht : t = .make .stringValue t.value (({} : Position).advance cs)) :
    (b.coalesce t).Standing (cs ++ t.value.toList) := by
  obtain ⟨children, hchildren⟩ := h.value hprev
  obtain ⟨ds, hcs, htiles⟩ := h.waiting
  obtain ⟨es, hmade, hend⟩ := h.previous
  rw [hw] at htiles
  obtain rfl : ds = [] := htiles
  rw [List.append_nil] at hcs
  have hmerged : b.previous.merge t =
      .make .stringValue (String.ofList (es ++ t.value.toList)) b.previous.pos := by
    rw [hmade, ht, hprev]
    simp [Token.merge, Token.make]
  have hback := owned_of_back hchildren
  have hsolid {u : Token} (hu : u.kind = .stringValue) :
      (OwnedLeaf.mk b.current.kind u).isSolid := by
    simp [isSolid, isMarker, isBlank, hu, TokenKind.isMarker]
  have hsettled := h.settled
  rw [hback] at hsettled
  have hnew : Builder.owned { b with
        current := { b.current with children := children.push (.token (b.previous.merge t)) }
        previous := b.previous.merge t } = _ := owned_of_back rfl
  rw [coalesce_of_back hchildren hprev t]
  have hchars : chars (Builder.owned { b with
        current := { b.current with children := children.push (.token (b.previous.merge t)) }
        previous := b.previous.merge t }) = cs ++ t.value.toList := by
    rw [hnew, hcs, hback, chars_append, chars_append _ [_], List.append_assoc]
    simp [chars, Token.merge]
  refine ⟨?_, ⟨[], by rw [hchars, List.append_nil], ?_⟩, h.blanks, h.indent, ?_, ?_⟩
  · rw [hnew]
    exact hsettled.replace_last (hsolid hprev) (hsolid hprev) rfl
  · show Tiles _ b.waiting []
    rw [hw]
    rfl
  · refine ⟨es ++ t.value.toList, ?_, ?_⟩
    · show b.previous.merge t = .make b.previous.kind _ b.previous.pos
      rw [hprev, hmerged]
    · rw [Position.advance_append, Position.advance_append, ← hend]
      rfl
  · exact fun _ => ⟨children, rfl⟩

/-- Once a line has got its place, no indent is kept. -/
theorem Laid.indent_eq {b b' : Builder} {t : Token} (h : Laid t b b') (hw : b'.waiting = [])
    (hindent : b.indent = String.join (b.waiting.map Token.value)) : b'.indent = "" := by
  cases h with
  | inside _ =>
      rw [hindent, hw]
      rfl
  | newline _ _ _ => rfl
  | comment _ _ _ _ => rfl
  | stays _ _ _ _ hun _ =>
      obtain ⟨_, _, _, rfl⟩ := hun.frame
      rfl
  | opens _ _ _ _ hun _ _ _ =>
      obtain ⟨_, _, _, rfl⟩ := hun.frame
      rfl

/-- A token that gets its place stands behind the text that has been read. -/
theorem Standing.places {b b₁ b₂ : Builder} {cs : List Char} {t : Token} (h : b.Standing cs)
    (hlaid : Laid t b b₁) (hb₁ : b₁.Shaped) (hw : b₁.waiting = []) (hplaced : Placed t b₁ b₂)
    (ht : t = .make t.kind t.value (({} : Position).advance cs))
    (hmarker : t.kind.isMarker = false) :
    Standing { b₂ with previous := t } (cs ++ t.value.toList) := by
  obtain ⟨ds, hcs, htiles⟩ := h.waiting
  obtain ⟨markers, blockOwner, hlaidOwned, hmarkersAt, hmarkers, hcode, hindent⟩ :=
    hlaid.exists_owned hw
  obtain ⟨ends, owner, hplacedOwned, hendsAt, hdelimited, hends⟩ := hplaced.exists_owned
  have hpos : t.pos = (({} : Position).advance (chars b.owned)).advance ds := by
    rw [← Position.advance_append, ← hcs, ht]
    rfl
  have hblanks := chars_of_tiles htiles blockOwner
  have hlast : ¬ (OwnedLeaf.mk owner t).isMarker := by
    rw [isMarker, hmarker]
    exact Bool.false_ne_true
  have hsettled : Settled {} b₂.owned := by
    rw [hplacedOwned, hlaidOwned, List.append_assoc _ ends]
    by_cases hnone : markers = []
    · rw [hnone, List.append_nil]
      refine (h.settled.append (settled_blanks htiles h.blanks blockOwner)).append ?_
      rw [chars_append, hblanks, Position.advance_append, ← hpos]
      refine (hendsAt.settled fun x hx hblock => ?_).append ?_
      · have := hdelimited x hx
        rw [hblock] at this
        cases this
      · rw [hendsAt.chars_eq]
        exact settled_singleton (fun hx => hlast hx.2) rfl fun hx => absurd hx hlast
    · obtain ⟨hkind, hnesting⟩ := hcode hnone
      have hundelimited : b₁.current.kind.isDelimited = false := by
        simpa [hnesting] using hb₁.isDelimited_iff
      have hsolid : (OwnedLeaf.mk owner t).isSolid := by
        have hblank : t.kind ≠ .whitespace := fun hk => by
          rw [hk] at hkind
          cases hkind
        simp [isSolid, isMarker, isBlank, hmarker, hblank]
      have hstart (hne : b.indent ≠ "") : ds ≠ [] := by
        rintro rfl
        exact hne (h.indent.trans htiles.join_eq)
      have hline : Settled (({} : Position).advance (chars b.owned))
          (markers ++ b.waiting.map (OwnedLeaf.mk blockOwner) ++ [⟨owner, t⟩]) :=
        settled_line htiles h.blanks (hpos ▸ hmarkersAt) hmarkers
          (fun x hx hk => hstart (hindent x hx hk)) hsolid hpos
      rw [hends hundelimited, List.nil_append, List.append_assoc _ markers, List.append_assoc]
      exact h.settled.append hline
  have hchars : chars b₂.owned = cs ++ t.value.toList := by
    rw [hplacedOwned, hlaidOwned]
    simp only [chars_append, hmarkersAt.chars_eq, hendsAt.chars_eq, hblanks, chars_cons, chars_nil,
      List.append_nil, hcs]
  obtain ⟨_, _, _, hframe⟩ := hplaced.frame
  have hw₂ : b₂.waiting = [] := by rw [hframe]; exact hw
  refine ⟨hsettled, ⟨[], by rw [List.append_nil]; exact hchars.symm, ?_⟩, ?_, ?_, ?_, ?_⟩
  · show Tiles _ b₂.waiting []
    rw [hw₂]
    rfl
  · show ∀ u ∈ b₂.waiting, u.kind = .whitespace
    rw [hw₂]
    exact List.forall_mem_nil _
  · show b₂.indent = String.join (b₂.waiting.map Token.value)
    rw [hw₂, hframe]
    exact hlaid.indent_eq hw h.indent
  · refine ⟨t.value.toList, ?_, ?_⟩
    · rw [String.ofList_toList, ht]
      rfl
    · rw [Position.advance_append, ht]
      rfl
  · exact fun hvalue => (hplaced.back_of_stringValue hb₁ hvalue).2

theorem Step.standing {b b' : Builder} {cs : List Char} {ts : List Token} {t : Token}
    (hstep : Step t b b') (h : b.Standing cs) (hb : b.Accounted ts) (hm : b.Marked)
    (ht : t = .make t.kind t.value (({} : Position).advance cs))
    (hmarker : t.kind.isMarker = false) :
    b'.Standing (cs ++ t.value.toList) := by
  have hb₀ := hb.begin t
  have h₀ := h.begin hb hm (congrArg Token.pos ht)
  cases hstep with
  | @waits b₀ hbegin _ _ _ hkind =>
      rw [← hbegin] at h₀
      obtain ⟨ds, hcs, htiles⟩ := h₀.waiting
      refine ⟨h₀.settled, ⟨ds ++ t.value.toList, ?_, ?_⟩, ?_, ?_, ?_, ?_⟩
      · rw [hcs, List.append_assoc]
        rfl
      · refine htiles.append ⟨[], (List.append_nil _).symm, ?_, rfl⟩
        rw [← Position.advance_append, ← hcs]
        exact ht
      · exact List.forall_mem_append.mpr ⟨h₀.blanks, List.forall_mem_singleton.mpr hkind⟩
      · show b₀.indent ++ t.value = _
        rw [h₀.indent, List.map_append, String.join_append]
        simp
      · refine ⟨t.value.toList, ?_, ?_⟩
        · rw [String.ofList_toList]
          conv_lhs => rw [ht]
          rw [ht]
          rfl
        · rw [Position.advance_append, ht]
          rfl
      · intro hvalue
        rw [show t.kind = .stringValue from hvalue] at hkind
        cases hkind
  | merges hlaid hkind _ hprev =>
      obtain rfl := hb₀.eq_of_laid hlaid hkind hprev
      exact h₀.merges (hb₀.waiting_eq_nil_of_value hprev) hprev (hkind ▸ ht)
  | places hlaid hb₁ _ hplaced =>
      exact h₀.places hlaid hb₁ (hlaid.waiting_eq_nil hb₀.waits hb₀.line) hplaced ht hmarker

/-- The leaves of tokens that tile a text stand in a row. -/
theorem standing_of_foldlM {layout : Layout} {tokens : List Token} {cs : List Char} {b : Builder}
    (htiles : Tiles {} tokens cs) (hmarkers : ∀ t ∈ tokens, t.kind.isMarker = false)
    (h : tokens.foldlM push (start layout) = .ok b) : b.Standing cs := by
  induction tokens using List.reverseRecOn generalizing cs b with
  | nil =>
      cases h
      obtain rfl : cs = [] := htiles
      exact standing_start layout
  | append_singleton earlier t ih =>
      obtain ⟨b₀, hrun, hpush⟩ := foldlM_concat_eq_ok_iff.mp h
      obtain ⟨hearlier, ht⟩ := List.forall_mem_append.mp hmarkers
      obtain ⟨ds, es, rfl, hds, us, rfl, hmade, hus⟩ := Tiles.exists_append htiles
      obtain rfl : us = [] := hus
      have hb := accounted_of_foldlM hrun
      have hstep := step_of_push hb.shaped hpush
      rw [List.append_nil]
      exact hstep.standing (ih hds hearlier hrun) hb (foldlM_dissolve hrun).1 hmade
        (ht t List.mem_cons_self)

/-! ### The end -/

/-- While the levels are closed at the end, markers are added behind all text. -/
structure Closing (first b : Builder) : Prop where
  marked : b.Marked
  previous : b.previous = first.previous
  owned : ∃ ends, b.owned = first.owned ++ ends ∧ ∀ x ∈ ends, IsLast first.previous.endPosition x

theorem Closing.add {first b b' : Builder} (h : Closing first b) (hm : b'.Marked)
    (hprevious : b'.previous = b.previous) {x : OwnedLeaf} (howned : b'.owned = b.owned ++ [x])
    (hx : IsLast b.previous.endPosition x) : Closing first b' := by
  obtain ⟨ends, hleaves, hends⟩ := h.owned
  refine ⟨hm, hprevious.trans h.previous, ends ++ [x], ?_, ?_⟩
  · rw [howned, hleaves, List.append_assoc]
  · exact List.forall_mem_append.mpr ⟨hends, List.forall_mem_singleton.mpr (h.previous ▸ hx)⟩

theorem Closing.closed {first b b₀ : Builder} (h : Closing first b) {parent : OpenTree}
    {rest : List OpenTree} (houter : b.outer = parent :: rest)
    (hb₀ : (if b.current.children.isEmpty then b.pushToken (b.previous.markerAfter .levelStart)
      else b) = b₀) :
    Closing first (b₀.closed none (b₀.previous.markerAfter .levelEnd) parent rest) := by
  have hbegun := h.marked.marks (b.previous.markerAfter .levelStart) rfl
  have h₀ : Closing first b₀ ∧ b₀.outer = parent :: rest := by
    rw [hb₀] at hbegun
    rcases h.marked.current with hstart | ⟨hdelimited, hempty⟩
    · rw [if_neg (by simp [hstart.children_ne])] at hb₀
      exact hb₀ ▸ ⟨h, houter⟩
    · rw [if_pos (by rw [hempty]; rfl)] at hb₀
      obtain rfl := hb₀
      refine ⟨h.add hbegun.marked rfl (owned_pushToken b _) ⟨rfl, rfl, rfl, fun hx => ?_⟩, houter⟩
      rw [show b.current.kind = .block from hx.1] at hdelimited
      cases hdelimited
  rw [hb₀] at hbegun
  exact h₀.1.add (hbegun.closed h₀.2 none _).marked rfl (owned_closed h₀.2 none _)
    ⟨rfl, rfl, rfl, fun hx => nomatch hx.2⟩

/-- What is closed at the end ends behind all text. -/
theorem exists_ends_of_finish {b : Builder} {tree : Tree} (hm : b.flush.Marked)
    (h : b.finish = .ok tree) :
    ∃ ends, tree.owned = b.flush.owned ++ ends ∧ ∀ x ∈ ends, IsLast b.previous.endPosition x := by
  obtain ⟨b', hclose, hroot⟩ := bind_eq_ok_iff.mp h
  cases hroot
  obtain ⟨hclosing, houter⟩ := closeAll_induction (P := Closing b.flush)
    (fun _ _ _ hb houter _ hb₀ => hb.closed houter hb₀)
    ⟨hm, rfl, [], (List.append_nil _).symm, nofun⟩ rfl hclose
  obtain ⟨ends, howned, hends⟩ := hclosing.owned
  refine ⟨ends ++ [⟨b'.current.kind, b'.previous.markerAfter .levelEnd⟩], ?_, ?_⟩
  · rw [← List.append_assoc, ← howned, owned, houter]
    refine (OpenTree.owned_close (b'.current.push (.token (b'.previous.markerAfter .levelEnd)))
      none b'.current.kind).trans ?_
    rw [OpenTree.owned_push]
    exact List.append_nil _
  · have hprevious : b'.previous = b.previous := hclosing.previous
    rw [hprevious]
    exact List.forall_mem_append.mpr
      ⟨hends, List.forall_mem_singleton.mpr ⟨rfl, rfl, rfl, fun hx => nomatch hx.2⟩⟩

/-- The leaves of the finished tree stand in a row. -/
theorem Standing.stand_finish {b : Builder} {cs : List Char} {ts : List Token} {tree : Tree}
    (h : b.Standing cs) (hb : b.Accounted ts) (hm : b.Marked) (hfinish : b.finish = .ok tree) :
    Stand {} tree.owned [] := by
  obtain ⟨ends, howned, hends⟩ := exists_ends_of_finish (hm.flush hb.waiting_eq_nil) hfinish
  obtain ⟨ds, hcs, htiles⟩ := h.waiting
  obtain ⟨es, hmade, hend⟩ := h.previous
  have hpos : b.previous.endPosition = ({} : Position).advance (chars b.flush.owned) := by
    rw [owned_flush, chars_append, chars_of_tiles htiles, ← hcs, ← hend, hmade]
    exact Token.endPosition_make _ _ _
  have hsettled : Settled {} b.flush.owned := by
    rw [owned_flush]
    exact h.settled.append (settled_blanks htiles h.blanks b.current.kind)
  rw [howned]
  exact stand_append.mpr ⟨hsettled _, stand_of_isLast (hpos ▸ hends)⟩

end Builder

/-- Where the tokens tile a text, the leaves of their tree stand in a row. -/
theorem Tree.stand_ofTokens {layout : Layout} {tokens : List Token} {cs : List Char} {tree : Tree}
    (htiles : Tiles {} tokens cs) (hmarkers : ∀ t ∈ tokens, t.kind.isMarker = false)
    (h : Tree.ofTokens layout tokens = .ok tree) : OwnedLeaf.Stand {} tree.owned [] := by
  obtain ⟨b, hrun, hfinish⟩ := bind_eq_ok_iff.mp h
  exact (Builder.standing_of_foldlM htiles hmarkers hrun).stand_finish
    (Builder.accounted_of_foldlM hrun) (Builder.foldlM_dissolve hrun).1 hfinish

end Nesting
