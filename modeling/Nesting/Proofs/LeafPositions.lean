import Nesting.Proofs.Lexer.Strings
import Nesting.Proofs.Tree.Positions

/-! # The positions of leaves

Every leaf of the tree of a source, markers included, stands where the text of the leaves before it
ends, and the markers of a block behind the indentation that follows them as well
(`RuleTable.leaves_stand`).  So a tree has a block exactly if one of its leaves does not stand where
the text before it ends, and exactly if positions go back somewhere in it: the start marker of a
block stands behind the blanks that come after it (`OwnedLeaf.Stand.exists_blank`).

A leaf belongs to a block only if there is a block among the trees (`Tree.Unblocked.owner_ne`), and
only the indentation of lines makes blocks (`Tree.unblocked_of_flat`). -/

namespace Nesting

/-! ### Positions that count the text before them -/

theorem Position.offset_lt_advance (p : Position) {cs : List Char} (h : cs ≠ []) :
    p.offset < (p.advance cs).offset := by
  rw [advance_offset]
  have hsize : (String.ofList cs).utf8ByteSize ≠ 0 := by
    rw [Ne, String.utf8ByteSize_eq_zero_iff, String.ofList_eq_empty_iff]
    exact h
  omega

/-- Every leaf of a tree has the position where the text of the leaves before it ends. -/
def Tree.Aligned (t : Tree) : Prop :=
  ∀ before u after, t.toNode.leaves = before ++ u :: after →
    u.pos = ({} : Position).advance (before.flatMap fun v => v.value.toList)

/-- Along a tree, positions never go back. -/
def Tree.Ordered (t : Tree) : Prop :=
  (t.toNode.leaves.map fun u => u.pos.offset).Pairwise (· ≤ ·)

/-- A tree without blocks. -/
def Tree.Unblocked (t : Tree) : Prop := ∀ x ∈ t.toNode.trees, x.kind ≠ .block

/-! ### The trees that leaves belong to -/

mutual

/-- A leaf belongs to the tree around a node or to one inside it. -/
theorem Node.exists_of_mem_owned {owner : TreeKind} {x : OwnedLeaf} :
    ∀ {n : Node}, x ∈ n.owned owner → x.owner = owner ∨ ∃ t ∈ n.trees, t.kind = x.owner
  | .token t, h => .inl (congrArg OwnedLeaf.owner (List.mem_singleton.mp h))
  | .tree kind opening closing children, h => by
      refine .inr ?_
      rw [owned, List.mem_append, List.mem_append, List.mem_map, List.mem_map] at h
      rcases h with (⟨_, _, rfl⟩ | h) | ⟨_, _, rfl⟩
      · exact ⟨_, List.mem_cons_self, rfl⟩
      · rcases exists_of_mem_ownedAll h with h | ⟨t, ht, hkind⟩
        · exact ⟨_, List.mem_cons_self, h.symm⟩
        · exact ⟨t, List.mem_cons_of_mem _ ht, hkind⟩
      · exact ⟨_, List.mem_cons_self, rfl⟩

theorem Node.exists_of_mem_ownedAll {owner : TreeKind} {x : OwnedLeaf} :
    ∀ {ns : List Node}, x ∈ ownedAll owner ns →
      x.owner = owner ∨ ∃ t ∈ treesAll ns, t.kind = x.owner
  | [], h => nomatch h
  | n :: ns, h => by
      rcases List.mem_append.mp h with h | h
      · refine (exists_of_mem_owned h).imp_right ?_
        rintro ⟨t, ht, hkind⟩
        exact ⟨t, List.mem_append_left _ ht, hkind⟩
      · refine (exists_of_mem_ownedAll h).imp_right ?_
        rintro ⟨t, ht, hkind⟩
        exact ⟨t, List.mem_append_right _ ht, hkind⟩

end

mutual

/-- The leaves of a tree inside a node are a stretch of the node's leaves. -/
theorem Node.owned_of_mem_trees (owner : TreeKind) {t : Tree} :
    ∀ {n : Node}, t ∈ n.trees → ∃ before after, n.owned owner = before ++ t.owned ++ after
  | .token _, h => nomatch h
  | .tree kind opening closing children, h => by
      rcases List.mem_cons.mp h with rfl | h
      · exact ⟨[], [], (List.append_nil _).symm⟩
      · obtain ⟨before, after, heq⟩ := owned_of_mem_treesAll kind h
        refine ⟨opening.toList.map (OwnedLeaf.mk kind) ++ before,
          after ++ closing.toList.map (OwnedLeaf.mk kind), ?_⟩
        rw [owned, heq]
        simp only [List.append_assoc]

theorem Node.owned_of_mem_treesAll (owner : TreeKind) {t : Tree} :
    ∀ {ns : List Node}, t ∈ treesAll ns →
      ∃ before after, ownedAll owner ns = before ++ t.owned ++ after
  | [], h => nomatch h
  | n :: ns, h => by
      rcases List.mem_append.mp h with h | h
      · obtain ⟨before, after, heq⟩ := owned_of_mem_trees owner h
        refine ⟨before, after ++ ownedAll owner ns, ?_⟩
        rw [ownedAll, heq]
        simp only [List.append_assoc]
      · obtain ⟨before, after, heq⟩ := owned_of_mem_treesAll owner h
        refine ⟨n.owned owner ++ before, after, ?_⟩
        rw [ownedAll, heq]
        simp only [List.append_assoc]

end

/-! ### Layouts without blocks -/

namespace Builder

/-- No open level and no closed tree is a block. -/
structure Flat (b : Builder) : Prop where
  levels : ∀ k ∈ b.kinds, k ≠ .block
  trees : ∀ x ∈ b.trees, x.kind ≠ .block

theorem Flat.closed {b : Builder} (h : b.Flat) {parent : OpenTree} {rest : List OpenTree}
    (houter : b.outer = parent :: rest) (closing : Option Token) (marker : Token) :
    (b.closed closing marker parent rest).Flat := by
  have hlevels := h.levels
  rw [kinds_closed houter closing marker, List.forall_mem_cons] at hlevels
  refine ⟨hlevels.2, fun x hx => ?_⟩
  rcases (mem_trees_closed houter closing marker).mp hx with rfl | hx
  · exact hlevels.1
  · exact h.trees x hx

theorem Placed.flat {t : Token} {b b' : Builder} (h : Placed t b b') (hb : b.Flat) :
    b'.Flat := by
  induction h with
  | @opens b k hk _ =>
      refine ⟨List.forall_mem_cons.mpr ⟨?_, hb.levels⟩, trees_openDelimited b k t ▸ hb.trees⟩
      rintro rfl
      cases ht : t.kind <;> rw [ht] at hk <;> cases hk
  | closes _ houter =>
      have hclosed := hb.closed houter (some t) (t.markerBefore .levelEnd)
      exact ⟨hclosed.levels, hclosed.trees⟩
  | @child b _ _ _ => exact ⟨hb.levels, trees_pushToken b t ▸ hb.trees⟩
  | escapes _ _ houter _ ih =>
      have hclosed :=
        hb.closed houter (some (t.markerBefore .templateEnd)) (t.markerBefore .levelEnd)
      exact ih ⟨hclosed.levels, hclosed.trees⟩

/-- Where indentation makes no blocks, no token does. -/
theorem Step.flat {t : Token} {b b' : Builder} (h : Step t b b') (hi : b.indentBlocks = false)
    (hb : b.Flat) : b'.Flat := by
  have hbegin : (b.begin t).Flat ∧ (b.begin t).indentBlocks = false := by
    refine ⟨⟨?_, trees_begin b t ▸ hb.trees⟩, ?_⟩
    all_goals obtain ⟨_, hbegin⟩ := b.begin_eq t
    · rw [hbegin]
      exact hb.levels
    · rw [hbegin]
      exact hi
  have laid_eq {b₁ : Builder} (hlaid : Laid t (b.begin t) b₁) : b₁ = b.begin t := by
    cases hlaid with
    | inside _ => rfl
    | newline hblocks => exact absurd hblocks (by simp [hbegin.2])
    | comment hblocks => exact absurd hblocks (by simp [hbegin.2])
    | stays hblocks => exact absurd hblocks (by simp [hbegin.2])
    | opens hblocks => exact absurd hblocks (by simp [hbegin.2])
  cases h with
  | waits h₀ hblocks => exact absurd hblocks (by simp [h₀, hbegin.2])
  | merges hlaid =>
      obtain rfl := laid_eq hlaid
      refine ⟨?_, trees_coalesce (b.begin t) t ▸ hbegin.1.trees⟩
      obtain ⟨_, _, hcoalesce⟩ := (b.begin t).coalesce_eq t
      rw [hcoalesce]
      exact hbegin.1.levels
  | places hlaid _ _ hplaced =>
      obtain rfl := laid_eq hlaid
      have hflat := hplaced.flat hbegin.1
      exact ⟨hflat.levels, hflat.trees⟩

theorem Ended.flat {b b' : Builder} (h : Ended b b') (hb : b.Flat) : b'.Flat := by
  induction h with
  | done _ => exact hb
  | @marks b _ _ ih => exact ih ⟨hb.levels, trees_pushToken b _ ▸ hb.trees⟩
  | close houter _ ih => exact ih (hb.closed houter _ _)

theorem flat_start (layout : Layout) : (start layout).Flat where
  levels := List.forall_mem_singleton.mpr (show TreeKind.root ≠ .block by decide)
  trees := List.forall_mem_nil _

end Builder

/-- Where indentation makes no blocks, a tree has none. -/
theorem Tree.unblocked_of_flat {layout : Layout} (hi : layout.indentBlocks = false)
    {tokens : List Token} {tree : Tree} (h : Tree.ofTokens layout tokens = .ok tree) :
    tree.Unblocked := by
  obtain ⟨b, hrun, hfinish⟩ := bind_eq_ok_iff.mp h
  have hflat : b.Shaped ∧ b.indentBlocks = false ∧ b.Flat := by
    refine foldlM_induction (P := fun _ b => b.Shaped ∧ b.indentBlocks = false ∧ b.Flat)
      ⟨Builder.shaped_start layout, hi, Builder.flat_start layout⟩ ?_ hrun
    rintro _ t _ b b' ⟨hshaped, hi, hb⟩ hpush
    have hstep := Builder.step_of_push hshaped hpush
    exact ⟨hstep.shaped hshaped, hstep.indentBlocks_eq.trans hi, hstep.flat hi hb⟩
  obtain ⟨b', hended, rfl⟩ := Builder.exists_ended_of_finish hfinish
  have hb' : b'.Flat := hended.flat ⟨hflat.2.2.levels, Builder.trees_flush b ▸ hflat.2.2.trees⟩
  intro x hx
  rcases (Builder.mem_trees_rooted hended.outer_eq_nil).mp hx with rfl | hx
  · exact hb'.levels _ List.mem_cons_self
  · exact hb'.trees x hx

/-! ### Trees whose leaves stand in a row -/

namespace OwnedLeaf

theorem Stand.chars_markers {pos : Position} {before markers after : List OwnedLeaf}
    (h : Stand pos (before ++ markers ++ after) []) (hmarkers : ∀ x ∈ markers, x.isMarker) :
    chars markers = [] := by
  refine List.flatMap_eq_nil_iff.mpr fun x hx => ?_
  obtain ⟨earlier, later, rfl⟩ := List.append_of_mem hx
  have hstand : Stand pos ((before ++ earlier) ++ x :: (later ++ after)) [] := by
    simpa only [List.append_assoc, List.cons_append] using h
  rw [hstand.stands.empty (hmarkers x hx)]
  rfl

/-- Without blocks, positions never go back along a row. -/
theorem Stand.pairwise_offset {pos : Position} {xs : List OwnedLeaf} (h : Stand pos xs [])
    (howner : ∀ x ∈ xs, x.owner ≠ .block) :
    (∀ x ∈ xs, pos.offset ≤ x.token.pos.offset) ∧
      xs.Pairwise fun x y => x.token.pos.offset ≤ y.token.pos.offset := by
  induction xs generalizing pos with
  | nil => exact ⟨List.forall_mem_nil _, .nil⟩
  | cons x xs ih =>
      obtain ⟨hx, hxs⟩ := h
      obtain ⟨hne, howner⟩ := List.forall_mem_cons.mp howner
      obtain ⟨hlater, hpairs⟩ := ih hxs howner
      have hpos : x.token.pos = pos := by
        have hpos := hx.pos_eq
        rwa [overtaken, if_neg fun hblock => hne hblock.1, chars_nil, Position.advance_nil] at hpos
      have hlater : ∀ y ∈ xs, pos.offset ≤ y.token.pos.offset := by
        intro y hy
        have hle := hlater y hy
        rw [Position.advance_offset] at hle
        omega
      exact ⟨List.forall_mem_cons.mpr ⟨(congrArg Position.offset hpos).ge, hlater⟩,
        List.pairwise_cons.mpr ⟨fun y hy => hpos ▸ hlater y hy, hpairs⟩⟩

/-- Behind the start marker of a block comes a blank that stands before the marker's position. -/
theorem Stand.exists_blank {pos : Position} {before after : List OwnedLeaf} {u : Token}
    (h : Stand pos (before ++ ⟨.block, u⟩ :: after) []) (hu : u.kind = .levelStart) :
    ∃ y ∈ after, y.token.pos.offset < u.pos.offset := by
  have hmarker : (OwnedLeaf.mk .block u).isMarker := by
    rw [isMarker, hu]
    rfl
  have hstart := h.stands
  have hpos := hstart.pos_eq
  rw [overtaken, if_pos ⟨rfl, hmarker⟩] at hpos
  have hindented := hstart.indented rfl hu
  have hsplit : after = after.takeWhile isMarker ++ after.dropWhile isMarker :=
    List.takeWhile_append_dropWhile.symm
  have hmarkers : ∀ x ∈ OwnedLeaf.mk .block u :: after.takeWhile isMarker, x.isMarker :=
    List.forall_mem_cons.mpr ⟨hmarker, fun x hx => List.mem_takeWhile_imp hx⟩
  cases hrest : after.dropWhile isMarker with
  | nil => exact absurd (by rw [blanksAhead, hrest]; rfl) hindented
  | cons y rest =>
      have hy : y.isMarker = false := by
        have hhead := List.head_dropWhile_not isMarker (l := after)
          (by rw [hrest]; exact List.cons_ne_nil y rest)
        simpa only [hrest, List.head_cons] using hhead
      rw [hrest] at hsplit
      refine ⟨y, by rw [hsplit]; simp, ?_⟩
      have hrow : Stand pos (before ++ (⟨.block, u⟩ :: after.takeWhile isMarker) ++ y :: rest)
          [] := by
        have hsame : before ++ (⟨.block, u⟩ :: after.takeWhile isMarker) ++ y :: rest =
            before ++ ⟨.block, u⟩ :: after := by
          conv_rhs => rw [hsplit]
          simp only [List.append_assoc, List.cons_append]
        rwa [hsame]
      have hypos := hrow.stands.pos_eq
      rw [overtaken, if_neg fun hblock => by simp [hy] at hblock, chars_nil, Position.advance_nil,
        chars_append, hrow.chars_markers hmarkers, List.append_nil] at hypos
      rw [hypos, show u.pos = _ from hpos]
      exact Position.offset_lt_advance _ hindented

end OwnedLeaf

namespace Tree

open OwnedLeaf

variable {tree : Tree}

theorem map_token_owned (tree : Tree) : tree.owned.map OwnedLeaf.token = tree.toNode.leaves :=
  Node.map_token_owned tree.kind tree.toNode

theorem Unblocked.owner_ne (h : tree.Unblocked) : ∀ x ∈ tree.owned, x.owner ≠ .block := by
  intro x hx hblock
  rcases Node.exists_of_mem_owned hx with howner | ⟨t, ht, hkind⟩
  · exact h tree List.mem_cons_self (howner.symm.trans hblock)
  · exact h t ht (hkind.trans hblock)

/-- A block begins with its start marker. -/
theorem exists_start_of_block (hmarked : ∀ x ∈ tree.toNode.trees, x.WellFormed) {x : Tree}
    (hx : x ∈ tree.toNode.trees) (hblock : x.kind = .block) :
    ∃ before u after, tree.owned = before ++ ⟨.block, u⟩ :: after ∧ u.kind = .levelStart := by
  obtain ⟨first, inner, last, hchildren, hfirst, -⟩ := (hmarked x hx).markers
  obtain ⟨before, after, howned⟩ := Node.owned_of_mem_trees tree.kind hx
  have hx : x.owned = x.opening.toList.map (OwnedLeaf.mk .block) ++
      Node.ownedAll .block (.token first :: inner ++ [.token last]) ++
      x.closing.toList.map (OwnedLeaf.mk .block) := by
    rw [← hblock, ← hchildren]
    rfl
  refine ⟨before ++ x.opening.toList.map (OwnedLeaf.mk .block), first,
    Node.ownedAll .block (inner ++ [.token last]) ++
      x.closing.toList.map (OwnedLeaf.mk .block) ++ after, ?_, hfirst⟩
  rw [show tree.owned = _ from howned, hx]
  simp only [Node.ownedAll, Node.owned, List.append_assoc, List.cons_append, List.nil_append]

/-- The leaves of a tree stand where the text before them ends exactly if there are no blocks. -/
theorem aligned_iff (h : Stand {} tree.owned [])
    (hmarked : ∀ x ∈ tree.toNode.trees, x.WellFormed) : tree.Aligned ↔ tree.Unblocked := by
  constructor
  · intro haligned x hx hblock
    obtain ⟨before, u, after, howned, hu⟩ := exists_start_of_block hmarked hx hblock
    rw [howned] at h
    have hmarker : (OwnedLeaf.mk .block u).isMarker := by
      rw [isMarker, hu]
      rfl
    have hpos := h.stands.pos_eq
    rw [overtaken, if_pos ⟨rfl, hmarker⟩] at hpos
    have hleaves : tree.toNode.leaves =
        before.map OwnedLeaf.token ++ u :: after.map OwnedLeaf.token := by
      rw [← map_token_owned, howned, List.map_append, List.map_cons]
    have haligned := haligned _ _ _ hleaves
    rw [List.flatMap_map] at haligned
    have hlt := Position.offset_lt_advance (Position.advance {} (chars before))
      (h.stands.indented rfl hu)
    rw [← hpos, haligned] at hlt
    exact Nat.lt_irrefl _ hlt
  · intro hun before u after hleaves
    rw [← map_token_owned] at hleaves
    obtain ⟨before', rest, howned, rfl, hrest⟩ := List.map_eq_append_iff.mp hleaves
    obtain ⟨x, after', rfl, rfl, rfl⟩ := List.map_eq_cons_iff.mp hrest
    have howner : x.owner ≠ .block := hun.owner_ne x (by rw [howned]; simp)
    have hpos := (howned ▸ h).stands.pos_eq
    rw [overtaken, if_neg fun hblock => howner hblock.1, chars_nil, Position.advance_nil] at hpos
    rw [hpos, List.flatMap_map]
    rfl

/-- Positions never go back along a tree exactly if there are no blocks. -/
theorem ordered_iff (h : Stand {} tree.owned [])
    (hmarked : ∀ x ∈ tree.toNode.trees, x.WellFormed) : tree.Ordered ↔ tree.Unblocked := by
  rw [Ordered, ← map_token_owned, List.map_map, List.pairwise_map]
  constructor
  · intro hordered x hx hblock
    obtain ⟨before, u, after, howned, hu⟩ := exists_start_of_block hmarked hx hblock
    rw [howned] at h hordered
    obtain ⟨y, hy, hlt⟩ := h.exists_blank hu
    have hle := List.rel_of_pairwise_cons (List.pairwise_append.mp hordered).2.1 hy
    exact absurd hlt (Nat.not_lt.mpr hle)
  · intro hun
    exact (h.pairwise_offset hun.owner_ne).2

end Tree

namespace RuleTable

variable {l : Lexicon} {table : RuleTable}

theorem isMarker_of_mem_tokens (h : ofLexicon l = .ok table) {state : LexState} {r : StateRule}
    (hr : r ∈ table.rulesOf state) {t u : Token} (ht : t.kind = r.kind)
    (hu : u ∈ r.action.tokens t) : u.kind.isMarker = false := by
  have single (hmarker : r.kind.isMarker = false) (hu : u ∈ [t]) : u.kind.isMarker = false := by
    rw [List.mem_singleton.mp hu, ht]
    exact hmarker
  cases hasRule_of_mem h hr with
  | code _ hk ha _ =>
      rw [ha] at hu
      refine single ?_ hu
      cases hkind : r.kind <;> rw [hkind] at hk <;> first | rfl | cases hk
  | content hk ha _ =>
      rw [ha] at hu
      exact single (by rw [hk]; rfl) hu
  | enterString _ _ => exact single rfl hu
  | leaveTemplate _ => exact single rfl hu
  | enterTemplate _ => exact single rfl hu
  | leaveString _ => exact single rfl hu
  | reference _ _ _ _ ha =>
      rw [ha] at hu
      obtain ⟨ts, mark, hcut, hts, hmark⟩ :=
        exists_mark_of_cut (fun _ => kind_of_mem_referenceRules) t
      rw [Transition.tokens, hcut] at hu
      rcases List.mem_append.mp hu with hu | hu
      · have hk := hts u hu
        cases hkind : u.kind <;> rw [hkind] at hk <;> first | rfl | cases hk
      · rw [List.mem_singleton.mp hu, hmark]
        rfl

/-- The lexer makes no markers. -/
theorem isMarker_of_mem_tokenize (h : ofLexicon l = .ok table) (source : String) :
    ∀ t ∈ table.tokenize source, t.kind.isMarker = false := by
  have hscan : ∀ x ∈ table.scan source, x.1.kind.isMarker = false := by
    refine scanFrom_induction h (P := fun _ out => ∀ x ∈ out, x.1.kind.isMarker = false)
      (fun _ _ => List.forall_mem_nil _) ?_ source.toList.length (.start source.toList)
      (Nat.le_refl _)
    intro s ts s' rest hreads hrest
    refine List.forall_mem_append.mpr ⟨fun x hx => ?_, hrest⟩
    obtain ⟨u, hu, rfl⟩ := List.mem_map.mp hx
    cases hreads with
    | rule hr _ _ => exact isMarker_of_mem_tokens h hr rfl hu
    | unknown _ _ =>
        rw [List.mem_singleton.mp hu]
        rfl
  intro t ht
  obtain ⟨x, hx, rfl⟩ := List.mem_map.mp ht
  exact hscan x hx

/-- **Where the leaves of a tree stand.**  Each has the position where the text of the leaves before
it ends, except that the markers of a block count the blanks behind them as well.  So the leaves
stand where the text before them ends, and their positions never go back, exactly if there is no
block, as where indentation makes none. -/
theorem leaves_stand (h : ofLexicon l = .ok table) {layout : Layout} {source : String} {tree : Tree}
    (htree : Tree.ofTokens layout (table.tokenize source) = .ok tree) :
    (∀ before x after, tree.owned = before ++ x :: after →
      x.token.pos = ({} : Position).advance
        (OwnedLeaf.chars before ++ OwnedLeaf.chars (x.overtaken after))) ∧
    (tree.Aligned ↔ tree.Unblocked) ∧ (tree.Ordered ↔ tree.Unblocked) ∧
    (layout.indentBlocks = false → tree.Unblocked) := by
  have hmarkers := isMarker_of_mem_tokenize h source
  have hstand := Tree.stand_ofTokens (scan_tiles h source) hmarkers htree
  have hmarked := Tree.wellFormed_of_mem_trees hmarkers htree
  refine ⟨fun before x after howned => ?_, Tree.aligned_iff hstand hmarked,
    Tree.ordered_iff hstand hmarked, fun hi => Tree.unblocked_of_flat hi htree⟩
  rw [Position.advance_append]
  exact (howned ▸ hstand).stands.pos_eq

/-- An indented line: the start marker of its block has the position of its code, behind its
indentation. -/
theorem leaves_stand_interpolating_indented :
    ∃ table tree, ofLexicon .interpolating = .ok table ∧
      Tree.ofTokens { indentBlocks := true } (table.tokenize "f\n\ta\n") = .ok tree ∧
      (tree.owned.map fun x => (x.owner, x.token.kind, x.token.pos.offset)) =
        [(.root, .levelStart, 0), (.root, .symbol, 0), (.root, .newline, 1),
          (.block, .levelStart, 3), (.block, .whitespace, 2), (.block, .symbol, 3),
          (.block, .newline, 4), (.block, .levelEnd, 5), (.root, .levelEnd, 5)] ∧
      (∀ before x after, tree.owned = before ++ x :: after →
        x.token.pos = ({} : Position).advance
          (OwnedLeaf.chars before ++ OwnedLeaf.chars (x.overtaken after))) ∧
      ¬ tree.Aligned ∧ ¬ tree.Ordered := by
  have run : (ofLexicon .interpolating).map (fun table =>
      (Tree.ofTokens { indentBlocks := true } (table.tokenize "f\n\ta\n")).map fun tree =>
        (tree.owned.map (fun x => (x.owner, x.token.kind, x.token.pos.offset)),
          tree.toNode.trees.map Tree.kind)) =
      .ok (.ok ([(.root, .levelStart, 0), (.root, .symbol, 0), (.root, .newline, 1),
        (.block, .levelStart, 3), (.block, .whitespace, 2), (.block, .symbol, 3),
        (.block, .newline, 4), (.block, .levelEnd, 5), (.root, .levelEnd, 5)],
        [.root, .block])) := by
    decide +kernel
  obtain ⟨table, h, run⟩ := map_eq_ok_iff.mp run
  obtain ⟨tree, htree, run⟩ := map_eq_ok_iff.mp run
  obtain ⟨howned, hkinds⟩ := Prod.mk.inj run
  obtain ⟨hpos, haligned, hordered, -⟩ := leaves_stand h htree
  have hblock : ¬ tree.Unblocked := by
    intro hun
    obtain ⟨x, hx, hk⟩ := List.mem_map.mp (show .block ∈ tree.toNode.trees.map Tree.kind by
      rw [hkinds]
      decide)
    exact hun x hx hk
  exact ⟨table, tree, h, htree, howned, hpos, fun ha => hblock (haligned.mp ha),
    fun ho => hblock (hordered.mp ho)⟩

end RuleTable

end Nesting
