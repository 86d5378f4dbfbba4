import Nesting.Proofs.Tree.WellFormed

/-! # Rebuilding a tree from its leaves

A tree in which every delimiter has been closed by a token of its own (`Tree.Complete`) is
recovered from its leaves: building gives it back, with the two markers in every tree that it
consists of (`Tree.framed`).

The induction is over the nodes, for any builder whose innermost level may hold the node: the
leaves of the node make one more child of that level and leave all else as it was
(`Builder.foldlM_leaves`).  Of the level itself only two things matter, that it has its start
marker and that a string value which is the latest token is not followed by another one. -/

namespace Nesting

/-! ### Complete trees -/

/-- The kinds of tokens that are neither delimiters nor parts of strings nor markers. -/
def TokenKind.isPlain : TokenKind → Bool
  | newline | whitespace | comment | symbol | number | operator | unknown => true
  | _ => false

/-- Two neighbours of which one is not a string value. -/
def Node.Apart (n m : Node) : Prop :=
  ¬ (n.tokenKind? = some .stringValue ∧ m.tokenKind? = some .stringValue)

/-- A node without markers that can stand in a tree of a kind, and in which every tree was closed
by a token.  A string holds values and templates; everything else holds plain tokens, brackets and
strings. -/
inductive Node.Complete : TreeKind → Node → Prop
  | plain {outer t} : outer ≠ .string → t.kind.isPlain → Complete outer (.token t)
  | value {t} : t.kind = .stringValue → Complete .string (.token t)
  | tree {outer kind opening closing children} : (outer = .string ↔ kind = .template) →
      kind.opening? = some opening.kind → kind.closing? = some closing.kind →
      (∀ n ∈ children, Complete kind n) → children.IsChain Node.Apart →
      Complete outer (.tree kind (some opening) (some closing) children)

/-- A root in which every other tree was closed by a token. -/
structure Tree.Complete (t : Tree) : Prop where
  kind : t.kind = .root
  opening : t.opening = none
  closing : t.closing = none
  children : ∀ n ∈ t.children, n.Complete .root

/-! ### Markers -/

/-- Children between two markers. -/
def Node.between (first last : Position) (children : List Node) : List Node :=
  .token (.marker .levelStart first) :: children ++ [.token (.marker .levelEnd last)]

mutual

/-- A node with markers in all its trees, the first one where the token behind the opening is, the
last one where the closing token is. -/
def Node.framed : Node → Node
  | .token t => .token t
  | .tree kind opening closing children =>
    .tree kind opening closing <|
      Node.between ((Node.leavesAll children ++ closing.toList).head?.elim {} (·.pos))
        (closing.elim {} (·.pos)) (framedAll children)

/-- Neighbouring nodes with markers in all their trees. -/
def Node.framedAll : List Node → List Node
  | [] => []
  | n :: ns => Node.framed n :: framedAll ns

end

/-- A whole tree with markers in all its trees.  Its own stand at the start of the source and
behind the last token. -/
def Tree.framed (t : Tree) : Tree :=
  { t with
    children := Node.between {} ((Node.leavesAll t.children).getLast?.elim {} Token.endPosition)
      (Node.framedAll t.children) }

/-! ### Builders -/

namespace Builder

/-- A builder whose innermost level has some more children, behind a latest token. -/
def grown (b : Builder) (ns : List Node) (last : Token) : Builder :=
  { b with current := b.current.extend ns, previous := last }

theorem push_eq_accept {b : Builder} (hb : b.indentBlocks = false) (t : Token) :
    b.push t = (b.begin t).accept t := by
  have hbegin : (b.begin t).indentBlocks = false := by
    obtain ⟨children, h⟩ := b.begin_eq t
    rw [h]
    exact hb
  unfold push
  simp [hbegin]

theorem begin_eq_self {b : Builder} (hb : b.current.children ≠ #[]) (t : Token) :
    b.begin t = b := by
  rw [begin, if_neg (by simpa using hb)]

/-- A level that has just been opened may get its start marker before its first token comes. -/
theorem foldlM_begin {b : Builder} (hb : b.indentBlocks = false) (hempty : b.current.children = #[])
    (t : Token) (ts : List Token) :
    (t :: ts).foldlM push b = (t :: ts).foldlM push (b.pushToken (t.markerBefore .levelStart)) := by
  have hbegin : b.begin t = b.pushToken (t.markerBefore .levelStart) := by
    rw [begin, hempty]
    rfl
  have hne : (b.pushToken (t.markerBefore .levelStart)).current.children ≠ #[] := by
    show b.current.children.push _ ≠ #[]
    simp
  rw [List.foldlM_cons, List.foldlM_cons, push_eq_accept hb, push_eq_accept (b := pushToken b _) hb,
    begin_eq_self hne, hbegin]

theorem push_eq_place {b : Builder} {t : Token} (hb : b.indentBlocks = false)
    (hstart : b.current.children ≠ #[])
    (hnew : ¬ (b.previous.kind = .stringValue ∧ t.kind = .stringValue)) :
    b.push t = (fun b' => { b' with previous := t }) <$> b.place t := by
  rw [push_eq_accept hb, begin_eq_self hstart, accept, if_neg (by simp; tauto)]
  cases b.place t <;> rfl

theorem place_of_opening {b : Builder} {t : Token} {k : TreeKind}
    (ht : k.opening? = some t.kind) (hk : k = .template → b.current.kind = .string) :
    b.place t = .ok (b.openDelimited k t) := by
  unfold place
  cases k with
  | root => cases ht
  | block => cases ht
  | wrapped =>
      obtain ht : TokenKind.bracketLeft = t.kind := Option.some.inj ht
      rw [← ht]
      rfl
  | string =>
      obtain ht : TokenKind.stringStart = t.kind := Option.some.inj ht
      rw [← ht]
      rfl
  | template =>
      obtain ht : TokenKind.templateStart = t.kind := Option.some.inj ht
      rw [← ht, hk rfl]
      rfl

theorem place_of_closing {b : Builder} {t : Token} {parent : OpenTree} {rest : List OpenTree}
    (ht : b.current.kind.closing? = some t.kind) (houter : b.outer = parent :: rest) :
    b.place t = .ok (b.closedDelimited t (t.markerBefore .levelEnd) parent rest) := by
  have hclosed : b.closeDelimited t = .ok _ :=
    closeDelimited_eq_ok_iff.mpr ⟨parent, rest, houter, rfl⟩
  unfold place
  rw [← hclosed]
  cases hk : b.current.kind with
  | root => rw [hk] at ht; cases ht
  | block => rw [hk] at ht; cases ht
  | wrapped =>
      rw [hk] at ht
      rw [← Option.some.inj ht]
  | string =>
      rw [hk] at ht
      rw [← Option.some.inj ht]
  | template =>
      rw [hk] at ht
      rw [← Option.some.inj ht]

@[simp] theorem grown_grown (b : Builder) (ns ms : List Node) (t u : Token) :
    (b.grown ns t).grown ms u = b.grown (ns ++ ms) u := by
  simp [grown]

theorem children_grown {b : Builder} (hb : b.current.children ≠ #[]) (ns : List Node) (t : Token) :
    (b.grown ns t).current.children ≠ #[] := by
  have hlist : b.current.children.toList ≠ [] := by simpa using hb
  simp [grown, OpenTree.extend, hlist]

/-- A builder that has entered a level, whose start marker stands where the next token does. -/
def entered (b : Builder) (k : TreeKind) (opening next : Token) : Builder :=
  { (b.openDelimited k opening).pushToken (next.markerBefore .levelStart) with previous := opening }

theorem children_entered (b : Builder) (k : TreeKind) (opening next : Token) :
    (b.entered k opening next).current.children ≠ #[] := by
  simp [entered, pushToken, pushNode, OpenTree.push]

/-- A level that is entered and closed again is a child of the level around it. -/
theorem closedDelimited_entered (b : Builder) (k : TreeKind) (opening next closing last : Token)
    (ns : List Node) :
    { ((b.entered k opening next).grown ns last).closedDelimited closing
        (closing.markerBefore .levelEnd) b.current b.outer with previous := closing } =
      b.grown [.tree k (some opening) (some closing) (Node.between next.pos closing.pos ns)]
        closing := by
  have hchild : (((b.entered k opening next).grown ns last).current.push
      (.token (closing.markerBefore .levelEnd))).close (some closing) =
      .tree k (some opening) (some closing) (Node.between next.pos closing.pos ns) := by
    simp [entered, grown, openDelimited, openLevel, pushToken, pushNode, OpenTree.push,
      OpenTree.extend, OpenTree.close, Node.between, Token.markerBefore]
  simp only [grown, ← OpenTree.push_eq_extend, ← hchild]
  simp [closedDelimited, closed, entered, openDelimited, openLevel, pushToken, pushNode]

/-! ### The leaves of a node -/

/-- The leaves of a node make it a child, with markers in all its trees. -/
def Takes (outer : TreeKind) (n : Node) : Prop :=
  ∀ b : Builder, b.indentBlocks = false → b.current.kind = outer → b.current.children ≠ #[] →
    ¬ (b.previous.kind = .stringValue ∧ n.tokenKind? = some .stringValue) →
    n.leaves.foldlM push b = .ok (b.grown [n.framed] (n.leaves.getLast?.getD b.previous))

/-- Of a complete node, the last leaf is a string value only if it is the node. -/
theorem exists_last {outer : TreeKind} {n : Node} (h : n.Complete outer) :
    ∃ last, n.leaves.getLast? = some last ∧
      (last.kind = .stringValue → n.tokenKind? = some .stringValue) := by
  cases h with
  | plain _ _ => exact ⟨_, rfl, fun h => congrArg some h⟩
  | value _ => exact ⟨_, rfl, fun h => congrArg some h⟩
  | @tree _ kind opening closing children _ _ hclosing _ _ =>
      refine ⟨closing, List.getLast?_concat, fun hvalue => ?_⟩
      rw [hvalue] at hclosing
      cases kind <;> cases hclosing

theorem foldlM_leavesAll {outer : TreeKind} {ns : List Node} {b : Builder}
    (hns : ∀ n ∈ ns, n.Complete outer ∧ Takes outer n) (hapart : ns.IsChain Node.Apart)
    (hb : b.indentBlocks = false) (hk : b.current.kind = outer)
    (hstart : b.current.children ≠ #[])
    (hfirst : b.previous.kind = .stringValue → ∀ n ∈ ns.head?, n.tokenKind? ≠ some .stringValue) :
    (Node.leavesAll ns).foldlM push b =
      .ok (b.grown (Node.framedAll ns) ((Node.leavesAll ns).getLast?.getD b.previous)) := by
  induction ns generalizing b with
  | nil =>
      show Except.ok b = _
      simp [grown, Node.framedAll, Node.leavesAll]
  | cons n ns ih =>
      obtain ⟨⟨hcomplete, htakes⟩, hns⟩ := List.forall_mem_cons.mp hns
      obtain ⟨hnext, hapart⟩ := List.isChain_cons.mp hapart
      obtain ⟨last, hlast, hvalue⟩ := exists_last hcomplete
      have hn : n.leaves.foldlM push b = .ok (b.grown [n.framed] last) := by
        rw [htakes b hb hk hstart fun h => hfirst h.1 n rfl h.2, hlast]
        rfl
      rw [Node.leavesAll, List.foldlM_append, hn]
      refine (ih hns hapart (b := b.grown [n.framed] last) hb hk
        (children_grown hstart _ _) ?_).trans ?_
      · intro hprevious m hm hm'
        exact hnext m hm ⟨hvalue hprevious, hm'⟩
      · rw [grown_grown, Node.framedAll, List.getLast?_append, hlast]
        cases (Node.leavesAll ns).getLast? <;> rfl

/-- Between its delimiters a tree is recovered from the leaves of its children. -/
theorem takes_tree {outer kind : TreeKind} {opening closing : Token} {children : List Node}
    (hholds : outer = .string ↔ kind = .template) (hopening : kind.opening? = some opening.kind)
    (hclosing : kind.closing? = some closing.kind)
    (hchildren : ∀ n ∈ children, n.Complete kind ∧ Takes kind n)
    (hapart : children.IsChain Node.Apart) :
    Takes outer (.tree kind (some opening) (some closing) children) := by
  intro b hb hk hstart _
  have hopens : opening.kind ≠ .stringValue := by
    intro h
    rw [h] at hopening
    cases kind <;> cases hopening
  have hcloses : closing.kind ≠ .stringValue := by
    intro h
    rw [h] at hclosing
    cases kind <;> cases hclosing
  obtain ⟨next, later, hnext⟩ : ∃ next later,
      Node.leavesAll children ++ [closing] = next :: later :=
    List.exists_cons_of_ne_nil (by simp)
  let inner := b.entered kind opening next
  obtain ⟨last, hall⟩ : ∃ last, (Node.leavesAll children).foldlM push inner =
      .ok (inner.grown (Node.framedAll children) last) :=
    ⟨_, foldlM_leavesAll hchildren hapart hb rfl (children_entered b kind opening next)
      fun h => absurd h hopens⟩
  have hlast : (opening :: (Node.leavesAll children ++ [closing])).getLast? = some closing :=
    List.getLast?_concat (l := opening :: Node.leavesAll children)
  -- The opening token, and the marker that comes with the token behind it.
  have hopen : b.push opening =
      .ok { b.openDelimited kind opening with previous := opening } := by
    rw [push_eq_place hb hstart fun h => hopens h.2,
      place_of_opening hopening fun h => hk.trans (hholds.mpr h)]
    rfl
  have hbegin : (Node.leavesAll children ++ [closing]).foldlM push
      { b.openDelimited kind opening with previous := opening } =
      (Node.leavesAll children ++ [closing]).foldlM push inner := by
    rw [hnext]
    exact foldlM_begin (b := { b.openDelimited kind opening with previous := opening }) hb rfl
      next later
  -- The closing token.
  have hclose : (inner.grown (Node.framedAll children) last).push closing =
      .ok (b.grown [.tree kind (some opening) (some closing)
        (Node.between next.pos closing.pos (Node.framedAll children))] closing) := by
    rw [push_eq_place (b := inner.grown _ last) hb
        (children_grown (children_entered b kind opening next) _ _) fun h => hcloses h.2,
      place_of_closing (b := inner.grown _ last) hclosing (show _ = b.current :: b.outer from rfl)]
    exact congrArg Except.ok (closedDelimited_entered b kind opening next closing last _)
  calc (Node.leaves (.tree kind (some opening) (some closing) children)).foldlM push b
    _ = (Node.leavesAll children ++ [closing]).foldlM push inner := by
      rw [Node.leaves, Option.toList_some, Option.toList_some, List.append_assoc,
        List.singleton_append, List.foldlM_cons, hopen, ← hbegin]
      rfl
    _ = (inner.grown (Node.framedAll children) last).push closing := by
      rw [List.foldlM_append, hall]
      exact bind_pure (m := Except BuildError) _
    _ = _ := by
      rw [hclose, Node.framed, Node.leaves, Option.toList_some, Option.toList_some,
        List.append_assoc, List.singleton_append, hlast, hnext]
      rfl

theorem takes_token {outer : TreeKind} {t : Token}
    (hplace : ∀ b : Builder, b.current.kind = outer → b.place t = .ok (b.pushToken t)) :
    Takes outer (.token t) := by
  intro b hb hk hstart hnew
  have hpush : b.push t = .ok (b.grown [.token t] t) := by
    rw [push_eq_place hb hstart fun h => hnew ⟨h.1, congrArg some h.2⟩, hplace b hk, grown,
      ← OpenTree.push_eq_extend]
    rfl
  calc (Node.leaves (.token t)).foldlM push b
    _ = b.push t := bind_pure _
    _ = _ := hpush

/-- Every complete node is recovered from its leaves. -/
theorem takes_of_complete {outer : TreeKind} {n : Node} (h : n.Complete outer) :
    Takes outer n := by
  induction h with
  | @plain outer t _ ht =>
      refine takes_token fun b _ => ?_
      unfold place
      cases hk : t.kind <;> first | rfl | (rw [hk] at ht; cases ht)
  | @value t ht =>
      refine takes_token fun b hk => ?_
      unfold place
      rw [ht, hk]
      rfl
  | tree hholds hopening hclosing hchildren hapart ih =>
      exact takes_tree hholds hopening hclosing (fun n hn => ⟨hchildren n hn, ih n hn⟩) hapart

end Builder

/-! ### Whole trees -/

/-- In a root no string value stands, so that no two of them are neighbours. -/
theorem Node.Complete.isChain {outer : TreeKind} (h : outer ≠ .string) {ns : List Node}
    (hns : ∀ n ∈ ns, n.Complete outer) : ns.IsChain Node.Apart := by
  have hkind : ∀ n ∈ ns, n.tokenKind? ≠ some .stringValue := by
    intro n hn hvalue
    cases hns n hn with
    | @plain _ t _ ht =>
        have hvalue : t.kind = .stringValue := Option.some.inj hvalue
        rw [hvalue] at ht
        cases ht
    | value _ => exact h rfl
    | tree _ _ _ _ _ => cases hvalue
  induction ns with
  | nil => exact .nil
  | cons n ns ih =>
      obtain ⟨hn, hrest⟩ := List.forall_mem_cons.mp hkind
      refine List.isChain_cons.mpr ⟨fun m _ hboth => hn hboth.1, ?_⟩
      exact ih (fun m hm => hns m (List.mem_cons_of_mem n hm)) hrest

theorem Builder.finish_of_root {b : Builder} (houter : b.outer = []) (hwaiting : b.waiting = []) :
    b.finish = .ok {
      kind := b.current.kind, opening := b.current.opening, closing := none
      children := b.current.children.toList ++ [.token (b.previous.markerAfter .levelEnd)] } := by
  obtain ⟨_, current, outer, _, _, _, _, _, waiting⟩ := b
  obtain rfl : outer = [] := houter
  obtain rfl : waiting = [] := hwaiting
  simp [finish, flush, closeAll, OpenTree.push, bind, Except.bind, pure, Except.pure]

/-- **Building inverts flattening.**  A tree in which every bracket, string and template was closed
by a token is recovered from its leaves: building without blocks succeeds and gives the same tree,
with the two markers in every tree. -/
theorem Tree.ofTokens_leaves {t : Tree} (h : t.Complete) :
    Tree.ofTokens { indentBlocks := false } t.toNode.leaves = .ok t.framed := by
  obtain ⟨kind, opening, closing, children⟩ := t
  obtain ⟨rfl, rfl, rfl, hchildren⟩ := h
  have hleaves : (Tree.toNode ⟨.root, none, none, children⟩).leaves = Node.leavesAll children := by
    simp [toNode, Node.leaves]
  have hrun := Builder.foldlM_leavesAll (b := .start { indentBlocks := false })
    (fun n hn => ⟨hchildren n hn, Builder.takes_of_complete (hchildren n hn)⟩)
    (Node.Complete.isChain (by decide) hchildren) rfl rfl (by simp [Builder.start])
    (by simp [Builder.start, Token.marker])
  have hend : ((Node.leavesAll children).getLast?.getD (.marker .levelStart {})).endPosition =
      (Node.leavesAll children).getLast?.elim {} Token.endPosition := by
    cases (Node.leavesAll children).getLast? <;> rfl
  unfold Tree.ofTokens
  rw [hleaves, hrun]
  refine (Builder.finish_of_root (b := (Builder.start _).grown _ _) rfl rfl).trans ?_
  rw [framed, Node.between, ← hend]
  simp [Builder.grown, OpenTree.extend, Builder.start, Token.markerAfter]

/-- A bracket after a symbol, with a string in it that has a template between two values. -/
def bracketedString : Tree :=
  let template : Node := .tree .template (some (.make .templateStart "$" ⟨4, 1, 5⟩))
    (some (.make .templateEnd "." ⟨8, 1, 9⟩))
    [.token (.make .symbol "y" ⟨5, 1, 6⟩),
     .tree .wrapped (some (.make .bracketLeft "[" ⟨6, 1, 7⟩))
       (some (.make .bracketRight "]" ⟨7, 1, 8⟩)) []]
  let string : Node := .tree .string (some (.make .stringStart "'" ⟨2, 1, 3⟩))
    (some (.make .stringEnd "'" ⟨10, 2, 1⟩))
    [.token (.make .stringValue "x" ⟨3, 1, 4⟩), template,
     .token (.make .stringValue "\n" ⟨9, 1, 10⟩)]
  { kind := .root, opening := none, closing := none
    children := [.token (.make .symbol "f" ⟨0, 1, 1⟩),
      .tree .wrapped (some (.make .bracketLeft "(" ⟨1, 1, 2⟩))
        (some (.make .bracketRight ")" ⟨11, 2, 2⟩)) [string]] }

/-- The leaves of the tree come back as that tree with ten markers. -/
theorem Tree.ofTokens_leaves_bracketedString :
    bracketedString.Complete ∧
    Tree.ofTokens { indentBlocks := false } bracketedString.toNode.leaves =
      .ok bracketedString.framed ∧
    (bracketedString.framed.toNode.leaves.map Token.value) =
      ["", "f", "(", "", "'", "", "x", "$", "", "y", "[", "", "", "]", "", ".", "\n", "", "'", "",
        ")", ""] := by
  have hcomplete : bracketedString.Complete := by
    refine ⟨rfl, rfl, rfl, List.forall_mem_cons.mpr ⟨.plain (by decide) rfl, ?_⟩⟩
    -- The bracket, the string in it, and the template in that.
    refine List.forall_mem_singleton.mpr (.tree (by decide) rfl rfl ?_ (.singleton _))
    refine List.forall_mem_singleton.mpr (.tree (by decide) rfl rfl ?_ ?_)
    · refine List.forall_mem_cons.mpr ⟨.value rfl, List.forall_mem_cons.mpr ⟨?_, ?_⟩⟩
      · refine .tree (by decide) rfl rfl (List.forall_mem_cons.mpr ⟨.plain (by decide) rfl, ?_⟩) ?_
        · exact List.forall_mem_singleton.mpr (.tree (by decide) rfl rfl nofun .nil)
        · exact .cons_cons (fun h => absurd h.2 nofun) (.singleton _)
      · exact List.forall_mem_singleton.mpr (.value rfl)
    · exact .cons_cons (fun h => absurd h.2 nofun)
        (.cons_cons (fun h => absurd h.1 nofun) (.singleton _))
  exact ⟨hcomplete, ofTokens_leaves hcomplete, by decide⟩

end Nesting
