import Nesting.Proofs.Tree.Indentation

/-! # Blank lines

Where a line starts, a line of blanks and comments can be inserted, and changes nothing but that its
tokens are in the tree (`Tree.agree_ofTokens_of_blankLine`).

`Node.Inserted` relates a node to the same one with tokens inserted in a row at one place in it.
Behind the inserted line a builder is where it was before it, but for the tokens of the line, which
are children of the innermost level (`Builder.AtStart.foldlM_line`).  From there on two builders go
side by side that differ in one level only (`Builder.agree_push`).  This works since a builder asks
of the children of a level no more than whether there are any, and whether the last one is a string
value that goes on; the inserted tokens are behind a child and end with no string value.

The two builders may differ in their latest token, if nothing follows the line.  That token gives
the end markers their places, so the trees are the same up to places. -/

namespace Nesting

theorem TokenKind.isTrivia_eq_false {k : TokenKind} (hnew : k ≠ .newline)
    (hblank : k ≠ .whitespace) (hcomment : k ≠ .comment) : k.isTrivia = false := by
  cases k with
  | newline => exact absurd rfl hnew
  | whitespace => exact absurd rfl hblank
  | comment => exact absurd rfl hcomment
  | _ => rfl

/-! ### Nodes without places -/

/-- A token without its place. -/
def Token.unpositioned (t : Token) : Token := { t with pos := {} }

theorem Token.unpositioned_markerAfter (t u : Token) (k : TokenKind) :
    (t.markerAfter k).unpositioned = (u.markerAfter k).unpositioned := rfl

namespace Node

mutual

/-- A node without the places of its tokens. -/
def unpositioned : Node → Node
  | .token t => .token t.unpositioned
  | .tree kind opening closing children =>
    .tree kind (opening.map Token.unpositioned) (closing.map Token.unpositioned)
      (unpositionedAll children)

/-- The same for neighbouring nodes. -/
def unpositionedAll : List Node → List Node
  | [] => []
  | n :: ns => unpositioned n :: unpositionedAll ns

end

theorem unpositionedAll_eq_map (ns : List Node) : unpositionedAll ns = ns.map unpositioned := by
  induction ns with
  | nil => rfl
  | cons n ns ih => rw [unpositionedAll, ih, List.map_cons]

/-! ### Inserted tokens -/

mutual

/-- The second node is the first one with some tokens inserted in a row, at one place in it behind
a child. -/
inductive Inserted (ts : List Token) : Node → Node → Prop
  | tree {kind opening closing ns ns'} : InsertedAll ts ns ns' →
      Inserted ts (.tree kind opening closing ns) (.tree kind opening closing ns')

/-- The same for neighbouring nodes. -/
inductive InsertedAll (ts : List Token) : List Node → List Node → Prop
  | here {ns ms} : ns ≠ [] → InsertedAll ts (ns ++ ms) (ns ++ ts.map .token ++ ms)
  | inside {ns n n' ms} : Inserted ts n n' → InsertedAll ts (ns ++ n :: ms) (ns ++ n' :: ms)

end

variable {ts : List Token} {ns ns' : List Node}

theorem InsertedAll.append (h : InsertedAll ts ns ns') (ms : List Node) :
    InsertedAll ts (ns ++ ms) (ns' ++ ms) := by
  cases h with
  | @here ns ls hns =>
      rw [List.append_assoc, List.append_assoc _ ls]
      exact .here hns
  | inside h =>
      rw [List.append_assoc, List.append_assoc]
      exact .inside h

theorem InsertedAll.ne_nil (h : InsertedAll ts ns ns') : ns ≠ [] ∧ ns' ≠ [] := by
  cases h with
  | here hns => simp [hns]
  | inside _ => simp

/-- A last token that is not inserted is the same one. -/
theorem InsertedAll.of_concat {n u u' : Token} (hn : u'.kind ≠ n.kind)
    (h : InsertedAll (ts ++ [n]) (ns ++ [.token u]) (ns' ++ [.token u'])) :
    u' = u ∧ InsertedAll (ts ++ [n]) ns ns' := by
  generalize hns : ns ++ [.token u] = ms at h
  generalize hns' : ns' ++ [.token u'] = ms' at h
  cases h with
  | @here ks ms hks =>
      rcases List.eq_nil_or_concat' ms with rfl | ⟨ms, m, rfl⟩
      · rw [List.append_nil, List.map_append, ← List.append_assoc] at hns'
        have hlast := List.singleton_inj.mp (List.append_inj' hns' rfl).2
        cases hlast
        exact absurd rfl hn
      · rw [← List.append_assoc] at hns hns'
        obtain ⟨rfl, hu⟩ := List.append_inj' hns rfl
        obtain ⟨rfl, hu'⟩ := List.append_inj' hns' rfl
        cases hu.trans hu'.symm
        exact ⟨rfl, .here hks⟩
  | @inside ks n n' ms hinside =>
      rcases List.eq_nil_or_concat' ms with rfl | ⟨ms, m, rfl⟩
      · cases List.singleton_inj.mp (List.append_inj' hns' rfl).2
        cases hinside
      · rw [← List.cons_append, ← List.append_assoc] at hns hns'
        obtain ⟨rfl, hu⟩ := List.append_inj' hns rfl
        obtain ⟨rfl, hu'⟩ := List.append_inj' hns' rfl
        cases hu.trans hu'.symm
        exact ⟨rfl, .inside hinside⟩

end Node

/-! ### Levels with inserted tokens -/

/-- A level into which tokens are inserted. -/
structure OpenTree.Inserted (ts : List Token) (t t' : OpenTree) : Prop where
  kind : t'.kind = t.kind
  opening : t'.opening = t.opening
  children : Node.InsertedAll ts t.children.toList t'.children.toList

namespace OpenTree

variable {ts : List Token} {t t' : OpenTree}

theorem Inserted.extend (h : t.Inserted ts t') (ns : List Node) :
    (t.extend ns).Inserted ts (t'.extend ns) :=
  ⟨h.kind, h.opening, h.children.append ns⟩

theorem Inserted.push (h : t.Inserted ts t') (n : Node) : (t.push n).Inserted ts (t'.push n) := by
  rw [push_eq_extend, push_eq_extend]
  exact h.extend [n]

theorem Inserted.close (h : t.Inserted ts t') (closing : Option Token) :
    (t.close closing).Inserted ts (t'.close closing) := by
  rw [OpenTree.close, OpenTree.close, h.kind, h.opening]
  exact .tree h.children

theorem inserted_push (t : OpenTree) {n n' : Node} (h : n.Inserted ts n') :
    (t.push n).Inserted ts (t.push n') := by
  refine ⟨rfl, rfl, ?_⟩
  rw [OpenTree.push, OpenTree.push, Array.toList_push, Array.toList_push]
  exact .inside h

/-- Levels that are the same up to the places of the tokens in them. -/
structure Alike (t t' : OpenTree) : Prop where
  kind : t'.kind = t.kind
  opening : t'.opening = t.opening
  children : Node.unpositionedAll t'.children.toList = Node.unpositionedAll t.children.toList

theorem alike_push (t : OpenTree) {n n' : Node} (h : n'.unpositioned = n.unpositioned) :
    (t.push n).Alike (t.push n') := by
  refine ⟨rfl, rfl, ?_⟩
  simp [push, Node.unpositionedAll_eq_map, h]

theorem Alike.push_token (h : t.Alike t') {u u' : Token} (hu : u'.unpositioned = u.unpositioned) :
    (t.push (.token u)).Alike (t'.push (.token u')) := by
  have hchildren := h.children
  rw [Node.unpositionedAll_eq_map, Node.unpositionedAll_eq_map] at hchildren
  refine ⟨h.kind, h.opening, ?_⟩
  simp [push, Node.unpositionedAll_eq_map, Node.unpositioned, hchildren, hu]

theorem Alike.isEmpty_eq (h : t.Alike t') : t'.children.isEmpty = t.children.isEmpty := by
  have hlength := congrArg List.length h.children
  rw [Node.unpositionedAll_eq_map, Node.unpositionedAll_eq_map, List.length_map, List.length_map,
    Array.length_toList, Array.length_toList] at hlength
  rw [Array.isEmpty, Array.isEmpty, hlength]

theorem Alike.unpositioned_close (h : t.Alike t') (closing : Option Token) :
    (t'.close closing).unpositioned = (t.close closing).unpositioned := by
  rw [close, close, Node.unpositioned, Node.unpositioned, h.kind, h.opening, h.children]

end OpenTree

namespace Builder

/-- Levels, the innermost first, with tokens inserted into one of them. -/
inductive LevelsInserted (ts : List Token) : List OpenTree → List OpenTree → Prop
  | here {t t' outer} : t.Inserted ts t' → LevelsInserted ts (t :: outer) (t' :: outer)
  | around {t outer outer'} : LevelsInserted ts outer outer' →
      LevelsInserted ts (t :: outer) (t :: outer')

variable {ts : List Token}

theorem LevelsInserted.map_kind_eq {levels levels' : List OpenTree}
    (h : LevelsInserted ts levels levels') :
    levels'.map OpenTree.kind = levels.map OpenTree.kind := by
  induction h with
  | here h => rw [List.map_cons, List.map_cons, h.kind]
  | around _ ih => rw [List.map_cons, List.map_cons, ih]

theorem LevelsInserted.extend {t t' : OpenTree} {outer outer' : List OpenTree}
    (h : LevelsInserted ts (t :: outer) (t' :: outer')) (ns : List Node) :
    LevelsInserted ts (t.extend ns :: outer) (t'.extend ns :: outer') := by
  cases h with
  | here h => exact .here (h.extend ns)
  | around h => exact .around h

theorem LevelsInserted.of_singleton {t t' : OpenTree} {outer' : List OpenTree}
    (h : LevelsInserted ts [t] (t' :: outer')) : outer' = [] ∧ t.Inserted ts t' := by
  cases h with
  | here h => exact ⟨rfl, h⟩
  | around h => cases h

/-- The innermost level is closed, and becomes a child of the one around it. -/
theorem LevelsInserted.close {t t' parent : OpenTree} {outer outer' : List OpenTree}
    (h : LevelsInserted ts (t :: parent :: outer) (t' :: outer')) (closing : Option Token)
    (marker : Token) :
    ∃ parent' rest, outer' = parent' :: rest ∧
      LevelsInserted ts (parent.push ((t.push (.token marker)).close closing) :: outer)
        (parent'.push ((t'.push (.token marker)).close closing) :: rest) := by
  cases h with
  | here h =>
      have hclosed := (h.push (.token marker)).close closing
      exact ⟨parent, outer, rfl, .here (parent.inserted_push hclosed)⟩
  | around h =>
      generalize hlevels : parent :: outer = levels at h
      cases h with
      | here h =>
          cases hlevels
          exact ⟨_, _, rfl, .here (h.push _)⟩
      | around h =>
          cases hlevels
          exact ⟨_, _, rfl, .around h⟩

/-- A builder with tokens inserted into one of its levels.  Its latest token may be another one, if
no string value goes on there. -/
inductive Inserted (ts : List Token) (b : Builder) : Builder → Prop
  | intro {current outer previous} :
      LevelsInserted ts (b.current :: b.outer) (current :: outer) →
      previous = b.previous ∨
        (b.previous.kind ≠ .stringValue ∧ previous.kind ≠ .stringValue) →
      Inserted ts b { b with current, outer, previous }

namespace Inserted

variable {b b' : Builder}

theorem levels (h : b.Inserted ts b') :
    LevelsInserted ts (b.current :: b.outer) (b'.current :: b'.outer) := by
  cases h with
  | intro hlevels _ => exact hlevels

theorem kind_eq (h : b.Inserted ts b') : b'.current.kind = b.current.kind :=
  (List.cons.inj h.levels.map_kind_eq).1

theorem nesting_eq (h : b.Inserted ts b') : b'.nesting = b.nesting := by
  cases h with
  | intro _ _ => rfl

theorem shaped (h : b.Inserted ts b') (hb : b.Shaped) : b'.Shaped := by
  cases h with
  | @intro current outer previous hlevels _ =>
      show Shape b.nesting b.indents ((current :: outer).map OpenTree.kind)
      rw [hlevels.map_kind_eq]
      exact hb

theorem value_iff (h : b.Inserted ts b') :
    b'.previous.kind = .stringValue ↔ b.previous.kind = .stringValue := by
  cases h with
  | intro _ hprevious =>
      rcases hprevious with rfl | ⟨h, h'⟩
      · exact Iff.rfl
      · exact iff_of_false h' h

theorem withIndent (h : b.Inserted ts b') (indent : String) :
    ({ b with indent } : Builder).Inserted ts { b' with indent } := by
  cases h with
  | intro hlevels hprevious => exact .intro hlevels hprevious

theorem withLineStart (h : b.Inserted ts b') (atLineStart : Bool) :
    ({ b with atLineStart } : Builder).Inserted ts { b' with atLineStart } := by
  cases h with
  | intro hlevels hprevious => exact .intro hlevels hprevious

theorem withIndents (h : b.Inserted ts b') (indents : List String) :
    ({ b with indents } : Builder).Inserted ts { b' with indents } := by
  cases h with
  | intro hlevels hprevious => exact .intro hlevels hprevious

theorem flush (h : b.Inserted ts b') : b.flush.Inserted ts b'.flush := by
  cases h with
  | @intro current outer previous hlevels hprevious =>
      have hflushed := hlevels.extend (b.waiting.map .token)
      rw [← current_flush] at hflushed
      rw [← current_flush { b with current, outer, previous }] at hflushed
      exact .intro hflushed hprevious

theorem pushToken (h : b.Inserted ts b') (t : Token) :
    (b.pushToken t).Inserted ts (b'.pushToken t) := by
  cases h with
  | intro hlevels hprevious =>
      have hpushed := hlevels.extend [.token t]
      rw [← OpenTree.push_eq_extend, ← OpenTree.push_eq_extend] at hpushed
      exact .intro hpushed hprevious

/-- A level into which tokens are inserted has a child. -/
theorem marks (h : b.Inserted ts b') (marker : Token) :
    (if b.current.children.isEmpty then b.pushToken marker else b).Inserted ts
      (if b'.current.children.isEmpty then b'.pushToken marker else b') := by
  have hlevels := h.levels
  have nonempty {children : Array Node} (hne : children.toList ≠ []) :
      ¬ children.isEmpty = true := fun h => hne (by simp [Array.isEmpty_iff.mp h])
  generalize b.outer = outer, b'.outer = outer' at hlevels
  generalize hc : b.current = c, hc' : b'.current = c' at hlevels
  cases hlevels with
  | here hc =>
      obtain ⟨hne, hne'⟩ := hc.children.ne_nil
      rw [if_neg (nonempty hne), if_neg (nonempty hne')]
      exact h
  | around _ =>
      split
      · exact h.pushToken marker
      · exact h

theorem begin (h : b.Inserted ts b') (t : Token) : (b.begin t).Inserted ts (b'.begin t) :=
  h.marks _

theorem openDelimited (h : b.Inserted ts b') (k : TreeKind) (t : Token) :
    (b.openDelimited k t).Inserted ts (b'.openDelimited k t) := by
  cases h with
  | intro hlevels hprevious => exact .intro (.around hlevels) hprevious

theorem openBlock (h : b.Inserted ts b') (t : Token) (indent : String) :
    (b.openBlock t indent).Inserted ts (b'.openBlock t indent) := by
  cases h with
  | intro hlevels hprevious => exact .intro (.around hlevels) hprevious

theorem closed (h : b.Inserted ts b') {parent : OpenTree} {rest : List OpenTree}
    (houter : b.outer = parent :: rest) (closing : Option Token) (marker : Token) :
    ∃ parent' rest', b'.outer = parent' :: rest' ∧
      (b.closed closing marker parent rest).Inserted ts
        (b'.closed closing marker parent' rest') := by
  cases h with
  | intro hlevels hprevious =>
      rw [houter] at hlevels
      obtain ⟨parent', rest', rfl, hclosed⟩ := hlevels.close closing marker
      exact ⟨parent', rest', rfl, .intro hclosed hprevious⟩

theorem closedDelimited (h : b.Inserted ts b') {parent : OpenTree} {rest : List OpenTree}
    (houter : b.outer = parent :: rest) (closing marker : Token) :
    ∃ parent' rest', b'.outer = parent' :: rest' ∧
      (b.closedDelimited closing marker parent rest).Inserted ts
        (b'.closedDelimited closing marker parent' rest') := by
  cases h with
  | intro hlevels hprevious =>
      rw [houter] at hlevels
      obtain ⟨parent', rest', rfl, hclosed⟩ := hlevels.close (some closing) marker
      exact ⟨parent', rest', rfl, .intro hclosed hprevious⟩

end Inserted

theorem agree_closeLevel {b b' : Builder} (h : b.Inserted ts b') (closing : Option Token)
    (marker : Token) :
    Agree (Inserted ts) (b.closeLevel closing marker) (b'.closeLevel closing marker) := by
  cases houter : b.outer with
  | nil =>
      have hlevels := h.levels
      rw [houter] at hlevels
      unfold closeLevel
      rw [houter, hlevels.of_singleton.1]
      exact .error _
  | cons parent rest =>
      obtain ⟨parent', rest', houter', hclosed⟩ := h.closed houter closing marker
      rw [closeLevel_eq_ok_iff.mpr ⟨parent, rest, houter, rfl⟩,
        closeLevel_eq_ok_iff.mpr ⟨parent', rest', houter', rfl⟩]
      exact .ok hclosed

theorem agree_closeBlocks {b b' : Builder} (h : b.Inserted ts b') (t : Token) (indent : String)
    (indents : List String) :
    Agree (Inserted ts) (closeBlocks t indent indents b) (closeBlocks t indent indents b') := by
  induction indents generalizing b b' with
  | nil => exact .ok (h.withIndents [])
  | cons top rest ih =>
      rw [closeBlocks, closeBlocks]
      split
      · exact (agree_closeLevel h none _).bind fun _ _ h => ih h
      · exact .ok (h.withIndents (top :: rest))

theorem agree_resolveIndent {b b' : Builder} (h : b.Inserted ts b') (hb : b.Shaped)
    (hn : b.nesting = 0) (t : Token) :
    Agree (Inserted ts) (b.resolveIndent t) (b'.resolveIndent t) := by
  have hcleared := h.withIndent ""
  have htop {b b' : Builder} (h : b.Inserted ts b') : b'.topIndent = b.topIndent := by
    cases h with
    | intro _ _ => rfl
  rw [resolveIndent_eq hb hn, resolveIndent_eq (h.shaped hb) (h.nesting_eq.trans hn), htop h]
  cases h with
  | intro _ _ =>
      dsimp only at hcleared ⊢
      split
      · refine (agree_closeBlocks hcleared t _ _).bind fun b₁ b₁' h₁ => .ok ?_
        rw [htop h₁]
        split
        · exact h₁.flush
        · exact h₁.openBlock t _
      · exact .error _

/-! ### Placing a token -/

/-- Tokens are inserted where the token is not placed, and it is placed alike. -/
theorem Placed.inserted {b b₁ b' : Builder} {t : Token} (h : Placed t b b₁)
    (hins : b.Inserted ts b') : ∃ b₁', Placed t b' b₁' ∧ b₁.Inserted ts b₁' := by
  induction h generalizing b' with
  | opens hopens hstring =>
      refine ⟨_, .opens hopens fun hk => ?_, hins.openDelimited _ t⟩
      rw [hins.kind_eq]
      exact hstring hk
  | closes hcloses houter =>
      obtain ⟨parent', rest', houter', hclosed⟩ := hins.closedDelimited houter t
        (t.markerBefore .levelEnd)
      exact ⟨_, .closes (hins.kind_eq ▸ hcloses) houter', hclosed⟩
  | child hopens hcloses hleaves =>
      refine ⟨_, .child ?_ ?_ ?_, hins.pushToken t⟩ <;> rw [hins.kind_eq] <;> assumption
  | escapes hk hleaves houter _ ih =>
      obtain ⟨parent', rest', houter', hclosed⟩ := hins.closedDelimited houter
        (t.markerBefore .templateEnd) (t.markerBefore .levelEnd)
      obtain ⟨b₁', hplaced, hins₁⟩ := ih hclosed
      exact ⟨b₁', .escapes (hins.kind_eq.trans hk) hleaves houter' hplaced, hins₁⟩

theorem agree_place {b b' : Builder} (h : b.Inserted ts b') (hb : b.Shaped) (t : Token) :
    Agree (Inserted ts) (b.place t) (b'.place t) := by
  obtain ⟨b₁, hplace⟩ := exists_place hb t
  obtain ⟨b₁', hplaced, h₁⟩ := (placed_of_place hb hplace).inserted h
  rw [hplace, place_of_placed (h.shaped hb) hplaced]
  exact .ok h₁

variable {n : Token}

/-- A last child that is not inserted is the same one. -/
theorem LevelsInserted.replace_last {t t' : OpenTree} {outer outer' : List OpenTree}
    (h : LevelsInserted (ts ++ [n]) (t :: outer) (t' :: outer')) {children children' : Array Node}
    {u u' : Token} (hchildren : t.children = children.push (.token u))
    (hchildren' : t'.children = children'.push (.token u')) (hn : u'.kind ≠ n.kind) :
    u' = u ∧ ∀ x : Node, LevelsInserted (ts ++ [n])
      ({ t with children := children.push x } :: outer)
      ({ t' with children := children'.push x } :: outer') := by
  cases h with
  | here h =>
      have hall := h.children
      rw [hchildren, hchildren', Array.toList_push, Array.toList_push] at hall
      obtain ⟨rfl, hrest⟩ := hall.of_concat hn
      refine ⟨rfl, fun x => .here ⟨h.kind, h.opening, ?_⟩⟩
      rw [Array.toList_push, Array.toList_push]
      exact hrest.append [x]
  | around h =>
      obtain ⟨hu, rfl⟩ := Array.push_eq_push.mp (hchildren.symm.trans hchildren')
      cases hu
      exact ⟨rfl, fun x => .around h⟩

/-- Where a string value goes on, the last child is one. -/
def EndsInValue (b : Builder) : Prop :=
  b.previous.kind = .stringValue → ∃ (children : Array Node) (last : Token),
    b.current.children = children.push (.token last) ∧ last.kind = .stringValue

theorem Inserted.coalesce {b b' : Builder} (h : b.Inserted (ts ++ [n]) b')
    (hn : n.kind ≠ .stringValue) (hb : b.EndsInValue) (hb' : b'.EndsInValue)
    (hprev : b.previous.kind = .stringValue) (t : Token) :
    (b.coalesce t).Inserted (ts ++ [n]) (b'.coalesce t) := by
  obtain ⟨children, last, hchildren, hlast⟩ := hb hprev
  obtain ⟨children', last', hchildren', hlast'⟩ := hb' (h.value_iff.mpr hprev)
  rw [coalesce_of_back hchildren hlast, coalesce_of_back hchildren' hlast']
  obtain ⟨rfl, hlevels⟩ := h.levels.replace_last hchildren hchildren' (hlast' ▸ hn.symm)
  cases h with
  | intro _ _ => exact .intro (hlevels _) (.inl rfl)

theorem agree_accept {b b' : Builder} (h : b.Inserted (ts ++ [n]) b') (hn : n.kind ≠ .stringValue)
    (hb : b.Shaped) {t : Token} (hvalue : t.kind = .stringValue → b.EndsInValue)
    (hvalue' : t.kind = .stringValue → b'.EndsInValue) :
    Agree (Inserted (ts ++ [n])) (b.accept t) (b'.accept t) := by
  unfold accept
  have hvalues : decide (b'.previous.kind = .stringValue) =
      decide (b.previous.kind = .stringValue) := decide_eq_decide.mpr h.value_iff
  rw [h.kind_eq, hvalues]
  split
  · next hmerge =>
    simp only [Bool.and_eq_true, decide_eq_true_eq] at hmerge
    exact .ok (h.coalesce hn (hvalue hmerge.1.1) (hvalue' hmerge.1.1) hmerge.2 t)
  · refine (agree_place h hb t).bind fun b₁ b₁' h₁ => .ok ?_
    cases h₁ with
    | intro hlevels _ => exact .intro hlevels (.inl rfl)

/-! ### Taking a token -/

theorem Accounted.endsInValue {b : Builder} {us : List Token} (hb : b.Accounted us) :
    b.EndsInValue := by
  intro hprev
  obtain ⟨-, -, children, -, last, hchildren, hlast, -⟩ := hb.value hprev
  exact ⟨children, last, hchildren, hlast⟩

theorem agree_push {b b' : Builder} (h : b.Inserted (ts ++ [n]) b') (hn : n.kind ≠ .stringValue)
    {us us' : List Token} (hb : b.Accounted us) (hb' : b'.Accounted us') (t : Token) :
    Agree (Inserted (ts ++ [n])) (b.push t) (b'.push t) := by
  have h₀ := h.begin t
  have hb₀ := hb.begin t
  have hb₀' := hb'.begin t
  unfold push
  generalize b.begin t = b₀ at h₀ hb₀
  generalize b'.begin t = b₀' at h₀ hb₀'
  have hflush := h₀.flush
  have hgoesOn := agree_accept h₀ hn hb₀.shaped (t := t) (fun _ => hb₀.endsInValue)
    (fun _ => hb₀'.endsInValue)
  have hresolve := fun hzero => (agree_resolveIndent h₀ hb₀.shaped hzero t).with_eq
  have hvalue := h₀.value_iff
  cases h₀ with
  | intro hlevels hprevious =>
      dsimp only at hvalue ⊢
      split
      · next hblocks =>
        obtain ⟨hi, hzero⟩ := Bool.and_eq_true_iff.mp hblocks
        have hzero : b₀.nesting = 0 := of_decide_eq_true hzero
        split
        · next ht =>
          exact agree_accept ((hflush.withIndent "").withLineStart true) hn hb₀.shaped
            (by simp [ht]) (by simp [ht])
        · exact .ok (.intro hlevels (.inl rfl))
        · next ht hl =>
          exact agree_accept (hflush.withIndent "") hn hb₀.shaped (by simp [ht])
            (by simp [ht])
        · next hl hnew hblank hcomment =>
          have ht := TokenKind.isTrivia_eq_false hnew hblank hcomment
          refine (hresolve hzero).bind fun b₁ b₁' ⟨h₁, hok, hok'⟩ => ?_
          have hlaid := laid_of_resolveIndent hb₀.shaped hi hzero hl ht hok
          have hprev : b₁.previous.kind ≠ .stringValue := by
            have hframe : b₁.previous = b₀.previous := by
              obtain ⟨_, _, _, _, _, _, hframe⟩ := hlaid.frame
              exact (congrArg Builder.previous hframe :)
            rw [hframe]
            exact hb₀.previous_ne hi hl
          have hprev' : b₁'.previous.kind ≠ .stringValue := fun h => hprev (h₁.value_iff.mp h)
          exact agree_accept (h₁.withLineStart false) hn (hlaid.shaped hb₀.shaped)
            (fun _ h => absurd h hprev) (fun _ h => absurd h hprev')
        · exact hgoesOn
      · exact hgoesOn

theorem agree_foldlM {b b' : Builder} (h : b.Inserted (ts ++ [n]) b') (hn : n.kind ≠ .stringValue)
    {us us' : List Token} (hb : b.Accounted us) (hb' : b'.Accounted us') (later : List Token) :
    Agree (Inserted (ts ++ [n])) (later.foldlM push b) (later.foldlM push b') := by
  induction later generalizing b b' us us' with
  | nil => exact .ok h
  | cons t later ih =>
      rw [List.foldlM_cons, List.foldlM_cons]
      refine (agree_push h hn hb hb' t).with_eq.bind fun b₁ b₁' ⟨h₁, hpush, hpush'⟩ => ?_
      exact ih h₁ ((step_of_push hb.shaped hpush).accounted hb)
        ((step_of_push hb'.shaped hpush').accounted hb')

/-! ### The end -/

theorem closeAll_cons {b : Builder} {parent : OpenTree} {rest : List OpenTree}
    (houter : b.outer = parent :: rest) :
    closeAll (parent :: rest) b =
      closeAll rest
        ((if b.current.children.isEmpty then b.pushToken (b.previous.markerAfter .levelStart)
          else b).closed none (b.previous.markerAfter .levelEnd) parent rest) := by
  rw [closeAll]
  generalize hb₀ : (if b.current.children.isEmpty then
    b.pushToken (b.previous.markerAfter .levelStart) else b) = b₀
  have hkeeps : b₀.outer = b.outer ∧ b₀.previous = b.previous := by
    rw [← hb₀]
    split <;> exact ⟨rfl, rfl⟩
  rw [hkeeps.2, closeLevel_eq_ok_iff.mpr ⟨parent, rest, hkeeps.1.trans houter, rfl⟩]
  rfl

theorem agree_closeAll {outer : List OpenTree} {b b' : Builder} (h : b.Inserted ts b')
    (hprev : b'.previous = b.previous) (houter : b.outer = outer) :
    Agree (fun r r' => r.current.Inserted ts r'.current ∧ r'.previous = r.previous)
      (closeAll outer b) (closeAll b'.outer b') := by
  induction outer generalizing b b' with
  | nil =>
      have hlevels := h.levels
      rw [houter] at hlevels
      rw [hlevels.of_singleton.1]
      exact .ok ⟨hlevels.of_singleton.2, hprev⟩
  | cons parent rest ih =>
      have hmarks := h.marks (b.previous.markerAfter .levelStart)
      have hkeeps {b : Builder} (marker : Token) :
          (if b.current.children.isEmpty then b.pushToken marker else b).outer = b.outer ∧
          (if b.current.children.isEmpty then b.pushToken marker else b).previous =
            b.previous := by
        split <;> exact ⟨rfl, rfl⟩
      obtain ⟨parent', rest', houter', hclosed⟩ := hmarks.closed ((hkeeps _).1.trans houter) none
        (b.previous.markerAfter .levelEnd)
      rw [(hkeeps _).1] at houter'
      rw [houter', closeAll_cons houter, closeAll_cons houter', hprev]
      exact ih hclosed ((hkeeps _).2.trans (hprev.trans (hkeeps _).2.symm)) rfl

/-- Which token is the latest one only matters for the places of the markers. -/
theorem agree_closeAll_of_alike {outer : List OpenTree} {b b' : Builder}
    (h : b.current.Alike b'.current) (houter : b.outer = outer) (houter' : b'.outer = outer) :
    Agree (fun r r' => r.current.Alike r'.current) (closeAll outer b) (closeAll outer b') := by
  induction outer generalizing b b' with
  | nil => exact .ok h
  | cons parent rest ih =>
      rw [closeAll_cons houter, closeAll_cons houter']
      refine ih ?_ rfl rfl
      refine OpenTree.alike_push parent (OpenTree.Alike.unpositioned_close ?_ none)
      refine OpenTree.Alike.push_token ?_ (Token.unpositioned_markerAfter _ _ _)
      rw [h.isEmpty_eq]
      split
      · exact h.push_token (Token.unpositioned_markerAfter _ _ _)
      · exact h

theorem agree_finish {b b' : Builder} (h : b.Inserted ts b') :
    Agree (fun s t => ∃ s₁ : Node, s₁.Inserted ts t.toNode ∧
      s₁.unpositioned = s.toNode.unpositioned) b.finish b'.finish := by
  have h₁ : ({ b with previous := b'.previous } : Builder).Inserted ts b' := by
    cases h with
    | intro hlevels _ => exact .intro hlevels (.inl rfl)
  generalize hb₁ : ({ b with previous := b'.previous } : Builder) = b₁ at h₁
  have hprev : b'.previous = b₁.previous := by rw [← hb₁]
  have halike : b.flush.current.Alike b₁.flush.current ∧ b₁.flush.outer = b.flush.outer := by
    rw [← hb₁]
    exact ⟨⟨rfl, rfl, rfl⟩, rfl⟩
  obtain ⟨r, hr⟩ := exists_closeAll (b := b.flush) rfl
  obtain ⟨r₁, hr₁⟩ := exists_closeAll (b := b₁.flush) rfl
  obtain ⟨r', hr'⟩ := exists_closeAll (b := b'.flush) rfl
  have hends := agree_closeAll h₁.flush hprev rfl
  have hplaces := agree_closeAll_of_alike halike.1 rfl halike.2
  rw [hr₁, hr'] at hends
  rw [hr, ← halike.2, hr₁] at hplaces
  unfold finish
  dsimp only
  rw [hr, hr']
  refine .ok ⟨(r₁.current.push (.token (r₁.previous.markerAfter .levelEnd))).close none, ?_, ?_⟩
  · obtain ⟨hinserted, hlast⟩ := hends.of_ok
    rw [← hlast]
    exact (hinserted.push _).close none
  · exact (hplaces.of_ok.push_token (Token.unpositioned_markerAfter _ _ _)).unpositioned_close none

/-! ### A blank line -/

theorem accept_of_layout {b : Builder} {t : Token} (ht : t.kind = .newline ∨ t.kind = .comment) :
    b.accept t = .ok { b.pushToken t with previous := t } := by
  have hplace : b.place t = .ok (b.pushToken t) := by
    unfold place
    rcases ht with ht | ht <;> rw [ht] <;> rfl
  unfold accept
  rw [if_neg (by rcases ht with ht | ht <;> simp [ht]), hplace]
  rfl

theorem AtStart.push_whitespace {b : Builder} (h : b.AtStart) {t : Token}
    (ht : t.kind = .whitespace) :
    b.push t = .ok { b with
      indent := b.indent ++ t.value, waiting := b.waiting ++ [t], previous := t } := by
  unfold push
  rw [h.begin_eq]
  dsimp only
  rw [if_pos (by simp [h.blocks, h.nesting]), ht, h.line]
  rfl

theorem AtStart.extend {b : Builder} (h : b.AtStart) (placed waiting : List Token)
    (indent : String) {previous : Token} (hprev : previous.kind ≠ .stringValue) :
    AtStart { b with
      current := b.current.extend (placed.map .token), waiting, indent, previous } :=
  ⟨h.shaped, h.blocks, h.nesting, h.line, h.current.extend _, hprev⟩

theorem current_flush_push (b : Builder) (t : Token) :
    b.flush.current.push (.token t) = b.current.extend ((b.waiting ++ [t]).map .token) := by
  rw [current_flush, OpenTree.push_eq_extend, OpenTree.extend_extend, List.map_append]
  rfl

theorem AtStart.push_comment {b : Builder} (h : b.AtStart) {t : Token} (ht : t.kind = .comment) :
    b.push t = .ok { b with
      current := b.current.extend ((b.waiting ++ [t]).map .token), indent := "", waiting := [],
      previous := t } := by
  have haccept :=
    accept_of_layout (b := { b.flush with indent := "", atLineStart := true }) (.inr ht)
  have hline : b.flush.atLineStart = true := h.line
  unfold push
  rw [h.begin_eq]
  dsimp only
  rw [if_pos (by simp [h.blocks, h.nesting]), ht, h.line, ← current_flush_push, hline]
  exact haccept

theorem AtStart.push_newline {b : Builder} (h : b.AtStart) {t : Token} (ht : t.kind = .newline) :
    b.push t = .ok { b with
      current := b.current.extend ((b.waiting ++ [t]).map .token), indent := "", waiting := [],
      previous := t } := by
  have haccept :=
    accept_of_layout (b := { b.flush with indent := "", atLineStart := true }) (.inl ht)
  unfold push
  rw [h.begin_eq]
  dsimp only
  rw [if_pos (by simp [h.blocks, h.nesting]), ht, h.line, ← current_flush_push]
  exact haccept

/-- Of a gap, some tokens are children of the level, and the blanks behind them wait. -/
theorem AtStart.foldlM_gap {b : Builder} (h : b.AtStart) (hw : b.waiting = []) {gap : List Token}
    (hgap : IsGap gap) :
    ∃ placed waiting indent previous, placed ++ waiting = gap ∧
      previous.kind ≠ .stringValue ∧
      gap.foldlM push b = .ok { b with
        current := b.current.extend (placed.map .token), waiting, indent, previous } := by
  induction gap using List.reverseRecOn with
  | nil =>
      refine ⟨[], [], b.indent, b.previous, rfl, h.previous, ?_⟩
      rw [List.map_nil, OpenTree.extend_nil]
      show Except.ok b = _
      rw [← hw]
  | append_singleton gap t ih =>
      obtain ⟨hgap, ht⟩ := List.forall_mem_append.mp hgap
      obtain ⟨placed, waiting, indent, previous, hsplit, hprev, hrun⟩ := ih hgap
      have h₁ := h.extend placed waiting indent hprev
      rcases List.forall_mem_singleton.mp ht with ht | ht
      · refine ⟨placed, waiting ++ [t], indent ++ t.value, t, ?_, by simp [ht], ?_⟩
        · rw [← hsplit, List.append_assoc]
        · exact foldlM_concat_eq_ok_iff.mpr ⟨_, hrun, h₁.push_whitespace ht⟩
      · refine ⟨gap ++ [t], [], "", t, List.append_nil _, by simp [ht], ?_⟩
        refine foldlM_concat_eq_ok_iff.mpr ⟨_, hrun, (h₁.push_comment ht).trans ?_⟩
        dsimp only
        rw [OpenTree.extend_extend, ← List.map_append, ← List.append_assoc, hsplit]

/-- A blank line only adds its tokens to the innermost level. -/
theorem AtStart.foldlM_line {b : Builder} (h : b.AtStart) (hw : b.waiting = [])
    (hindent : b.indent = "") {gap : List Token} (hgap : IsGap gap) {n : Token}
    (hn : n.kind = .newline) :
    (gap ++ [n]).foldlM push b = .ok { b with
      current := b.current.extend ((gap ++ [n]).map .token), previous := n } := by
  obtain ⟨placed, waiting, indent, previous, hsplit, hprev, hrun⟩ := h.foldlM_gap hw hgap
  have h₁ := h.extend placed waiting indent hprev
  refine foldlM_concat_eq_ok_iff.mpr ⟨_, hrun, (h₁.push_newline hn).trans ?_⟩
  dsimp only
  rw [OpenTree.extend_extend, ← List.map_append, ← List.append_assoc, hsplit, ← hindent, ← hw]

/-- Blanks wait behind blanks only. -/
theorem Step.waiting_eq_nil {b b' : Builder} {t : Token} {us : List Token} (h : Step t b b')
    (hb : b.Accounted us) (ht : t.kind ≠ .whitespace) : b'.waiting = [] := by
  have hb₀ := hb.begin t
  cases h with
  | waits _ _ _ _ hblank => exact absurd hblank ht
  | @merges b₁ hlaid _ _ _ =>
      obtain ⟨_, _, hcoalesce⟩ := b₁.coalesce_eq t
      rw [hcoalesce]
      exact hlaid.waiting_eq_nil hb₀.waits hb₀.line
  | places hlaid _ _ hplaced =>
      obtain ⟨_, _, _, rfl⟩ := hplaced.frame
      exact hlaid.waiting_eq_nil hb₀.waits hb₀.line

theorem waiting_of_lineStart {layout : Layout} {b : Builder} {head : List Token}
    (hstart : LineStart layout head) (hrun : head.foldlM push (start layout) = .ok b) :
    b.waiting = [] := by
  rcases hstart with rfl | ⟨earlier, n, -, rfl, hn, -⟩
  · cases hrun
    rfl
  · obtain ⟨b₀, hrun₀, hpush⟩ := foldlM_concat_eq_ok_iff.mp hrun
    have hb₀ := accounted_of_foldlM hrun₀
    exact (step_of_push hb₀.shaped hpush).waiting_eq_nil hb₀ (by simp [hn])

/-- Tokens that are added behind a child. -/
theorem inserted_extend {b : Builder} {t : OpenTree} (hcurrent : b.current = t)
    (hstart : t.HasStart) (ts : List Token) {previous : Token}
    (hprev : b.previous.kind ≠ .stringValue) (hprev' : previous.kind ≠ .stringValue) :
    b.Inserted ts { b with current := t.extend (ts.map .token), previous } := by
  subst hcurrent
  refine .intro (.here ⟨rfl, rfl, ?_⟩) (.inr ⟨hprev, hprev'⟩)
  obtain ⟨m, ns, hchildren, -⟩ := hstart
  have hne : b.current.children.toList ≠ [] := by simp [hchildren]
  have hhere : Node.InsertedAll ts (b.current.children.toList ++ [])
      (b.current.children.toList ++ ts.map .token ++ []) := .here hne
  rwa [List.append_nil, List.append_nil] at hhere

theorem inserted_of_line {layout : Layout} (hlayout : layout.indentBlocks) {b : Builder}
    {head gap : List Token} {n : Token} (hstart : LineStart layout head) (hgap : IsGap gap)
    (hn : n.kind = .newline) (hrun : head.foldlM push (start layout) = .ok b) :
    ∃ b', (gap ++ [n]).foldlM push b = .ok b' ∧ b.Inserted (gap ++ [n]) b' := by
  have hnone : IsGap [] := nofun
  rw [← List.append_nil head] at hrun
  obtain ⟨hl, hindent⟩ := indent_of_lineStart hlayout hstart hnone hrun
  rw [List.append_nil] at hrun
  have hb := atStart_of_foldlM hlayout hrun hl
  have hline := hb.foldlM_line (waiting_of_lineStart hstart hrun) hindent hgap hn
  exact ⟨_, hline, inserted_extend rfl hb.current (gap ++ [n]) hb.previous (by simp [hn])⟩

end Builder

/-- **Blank lines do not matter for blocks.**  Let blocks be made, and let a line start behind some
tokens.  If a line of blanks and comments is inserted there, then building fails as without it, or
the tree is the one without it, with the tokens of the line inserted in a row, up to the places of
tokens. -/
theorem Tree.agree_ofTokens_of_blankLine {layout : Layout} (hlayout : layout.indentBlocks)
    {head gap later : List Token} {n : Token} (hstart : Builder.LineStart layout head)
    (hgap : IsGap gap) (hn : n.kind = .newline) :
    Agree (fun s t => ∃ s₁ : Node, s₁.Inserted (gap ++ [n]) t.toNode ∧
        s₁.unpositioned = s.toNode.unpositioned)
      (Tree.ofTokens layout (head ++ later))
      (Tree.ofTokens layout (head ++ (gap ++ [n]) ++ later)) := by
  unfold Tree.ofTokens
  cases hrun : head.foldlM Builder.push (.start layout) with
  | error e =>
      rw [List.append_assoc, List.foldlM_append, List.foldlM_append, hrun]
      exact .error e
  | ok b =>
      obtain ⟨b', hline, hinserted⟩ := Builder.inserted_of_line hlayout hstart hgap hn hrun
      have hrun' : (head ++ (gap ++ [n])).foldlM Builder.push (.start layout) = .ok b' := by
        rw [List.foldlM_append, hrun]
        exact hline
      have hlater := Builder.agree_foldlM hinserted (by simp [hn])
        (Builder.accounted_of_foldlM hrun) (Builder.accounted_of_foldlM hrun') later
      rw [List.foldlM_append, List.foldlM_append, hrun, hrun']
      exact hlater.bind fun _ _ h => Builder.agree_finish h

/-- A line with nothing but a comment. -/
def commentedLine : List Token := Builder.commentedGap ++ [.make .newline "\n" ⟨17, 4, 6⟩]

/-- A line that is indented as the second of three lines before it. -/
def outdentedLine : List Token :=
  [.make .whitespace "  " ⟨18, 5, 1⟩, .make .symbol "d" ⟨20, 5, 3⟩]

/-- The line with the comment is less indented than the block that it is in, and stands in front of
a line that closes the block. -/
theorem Tree.agree_ofTokens_of_blankLine_commentedLine :
    ∃ s t : Tree,
      Builder.LineStart { indentBlocks := true } Builder.deepeningLines ∧
      IsGap Builder.commentedGap ∧ (Token.make .newline "\n" ⟨17, 4, 6⟩).kind = .newline ∧
      Tree.ofTokens { indentBlocks := true } (Builder.deepeningLines ++ outdentedLine) = .ok s ∧
      Tree.ofTokens { indentBlocks := true }
        (Builder.deepeningLines ++ commentedLine ++ outdentedLine) = .ok t ∧
      s.text = "a\n  b\n    c\n  d" ∧ t.text = "a\n  b\n    c\n #   \n  d" ∧
      ∃ s₁ : Node, s₁.Inserted commentedLine t.toNode ∧
        s₁.unpositioned = s.toNode.unpositioned := by
  have hstart : Builder.LineStart { indentBlocks := true } Builder.deepeningLines :=
    .inr ⟨Builder.deepeningLines.dropLast, .make .newline "\n" ⟨11, 3, 6⟩, _, rfl, rfl, rfl, rfl⟩
  have hgap : IsGap Builder.commentedGap := by decide
  have hn : (Token.make .newline "\n" ⟨17, 4, 6⟩).kind = .newline := rfl
  have htexts : Tree.text <$> Tree.ofTokens { indentBlocks := true }
        (Builder.deepeningLines ++ outdentedLine) = .ok "a\n  b\n    c\n  d" ∧
      Tree.text <$> Tree.ofTokens { indentBlocks := true }
        (Builder.deepeningLines ++ commentedLine ++ outdentedLine) =
          .ok "a\n  b\n    c\n #   \n  d" := by
    decide +kernel
  obtain ⟨s, hs, hstext⟩ := map_eq_ok_iff.mp htexts.1
  obtain ⟨t, ht, httext⟩ := map_eq_ok_iff.mp htexts.2
  have hagree : Agree _ (Tree.ofTokens { indentBlocks := true }
      (Builder.deepeningLines ++ outdentedLine))
      (Tree.ofTokens { indentBlocks := true }
        (Builder.deepeningLines ++ commentedLine ++ outdentedLine)) :=
    Tree.agree_ofTokens_of_blankLine rfl hstart hgap hn
  rw [hs, ht] at hagree
  exact ⟨s, t, hstart, hgap, hn, hs, ht, hstext, httext, hagree.of_ok⟩

end Nesting
