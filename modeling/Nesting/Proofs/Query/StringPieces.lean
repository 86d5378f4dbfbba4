import Nesting.Proofs.Cursor.Identity
import Nesting.Proofs.Query.Single
import Nesting.Proofs.Tree.Coverage
import Nesting.Proofs.Tree.ForceClosed

/-! # String steps and the text of a string

The lexer cuts the text of a string into many tokens, while string steps look at the children of a
string one to one.  The two fit together, because a tree holds each run of string values as one
child.

A string whose content is text and templates is cut into pieces (`Tree.CutInto`): the tokens between
its delimiters are those of the pieces, in their order, and the pieces are its children.  That the
tokens are all there follows from what the string was built of (`Tree.WellFormed.exists_pieces`),
and a step for the pieces of a string matches exactly if its own pieces stand at them
(`Part.matchAll_iff`). -/

namespace Nesting

/-! ### The content of a string -/

/-- A piece of the content of a string, with the tokens that it was built of. -/
inductive StringPiece
  /-- A run of string values; one token stands for it. -/
  | text (token : Token) (run : List Token)
  /-- A template. -/
  | template (tree : Tree) (part : List Token)

namespace StringPiece

/-- The child of the string that a piece is. -/
def node : StringPiece → Node
  | text token _ => .token token
  | template tree _ => tree.toNode

/-- The tokens of a piece. -/
def tokens : StringPiece → List Token
  | text _ run => run
  | template _ part => part

/-- The text of a run; a template has none. -/
def value : StringPiece → String
  | text _ run => String.join (run.map Token.value)
  | template .. => ""

/-- A run of string values. -/
def isText : StringPiece → Bool
  | text .. => true
  | template .. => false

/-- The child that a piece is goes with the tokens of the piece. -/
def Fits : StringPiece → Prop
  | text token run => token.kind = .stringValue ∧ token.value = String.join (run.map Token.value) ∧
      run ≠ [] ∧ ∀ u ∈ run, u.kind = .stringValue
  | template tree part => tree.kind = .template ∧ tree.toNode.Covers part

theorem Fits.tokenKind?_eq_iff {p : StringPiece} (h : p.Fits) :
    p.node.tokenKind? = some .stringValue ↔ p.isText := by
  cases p with
  | text token run => simp [node, isText, Node.tokenKind?, Node.token?, h.1]
  | template tree part => simp [node, isText, Node.tokenKind?, Node.token?, Tree.toNode]

end StringPiece

/-- A string is cut into pieces: its delimiters apart, their tokens are its tokens, and they are
its children.  No two runs of text stand next to each other. -/
structure Tree.CutInto (x : Tree) (part : List Token) (pieces : List StringPiece) : Prop where
  tokens : part = x.opening.toList ++ pieces.flatMap StringPiece.tokens ++ x.closing.toList
  nodes : x.inner = pieces.map StringPiece.node
  fits : ∀ p ∈ pieces, p.Fits
  maximal : pieces.IsChain fun p q => ¬ (p.isText ∧ q.isText)

/-- A string value or a template is a piece. -/
theorem Node.Covers.exists_piece {n : Node} {ts : List Token} (h : n.Covers ts)
    (hkind : n.tokenKind? = some .stringValue ∨ n.tree?.map Tree.kind = some .template) :
    ∃ p : StringPiece, n = p.node ∧ ts = p.tokens ∧ p.Fits := by
  cases n with
  | token t =>
      have ht : t.kind = .stringValue := by simpa [tokenKind?, token?, tree?] using hkind
      cases h with
      | marker hm => simp [ht, TokenKind.isMarker] at hm
      | token _ hrun =>
          obtain ⟨htext, hall⟩ := value_of_mergeValues_eq_singleton hrun
          refine ⟨.text t ts, rfl, rfl, ht, htext, ?_, hall ht⟩
          rintro rfl
          cases hrun
  | tree kind opening closing children =>
      have hkind : kind = .template := by simpa [tokenKind?, token?, tree?] using hkind
      exact ⟨.template ⟨kind, opening, closing, children⟩ ts, rfl, rfl, hkind, h⟩

theorem Node.CoversAll.exists_pieces {ns : List Node} {ts : List Token} (h : CoversAll ns ts)
    (hkinds : ∀ n ∈ ns, n.tokenKind? = some .stringValue ∨
      n.tree?.map Tree.kind = some .template) :
    ∃ pieces : List StringPiece, ns = pieces.map StringPiece.node ∧
      ts = pieces.flatMap StringPiece.tokens ∧ ∀ p ∈ pieces, p.Fits := by
  induction ns generalizing ts with
  | nil =>
      cases h
      exact ⟨[], rfl, rfl, fun _ hp => absurd hp List.not_mem_nil⟩
  | cons n ns ih =>
      obtain ⟨hkind, hrest⟩ := List.forall_mem_cons.mp hkinds
      cases h with
      | cons hn h =>
          obtain ⟨p, rfl, rfl, hp⟩ := hn.exists_piece hkind
          obtain ⟨pieces, rfl, rfl, hfits⟩ := ih h hrest
          exact ⟨p :: pieces, rfl, rfl, List.forall_mem_cons.mpr ⟨hp, hfits⟩⟩

theorem filter_between {α : Type} {p : α → Bool} {a b : α} {xs : List α} (ha : p a = false)
    (hb : p b = false) (hxs : ∀ x ∈ xs, p x) : (a :: xs ++ [b]).filter p = xs := by
  rw [List.cons_append, List.filter_cons_of_neg (by simp [ha]), List.filter_append,
    List.filter_cons_of_neg (by simp [hb]), List.filter_nil, List.append_nil,
    List.filter_eq_self]
  exact hxs

namespace Tree.WellFormed

variable {x : Tree}

/-- Markers stand at the ends of the children only. -/
theorem children_eq (hx : x.WellFormed) : ∃ first last : Token,
    x.children = .token first :: x.inner ++ [.token last] ∧ first.kind = .levelStart ∧
      last.kind = .levelEnd := by
  obtain ⟨first, inner, last, hchildren, hfirst, hlast, hnone⟩ := hx.markers
  have hinner : x.inner = inner := by
    rw [Tree.inner, hchildren]
    refine filter_between ?_ ?_ fun n hn => ?_
    · rw [Node.isMarker_token, hfirst]
      rfl
    · rw [Node.isMarker_token, hlast]
      rfl
    · rw [hnone n hn]
      rfl
  exact ⟨first, last, by rw [hinner, hchildren], hfirst, hlast⟩

theorem exists_pieces (hx : x.WellFormed) (hkind : x.kind = .string)
    {part : List Token} (h : x.toNode.Covers part)
    (hinner : ∀ n ∈ x.inner, n.tokenKind? = some .stringValue ∨
      n.tree?.map Tree.kind = some .template) :
    ∃ pieces, x.CutInto part pieces := by
  have hcover : ∃ ts, Node.CoversAll x.children ts ∧
      part = x.opening.toList ++ ts ++ x.closing.toList := by
    obtain ⟨kind, opening, closing, children⟩ := x
    obtain rfl : kind = .string := hkind
    cases h with
    | tree h => exact ⟨_, h, rfl⟩
    | implied hc h =>
        -- The end of a string cannot be made up.
        have hclosing := hx.closing _ rfl
        simp [TreeKind.closing?] at hclosing
        simp [Token.isImplicitEnd, ← hclosing] at hc
  obtain ⟨ts, hts, rfl⟩ := hcover
  obtain ⟨first, last, hchildren, hfirst, hlast⟩ := hx.children_eq
  have hvalues := hx.children.values
  rw [hchildren] at hts hvalues
  -- The markers at the ends cover nothing, so all tokens are those of the pieces.
  obtain ⟨us, vs, rfl, hus, hvs⟩ := Node.coversAll_append_iff.mp hts
  obtain rfl : vs = [] :=
    (Node.covers_marker_iff (by rw [hlast]; rfl)).mp (Node.coversAll_singleton_iff.mp hvs)
  cases hus with
  | cons hstart hus =>
      obtain rfl := (Node.covers_marker_iff (by rw [hfirst]; rfl)).mp hstart
      obtain ⟨pieces, hnodes, rfl, hfits⟩ := hus.exists_pieces hinner
      refine ⟨pieces, by simp, hnodes, hfits, ?_⟩
      have hchain := (List.isChain_append.mp hvalues).1.tail
      rw [List.tail_cons, hnodes, List.isChain_map] at hchain
      refine hchain.imp_of_mem_imp fun p q hp hq hne => ?_
      rwa [(hfits p hp).tokenKind?_eq_iff, (hfits q hq).tokenKind?_eq_iff] at hne

end Tree.WellFormed

/-! ### The text of a string -/

namespace Tree.CutInto

variable {x : Tree} {part : List Token} {pieces : List StringPiece}

/-- The one token that stands for the whole text of a string without templates. -/
theorem exists_content (h : x.CutInto part pieces) (hx : x.WellFormed) : ∃ u : Token,
    u.kind = .stringValue ∧ u.value = String.join (pieces.map StringPiece.value) ∧
      Matcher.content? x = if pieces.all StringPiece.isText then some u else none := by
  obtain ⟨first, last, hchildren, -, -⟩ := hx.children_eq
  have hnodes := h.nodes
  unfold Matcher.content?
  match pieces, h with
  | [], _ =>
      rw [hnodes, hchildren]
      exact ⟨first.markerBefore .stringValue, rfl, rfl, rfl⟩
  | [.text t run], h =>
      obtain ⟨hkind, hvalue, -⟩ := h.fits _ List.mem_cons_self
      rw [hnodes]
      refine ⟨t, hkind, ?_, if_pos hkind⟩
      rw [hvalue]
      simp [StringPiece.value]
  | [.template t part'], _ =>
      rw [hnodes]
      exact ⟨.make .stringValue _ {}, rfl, rfl, rfl⟩
  | p :: q :: pieces, h =>
      have hnot : (p :: q :: pieces).all StringPiece.isText = false := by
        have hne := (List.isChain_cons_cons.mp h.maximal).1
        cases hp : p.isText <;> simp_all
      rw [hnodes, hnot]
      exact ⟨.make .stringValue _ {}, rfl, rfl, by cases p <;> rfl⟩

end Tree.CutInto

/-! ### The pieces of a string -/

namespace Cursor

/-- The children of a well-formed tree, markers aside, and where they are. -/
theorem exists_inner {c : Cursor} {x : Tree} (hnode : c.node = x.toNode) (hx : x.WellFormed) :
    ∃ cs, (c.children.filter fun d => !d.node.isMarker) = cs ∧ cs.map node = x.inner ∧
      ∀ k d, cs[k]? = some d → c.follow? [k + 1] = some d := by
  obtain ⟨first, last, hchildren, hfirst, hlast⟩ := hx.children_eq
  have hmap : c.children.map node = .token first :: x.inner ++ [.token last] := by
    rw [map_node_children, hnode, ← hchildren]
    rfl
  obtain ⟨front, back, hfront, hmapFront, hmapBack⟩ := List.map_eq_append_iff.mp hmap
  obtain ⟨c₀, cs, rfl, hc₀, hcs⟩ := List.map_eq_cons_iff.mp hmapFront
  obtain ⟨c₁, rfl, hc₁⟩ := List.map_eq_singleton_iff.mp hmapBack
  have hcursors : c.children = c₀ :: cs ++ [c₁] := hfront
  refine ⟨cs, ?_, hcs, fun k d hd => ?_⟩
  · rw [hcursors]
    refine filter_between ?_ ?_ fun d hd => ?_
    · rw [hc₀, Node.isMarker_token, hfirst]
      rfl
    · rw [hc₁, Node.isMarker_token, hlast]
      rfl
    · have hmem : d.node ∈ x.inner := hcs ▸ List.mem_map_of_mem hd
      exact (List.mem_filter.mp hmem).2
  · rw [← getElem?_children, hcursors, List.cons_append, List.getElem?_cons_succ,
      List.getElem?_append_left (List.getElem?_eq_some_iff.mp hd).1, hd]

end Cursor

section Parts

variable {κ : Type} {string : Cursor} {context context' : κ}

/-- A piece of a step stands at a piece of a string, and folds the context.  The second one is the
child of the string at the index `i`. -/
inductive Part.Matches (string : Cursor) (i : Nat) : Part κ → StringPiece → κ → κ → Prop
  /-- The text of a run is accepted; the handler is given the token that stands for it. -/
  | text {pattern test handler token run context} : pattern.compile = .ok test →
      test.accepts (String.join (run.map Token.value)) →
      Part.Matches string i (.content pattern handler) (.text token run) context
        (handle handler context token)
  /-- The query matches from the start marker of the template on. -/
  | template {query m c start tree part context} {found : Checkpoint κ} :
      Query.build query = .ok m → string.follow? [i] = some c → c.node = tree.toNode →
      c.down = some start → start.node.tokenKind? = some .levelStart →
      (m (.start start context)).first? = some found →
      Part.Matches string i (.template query) (.template tree part) context found.context

/-- The pieces of a step stand at the pieces of a string one to one, and fold the context in their
order. -/
inductive Part.MatchAll (string : Cursor) :
    Nat → List (Part κ) → List StringPiece → κ → κ → Prop
  | nil {i context} : Part.MatchAll string i [] [] context context
  | cons {i p ps piece pieces context context' context''} :
      p.Matches string i piece context context' →
      Part.MatchAll string (i + 1) ps pieces context' context'' →
      Part.MatchAll string i (p :: ps) (piece :: pieces) context context''

theorem Part.matches_content_iff {pattern : Pattern} {test : ValueTest}
    (htest : pattern.compile = .ok test) (handler : Option (TokenHandler κ)) (i : Nat)
    {c : Cursor} {piece : StringPiece} (hnode : c.node = piece.node) (hfits : piece.Fits) :
    ((Matcher.Piece.text test handler).run c context).2 = some context' ↔
      (Part.content pattern handler).Matches string i piece context context' := by
  rw [Matcher.run_text, hnode]
  cases piece with
  | template t part => exact ⟨nofun, nofun⟩
  | text t run =>
      obtain ⟨hkind, hvalue, -⟩ := hfits
      show (if t.kind = .stringValue then _ else none) = some context' ↔ _
      rw [if_pos hkind, Matcher.foldToken_eq_some_iff, hvalue]
      constructor
      · rintro ⟨haccepts, rfl⟩
        exact .text htest haccepts
      · intro h
        cases h with
        | text htest' haccepts =>
            obtain rfl := Except.ok.inj (htest.symm.trans htest')
            exact ⟨haccepts, rfl⟩

theorem Part.matches_template_iff {query : Query κ} {m : Matcher κ}
    (hbuild : query.build = .ok m) {c : Cursor} {i : Nat} (hplace : string.follow? [i] = some c)
    {piece : StringPiece} (hnode : c.node = piece.node) (hfits : piece.Fits)
    (hwell : ∀ t ∈ piece.node.tree?, t.WellFormed) :
    ((Matcher.Piece.template m).run c context).2 = some context' ↔
      (Part.template query).Matches string i piece context context' := by
  rw [Matcher.run_template, hnode]
  cases piece with
  | text t run => exact ⟨nofun, nofun⟩
  | template t part =>
      obtain ⟨first, last, hchildren, hfirst, -⟩ := (hwell t rfl).children_eq
      have hhead : c.node.children = .token first :: (t.inner ++ [.token last]) := by
        rw [hnode]
        exact hchildren
      obtain ⟨d, hdown, hdnode⟩ := Cursor.exists_down_of_children hhead
      have hstart : d.node.tokenKind? = some .levelStart := by
        rw [hdnode]
        exact congrArg some hfirst
      show (if t.kind = .template then _ else none) = some context' ↔ _
      rw [if_pos hfits.1, hdown, Option.bind_some, Option.map_eq_some_iff]
      constructor
      · rintro ⟨found, hfound, rfl⟩
        exact .template hbuild hplace hnode hdown hstart hfound
      · intro h
        cases h with
        | template hbuild' hplace' _ hdown' _ hfound =>
            obtain rfl := Except.ok.inj (hbuild.symm.trans hbuild')
            obtain rfl := Option.some.inj (hplace.symm.trans hplace')
            obtain rfl := Option.some.inj (hdown.symm.trans hdown')
            exact ⟨_, hfound, rfl⟩

theorem Part.matches_iff {p : Part κ} {q : Matcher.Piece κ} (hq : Step.compilePart p = .ok q)
    {c : Cursor} {i : Nat} (hplace : string.follow? [i] = some c) {piece : StringPiece}
    (hnode : c.node = piece.node) (hfits : piece.Fits)
    (hwell : ∀ t ∈ piece.node.tree?, t.WellFormed) :
    (q.run c context).2 = some context' ↔ p.Matches string i piece context context' := by
  cases p with
  | content pattern handler =>
      obtain ⟨test, htest, h⟩ := bind_eq_ok_iff.mp hq
      cases h
      exact matches_content_iff htest handler i hnode hfits
  | template query =>
      obtain ⟨ms, hms, h⟩ := bind_eq_ok_iff.mp hq
      cases h
      have hbuild : Query.build query = .ok (Matcher.ofSteps ms) :=
        map_eq_ok_iff.mpr ⟨ms, hms, rfl⟩
      exact matches_template_iff hbuild hplace hnode hfits hwell

theorem Part.matchAll_iff {ps : List (Part κ)} {qs : List (Matcher.Piece κ)}
    (hqs : Step.compileParts ps = .ok qs) {cs : List Cursor} {pieces : List StringPiece}
    (hnodes : cs.map Cursor.node = pieces.map StringPiece.node) {i : Nat}
    (hplaces : ∀ k d, cs[k]? = some d → string.follow? [i + k] = some d)
    (hfits : ∀ p ∈ pieces, p.Fits) (hwell : ∀ p ∈ pieces, ∀ t ∈ p.node.tree?, t.WellFormed) :
    Matcher.foldPieces qs cs context = some context' ↔
      Part.MatchAll string i ps pieces context context' := by
  induction ps generalizing qs cs pieces i context with
  | nil =>
      cases hqs
      cases cs with
      | nil =>
          obtain rfl := List.map_eq_nil_iff.mp hnodes.symm
          constructor
          · intro h
            cases h
            exact .nil
          · intro h
            cases h
            rfl
      | cons c cs =>
          refine ⟨nofun, fun h => ?_⟩
          cases h
          simp at hnodes
  | cons p ps ih =>
      obtain ⟨q, hq, h⟩ := bind_eq_ok_iff.mp hqs
      obtain ⟨qs, hrest, h⟩ := bind_eq_ok_iff.mp h
      cases h
      cases pieces with
      | nil =>
          obtain rfl := List.map_eq_nil_iff.mp hnodes
          exact ⟨nofun, nofun⟩
      | cons piece pieces =>
          obtain ⟨c, cs, rfl, hc, hcs⟩ := List.map_eq_cons_iff.mp hnodes
          obtain ⟨hpiece, hfits⟩ := List.forall_mem_cons.mp hfits
          obtain ⟨htree, hwell⟩ := List.forall_mem_cons.mp hwell
          have hlater : ∀ k d, cs[k]? = some d → string.follow? [i + 1 + k] = some d := by
            intro k d hd
            rw [Nat.add_assoc, Nat.add_comm 1 k]
            exact hplaces (k + 1) d hd
          have hone (context₁ : κ) :
              (q.run c context).2 = some context₁ ↔ p.Matches string i piece context context₁ :=
            Part.matches_iff hq (hplaces 0 c rfl) hc hpiece htree
          rw [Matcher.foldPieces, Option.bind_eq_some_iff]
          constructor
          · rintro ⟨context₁, hrun, hfold⟩
            exact .cons ((hone context₁).mp hrun) ((ih hrest hcs hlater hfits hwell).mp hfold)
          · intro h
            cases h with
            | cons hp hps =>
                exact ⟨_, (hone _).mpr hp, (ih hrest hcs hlater hfits hwell).mpr hps⟩

end Parts

/-! ### String steps -/

/-- String steps see a string as its pieces. -/
structure Tree.SeenAs (x : Tree) (pieces : List StringPiece) : Prop where
  /-- A step for the text of a string matches if there is no template and the whole text is
  accepted; the handler is given a token with this text. -/
  content : ∃ u : Token, u.kind = .stringValue ∧
    u.value = String.join (pieces.map StringPiece.value) ∧
    ∀ {κ : Type} {pattern : Pattern} {handler : Option (TokenHandler κ)} {m : Matcher κ},
      (Step.string pattern handler).compile = .ok m → ∃ test, pattern.compile = .ok test ∧
        ∀ c at_ : Checkpoint κ, c.seek = some at_ → at_.cursor.node = x.toNode →
          (m c).all = if pieces.all StringPiece.isText && test.accepts u.value then
            [at_.consume (handle handler at_.context u)] else []
  /-- A step for the pieces of a string matches if its pieces stand at those of the string. -/
  parts : ∀ {κ : Type} {ps : List (Part κ)} {handlers : TreeHandlers κ} {m : Matcher κ},
    (Step.parts ps handlers).compile = .ok m →
      ∀ c at_ : Checkpoint κ, c.seek = some at_ → at_.cursor.node = x.toNode →
        ∃ found : Option κ,
          (m c).all = (found.map fun context =>
            at_.consume (handle handlers.after context x)).toList ∧
          ∀ context, found = some context ↔
            Part.MatchAll at_.cursor 1 ps pieces (handle handlers.before at_.context x) context

theorem Tree.CutInto.seenAs {x : Tree} {part : List Token} {pieces : List StringPiece}
    (h : x.CutInto part pieces) (hx : x.WellFormed) (hkind : x.kind = .string)
    (hwell : ∀ p ∈ pieces, ∀ t ∈ p.node.tree?, t.WellFormed) : x.SeenAs pieces where
  content := by
    obtain ⟨u, hu, hvalue, hcontent⟩ := h.exists_content hx
    refine ⟨u, hu, hvalue, fun {κ pattern handler m} hm => ?_⟩
    obtain ⟨test, htest, hm⟩ := bind_eq_ok_iff.mp hm
    cases hm
    refine ⟨test, htest, fun c at_ hseek hnode => ?_⟩
    have htree : at_.cursor.node.tree? = some x := hnode ▸ Node.tree?_toNode x
    have hstring : (x.kind == .string) = true := beq_iff_eq.mpr hkind
    rw [Matcher.string, Matcher.all_treeWith_of_accepts hseek htree hstring, hcontent]
    cases pieces.all StringPiece.isText with
    | false => rfl
    | true =>
        rw [if_pos rfl, Option.bind_some, Matcher.foldToken]
        cases test.accepts u.value <;> rfl
  parts := by
    intro κ ps handlers m hm c at_ hseek hnode
    obtain ⟨qs, hqs, hm⟩ := bind_eq_ok_iff.mp hm
    cases hm
    have htree : at_.cursor.node.tree? = some x := hnode ▸ Node.tree?_toNode x
    obtain ⟨cs, hcs, hnodes, hplaces⟩ := Cursor.exists_inner hnode hx
    refine ⟨Matcher.foldPieces qs cs (handle handlers.before at_.context x), ?_, fun context => ?_⟩
    · have hstring : (x.kind == .string) = true := beq_iff_eq.mpr hkind
      rw [Matcher.pieces, Matcher.all_treeWith_of_accepts hseek htree hstring,
        Matcher.runPieces_eq, hcs]
    · refine Part.matchAll_iff hqs (hnodes.trans h.nodes) ?_ h.fits hwell
      intro k d hd
      rw [Nat.add_comm]
      exact hplaces k d hd

/-- **The text of strings.**  Tokens without markers have a tree, and the content of one of its
strings is made of string values and templates only.  Then the string was built of a stretch of the
tokens; between its delimiters this stretch is cut into runs of string values, as long as can be,
and templates, and string steps see the string as these pieces, however its text was cut. -/
theorem Tree.seenAs_ofTokens {layout : Layout} {tokens : List Token} {tree : Tree}
    (hmarkers : ∀ t ∈ tokens, t.kind.isMarker = false)
    (h : Tree.ofTokens layout tokens = .ok tree) {x : Tree} (hx : x ∈ tree.toNode.trees)
    (hkind : x.kind = .string)
    (hinner : ∀ n ∈ x.inner, n.tokenKind? = some .stringValue ∨
      n.tree?.map Tree.kind = some .template) :
    ∃ before part after pieces, tokens = before ++ part ++ after ∧ x.CutInto part pieces ∧
      x.SeenAs pieces := by
  obtain ⟨before, part, after, htokens, hpart⟩ := exists_covers_of_mem_trees hmarkers h hx
  have hall := wellFormed_of_mem_trees hmarkers h
  obtain ⟨pieces, hcut⟩ := (hall x hx).exists_pieces hkind hpart hinner
  refine ⟨before, part, after, pieces, htokens, hcut, hcut.seenAs (hall x hx) hkind ?_⟩
  intro p hp t ht
  have hchild : p.node ∈ x.inner := hcut.nodes ▸ List.mem_map_of_mem hp
  have hmem : t ∈ x.toNode.trees := by
    rw [trees_toNode]
    refine List.mem_cons_of_mem x (Node.trees_subset_treesAll (List.mem_filter.mp hchild).1 ?_)
    cases p with
    | text token run => cases ht
    | template t' part' =>
        obtain rfl : t' = t := Option.some.inj ht
        exact List.mem_cons_self
  exact hall t (Node.trees_subset_of_mem hx hmem)

/-- A handler that collects the texts of tokens. -/
def collectTexts : Option (TokenHandler (List String)) := some fun texts t => texts ++ [t.value]

/-- A run, two empty templates and another run. -/
def runsAroundTemplates : List (Part (List String)) :=
  [.content (.exact "x\n") collectTexts, .template [.levelStart, .levelEnd],
   .template [.levelStart, .levelEnd], .content (.regex "^y") collectTexts]

/-- The contexts that a step ends with on a tree, where it starts with no texts. -/
def Step.textsOn (step : Step (List String)) (x : Tree) :
    Except QueryError (List (List String)) := do
  let m ← step.compile
  return (m (.start (.top x.toNode 0) [])).all.map (·.context)

/-- The string in `indentedString` is cut into two runs and two templates; both templates have no
end of their own in the source.  A step for its text does not match, and a step for its pieces
does. -/
theorem Tree.seenAs_ofTokens_indentedString :
    (∀ t ∈ indentedString, t.kind.isMarker = false) ∧
    ∃ tree x, Tree.ofTokens { indentBlocks := true } indentedString = .ok tree ∧
      x ∈ tree.toNode.trees ∧ x.kind = .string ∧
      (x.inner.map fun n => (n.tokenKind?, n.tree?.map Tree.kind)) =
        [(some .stringValue, none), (none, some .template), (none, some .template),
          (some .stringValue, none)] ∧
      ∃ before part after pieces, indentedString = before ++ part ++ after ∧
        x.CutInto part pieces ∧ x.SeenAs pieces ∧
        (Step.string .any collectTexts).textsOn x = .ok [] ∧
        (Step.parts runsAroundTemplates {}).textsOn x = .ok [["x\n", "y"]] ∧
        Part.MatchAll (.top x.toNode 0) 1 runsAroundTemplates pieces [] ["x\n", "y"] := by
  have hmarkers : ∀ t ∈ indentedString, t.kind.isMarker = false := by decide
  have hstring : (fun tree : Tree => (tree.toNode.trees.find? fun x => x.kind = .string).map
      fun x => x.inner.map fun n => (n.tokenKind?, n.tree?.map Tree.kind)) <$>
      Tree.ofTokens { indentBlocks := true } indentedString =
      .ok (some [(some .stringValue, none), (none, some .template), (none, some .template),
        (some .stringValue, none)]) := by
    decide +kernel
  have hruns : (fun tree : Tree => (tree.toNode.trees.find? fun x => x.kind = .string).map
      fun x => ((Step.string .any collectTexts).textsOn x,
        (Step.parts runsAroundTemplates {}).textsOn x)) <$>
      Tree.ofTokens { indentBlocks := true } indentedString =
      .ok (some (.ok [], .ok [["x\n", "y"]])) := by
    decide +kernel
  obtain ⟨tree, htree, hstring⟩ := map_eq_ok_iff.mp hstring
  obtain ⟨x, hx, hkinds⟩ := Option.map_eq_some_iff.mp hstring
  rw [htree] at hruns
  obtain ⟨hcontent, hparts⟩ : (Step.string .any collectTexts).textsOn x = .ok [] ∧
      (Step.parts runsAroundTemplates {}).textsOn x = .ok [["x\n", "y"]] := by
    simpa [hx] using hruns
  have hkind : x.kind = .string := by simpa using List.find?_some hx
  have hmem : x ∈ tree.toNode.trees := List.mem_of_find?_eq_some hx
  have hinner : ∀ n ∈ x.inner, n.tokenKind? = some .stringValue ∨
      n.tree?.map Tree.kind = some .template := by
    intro n hn
    have hpair : (n.tokenKind?, n.tree?.map Tree.kind) ∈
        x.inner.map fun n => (n.tokenKind?, n.tree?.map Tree.kind) := List.mem_map_of_mem hn
    rw [hkinds] at hpair
    simp only [List.mem_cons, Prod.mk.injEq, List.not_mem_nil, or_false] at hpair
    rcases hpair with ⟨h, -⟩ | ⟨-, h⟩ | ⟨-, h⟩ | ⟨h, -⟩
    · exact .inl h
    · exact .inr h
    · exact .inr h
    · exact .inl h
  obtain ⟨before, part, after, pieces, htokens, hcut, hseen⟩ :=
    Tree.seenAs_ofTokens hmarkers htree hmem hkind hinner
  refine ⟨hmarkers, tree, x, htree, hmem, hkind, hkinds, before, part, after, pieces, htokens, hcut,
    hseen, hcontent, hparts, ?_⟩
  -- That the pieces of the step stand at those of the string is what its match says.
  obtain ⟨m, hm, hall⟩ := bind_eq_ok_iff.mp hparts
  obtain ⟨found, hfound, hmatch⟩ := hseen.parts hm (.start (.top x.toNode 0) []) _ rfl rfl
  have hall : (m (.start (.top x.toNode 0) [])).all.map (·.context) = [["x\n", "y"]] :=
    Except.ok.inj hall
  rw [hfound] at hall
  cases found with
  | none => cases hall
  | some context =>
      obtain rfl : context = ["x\n", "y"] := List.singleton_inj.mp hall
      exact (hmatch _).mp rfl

end Nesting
