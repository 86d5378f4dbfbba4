import Nesting.Proofs.Text.Quoted
import Nesting.Proofs.Text.Words
import Nesting.Proofs.Tree.ForceClosed
import Nesting.Proofs.Tree.MadeLeaves
import Nesting.Tree.Dump

/-! # Reading dumps

A dump without colours can be read back.  It falls into lines, each with its number of blanks
(`join_lineText_inj`); a line's first word says what kind of node it shows, and whether a text
after it belongs to the opening token is known from the kind.  A tree goes on as long as lines are
indented further than its own (`Node.alike_of_shown`).

What is lost is the difference between no closing token and one without text, and without spans
all positions (`Node.Alike`). -/

namespace Nesting

/-! ### What a dump shows -/

/-- The text of a closing token; none counts as a token without text. -/
def closingText (t : Option Token) : String := t.elim "" Token.value

mutual

/-- Nodes of the same shape whose kinds and texts agree; if spans are asked for, the lines and
columns of their tokens agree too. -/
inductive Node.Alike (spans : Bool) : Node → Node → Prop
  | token {t u : Token} : t.kind = u.kind → t.value = u.value →
      (spans → t.pos.line = u.pos.line ∧ t.pos.col = u.pos.col) → Alike spans (.token t) (.token u)
  | tree {kind opening opening' closing closing' children children'} :
      opening.map Token.value = opening'.map Token.value →
      closingText closing = closingText closing' → AlikeAll spans children children' →
      Alike spans (.tree kind opening closing children) (.tree kind opening' closing' children')

/-- Lists of nodes that are alike one by one. -/
inductive Node.AlikeAll (spans : Bool) : List Node → List Node → Prop
  | nil : AlikeAll spans [] []
  | cons {n m ns ms} : Alike spans n m → AlikeAll spans ns ms → AlikeAll spans (n :: ns) (m :: ms)

end

/-! ### Lines -/

/-- A line of a dump without its blanks: it does not begin with one, and it holds no line feed. -/
structure IsLine (s : String) : Prop where
  head : s.toList.head? ≠ some ' '
  line : '\n' ∉ s.toList

/-- A line of a dump, with the level of its node. -/
def lineText (line : ℕ × String) : String := DumpStyle.indent line.1 ++ line.2 ++ "\n"

theorem lineText_append_inj {line line' : ℕ × String} (h : IsLine line.2) (h' : IsLine line'.2)
    {rest rest' : String} (heq : lineText line ++ rest = lineText line' ++ rest') :
    line = line' ∧ rest = rest' := by
  have hlist := congrArg String.toList heq
  simp only [lineText, DumpStyle.indent, String.toList_append, String.toList_ofList,
    List.append_assoc] at hlist
  have hblanks (k : ℕ) {s : String} (hs : IsLine s) : '\n' ∉ List.replicate k ' ' ++ s.toList := by
    rw [List.mem_append]
    exact not_or.mpr ⟨fun h => absurd (List.eq_of_mem_replicate h) (by decide), hs.line⟩
  rw [← List.append_assoc, ← List.append_assoc (List.replicate _ _)] at hlist
  obtain ⟨hline, hrest⟩ := append_cons_inj (hblanks _ h) (hblanks _ h') hlist
  obtain ⟨hlevel, htext⟩ := replicate_append_inj h.head h'.head hline
  exact ⟨Prod.ext (by omega) (String.toList_inj.mp htext), String.toList_inj.mp hrest⟩

theorem lineText_append_ne (line : ℕ × String) (rest : String) : lineText line ++ rest ≠ "" := by
  intro h
  have hlength := congrArg String.length h
  simp [lineText] at hlength

/-- A text that falls into lines does so in one way. -/
theorem join_lineText_inj {lines lines' : List (ℕ × String)} (h : ∀ l ∈ lines, IsLine l.2)
    (h' : ∀ l ∈ lines', IsLine l.2)
    (heq : String.join (lines.map lineText) = String.join (lines'.map lineText)) :
    lines = lines' := by
  induction lines generalizing lines' with
  | nil =>
      cases lines' with
      | nil => rfl
      | cons l' lines' =>
          rw [List.map_cons, String.join_cons] at heq
          exact absurd heq.symm (lineText_append_ne l' _)
  | cons l lines ih =>
      cases lines' with
      | nil =>
          rw [List.map_cons, String.join_cons] at heq
          exact absurd heq (lineText_append_ne l _)
      | cons l' lines' =>
          obtain ⟨hl, hlines⟩ := List.forall_mem_cons.mp h
          obtain ⟨hl', hlines'⟩ := List.forall_mem_cons.mp h'
          rw [List.map_cons, List.map_cons, String.join_cons, String.join_cons] at heq
          obtain ⟨rfl, hrest⟩ := lineText_append_inj hl hl' heq
          rw [ih hlines hlines' hrest]

/-! ### The lines of nodes -/

/-- The place of a token, if places are shown. -/
def placeText (spans : Bool) (t : Token) : String :=
  if spans then " " ++ (toString t.pos.line ++ ":" ++ toString t.pos.col) else ""

/-- What stands behind the kind of a token. -/
def tokenTail (spans : Bool) (t : Token) : String :=
  (if t.kind.isMarker then "" else " " ++ Quoting.plain.quote t.value) ++ placeText spans t

/-- What stands behind the kind of a tree. -/
def treeTail (opening closing : Option Token) : String :=
  ((opening.map Token.value).elim "" fun text => " " ++ Quoting.plain.quote text) ++
    if closingText closing = "" then "" else " " ++ Quoting.plain.quote (closingText closing)

mutual

/-- The lines of a node. -/
def Node.shown (spans : Bool) (level : ℕ) : Node → List (ℕ × String)
  | .token t => [(level, t.kind.name ++ tokenTail spans t)]
  | .tree kind opening closing children =>
    (level, kind.name ++ treeTail opening closing) :: shownAll spans (level + 1) children

/-- The lines of neighbouring nodes. -/
def Node.shownAll (spans : Bool) (level : ℕ) : List Node → List (ℕ × String)
  | [] => []
  | n :: ns => shown spans level n ++ shownAll spans level ns

end

theorem quoted_off (spans : Bool) (text : String) :
    DumpStyle.quoted { spans } text = Quoting.plain.quote text := rfl

theorem tokenLine_eq (spans : Bool) (level : ℕ) (t : Token) :
    DumpStyle.tokenLine { spans } level t = lineText (level, t.kind.name ++ tokenTail spans t) := by
  have hplace : (if spans then " " ++ Palette.off.detail (toString t.pos.line ++ ":" ++
      toString t.pos.col) else "") = placeText spans t := rfl
  have hname : Palette.off.detail t.kind.name = t.kind.name := rfl
  unfold DumpStyle.tokenLine lineText tokenTail
  dsimp only
  rw [hplace, hname, quoted_off]
  split <;> simp only [String.append_assoc, String.empty_append]

theorem treeLine_eq (spans : Bool) (level : ℕ) (kind : TreeKind) (opening closing : Option Token) :
    DumpStyle.treeLine { spans } level kind opening closing =
      lineText (level, kind.name ++ treeTail opening closing) := by
  have hname : Palette.off.kind kind.name = kind.name := rfl
  unfold DumpStyle.treeLine lineText treeTail
  dsimp only
  simp only [quoted_off, hname, String.append_assoc, String.append_right_inj]
  congr 1
  · cases opening <;> rfl
  · cases closing with
    | none => rfl
    | some t => by_cases ht : t.value = "" <;> simp [closingText, Token.isZeroWidth, ht]

mutual

theorem nodeLines_eq (spans : Bool) : ∀ (level : ℕ) (n : Node),
    DumpStyle.nodeLines { spans } level n = (n.shown spans level).map lineText
  | level, .token t => congrArg ([·]) (tokenLine_eq spans level t)
  | level, .tree kind opening closing children => by
    rw [DumpStyle.nodeLines, Node.shown, List.map_cons, treeLine_eq, childLines_eq]

theorem childLines_eq (spans : Bool) : ∀ (level : ℕ) (ns : List Node),
    DumpStyle.childLines { spans } level ns = (Node.shownAll spans level ns).map lineText
  | _, [] => rfl
  | level, n :: ns => by
    rw [DumpStyle.childLines, Node.shownAll, List.map_append, nodeLines_eq, childLines_eq]

end

theorem dump_eq (spans : Bool) (n : Node) :
    DumpStyle.dump { spans } n = String.join ((n.shown spans 0).map lineText) := by
  rw [DumpStyle.dump, nodeLines_eq]

/-! ### Reading a line -/

theorem isTail_placeText (spans : Bool) (t : Token) : IsTail (placeText spans t) := by
  unfold placeText
  split
  · exact .inr ⟨_, rfl⟩
  · exact .inl rfl

theorem isTail_tokenTail (spans : Bool) (t : Token) : IsTail (tokenTail spans t) := by
  refine .append ?_ (isTail_placeText spans t)
  split
  · exact .inl rfl
  · exact .inr ⟨_, rfl⟩

theorem isTail_treeTail (opening closing : Option Token) : IsTail (treeTail opening closing) := by
  refine .append ?_ ?_
  · cases opening with
    | none => exact .inl rfl
    | some t => exact .inr ⟨_, rfl⟩
  · split
    · exact .inl rfl
    · exact .inr ⟨_, rfl⟩

theorem placeText_inj {t u : Token} (h : placeText true t = placeText true u) :
    t.pos.line = u.pos.line ∧ t.pos.col = u.pos.col := by
  have hlist := congrArg String.toList h
  simp only [placeText, if_true, String.toList_append, List.append_assoc,
    List.append_cancel_left_eq] at hlist
  have hcolon := not_mem_toString_nat (c := ':') rfl
  obtain ⟨hline, hcol⟩ := append_cons_inj (hcolon _) (hcolon _) hlist
  exact ⟨toString_nat_inj (String.toList_inj.mp hline),
    toString_nat_inj (String.toList_inj.mp hcol)⟩

theorem quoted_inj {q : Quoting} {s t rest rest' : String}
    (h : " " ++ q.quote s ++ rest = " " ++ q.quote t ++ rest') : s = t ∧ rest = rest' := by
  have hlist := congrArg String.toList h
  simp only [String.toList_append, List.append_assoc, List.append_cancel_left_eq] at hlist
  obtain ⟨hvalue, hrest⟩ := Quoting.quote_append_inj hlist
  exact ⟨hvalue, String.toList_inj.mp hrest⟩

/-- The text and the place of a token can be read from its line, if its kind is known. -/
theorem tokenTail_inj {spans : Bool} {t u : Token} (hkind : t.kind = u.kind)
    (ht : t.kind.isMarker → t.value = "") (hu : u.kind.isMarker → u.value = "")
    (h : tokenTail spans t = tokenTail spans u) :
    t.value = u.value ∧ (spans → t.pos.line = u.pos.line ∧ t.pos.col = u.pos.col) := by
  have hplace (h : placeText spans t = placeText spans u) :
      spans → t.pos.line = u.pos.line ∧ t.pos.col = u.pos.col := by
    rintro rfl
    exact placeText_inj h
  rw [tokenTail, tokenTail, ← hkind] at h
  split at h
  · next hmarker =>
    rw [String.empty_append, String.empty_append] at h
    exact ⟨(ht hmarker).trans (hu (hkind ▸ hmarker)).symm, hplace h⟩
  · obtain ⟨hvalue, hrest⟩ := quoted_inj h
    exact ⟨hvalue, hplace hrest⟩

/-- The text of the closing token can be read from what stands behind the opening one. -/
theorem closingTail_inj {s t : String}
    (h : (if s = "" then "" else " " ++ Quoting.plain.quote s) =
      if t = "" then "" else " " ++ Quoting.plain.quote t) : s = t := by
  have hne (s : String) : " " ++ Quoting.plain.quote s ≠ "" := fun h => by
    have hlength := congrArg String.length h
    simp at hlength
  split_ifs at h with hs ht ht
  · exact hs.trans ht.symm
  · exact absurd h.symm (hne t)
  · exact absurd h (hne s)
  · have happend : " " ++ Quoting.plain.quote s ++ "" = " " ++ Quoting.plain.quote t ++ "" := by
      rw [h]
    exact (quoted_inj happend).1

/-- The texts of the delimiters can be read from the line of a tree, if it is known whether there
is an opening one. -/
theorem treeTail_inj {opening opening' closing closing' : Option Token}
    (hopening : opening.isSome = opening'.isSome)
    (h : treeTail opening closing = treeTail opening' closing') :
    opening.map Token.value = opening'.map Token.value ∧
      closingText closing = closingText closing' := by
  rw [treeTail, treeTail] at h
  cases opening with
  | none =>
      cases opening' with
      | some u => cases hopening
      | none => exact ⟨rfl, closingTail_inj (by simpa using h)⟩
  | some t =>
      cases opening' with
      | none => cases hopening
      | some u =>
          obtain ⟨hvalue, hclosing⟩ := quoted_inj h
          exact ⟨congrArg some hvalue, closingTail_inj hclosing⟩

theorem tokenKind_name_ne (k : TokenKind) (k' : TreeKind) : k.name ≠ k'.name := by
  intro h
  have hnone : TokenKind.ofName? k'.name = none := by cases k' <;> decide
  rw [← h, TokenKind.ofName?_name] at hnone
  cases hnone

/-! ### Reading all lines -/

/-- A word begins a line, and it ends at the first blank. -/
structure IsWord (s : String) : Prop where
  ne : s ≠ ""
  blank : ' ' ∉ s.toList
  line : '\n' ∉ s.toList

theorem isWord_tokenKind (k : TokenKind) : IsWord k.name := by cases k <;> constructor <;> decide

theorem isWord_treeKind (k : TreeKind) : IsWord k.name := by cases k <;> constructor <;> decide

theorem IsWord.isLine_append {name tail : String} (h : IsWord name) (ht : '\n' ∉ tail.toList) :
    IsLine (name ++ tail) where
  head := by
    have hne : name.toList ≠ [] := fun he => h.ne (String.toList_eq_nil_iff.mp he)
    obtain ⟨c, cs, hcs⟩ := List.exists_cons_of_ne_nil hne
    have hc : c ≠ ' ' := fun hc => h.blank (by rw [hcs, hc]; exact List.mem_cons_self)
    rw [String.toList_append, hcs]
    exact fun he => hc (Option.some.inj he)
  line := by
    rw [String.toList_append, List.mem_append]
    exact not_or.mpr ⟨h.line, ht⟩

theorem line_notMem_quote (s : String) : '\n' ∉ (" " ++ Quoting.plain.quote s).toList := by
  rw [String.toList_append, List.mem_append]
  refine not_or.mpr ⟨by decide, fun h => ?_⟩
  have := Quoting.isControl_of_mem_plain h
  exact absurd this (by decide)

theorem line_notMem_tokenTail (spans : Bool) (t : Token) : '\n' ∉ (tokenTail spans t).toList := by
  rw [tokenTail, String.toList_append, List.mem_append]
  refine not_or.mpr ⟨?_, ?_⟩
  · split
    · decide
    · exact line_notMem_quote t.value
  · unfold placeText
    split
    · simp only [String.toList_append, List.mem_append, not_or]
      exact ⟨by decide, ⟨not_mem_toString_nat rfl _, by decide⟩, not_mem_toString_nat rfl _⟩
    · decide

theorem line_notMem_treeTail (opening closing : Option Token) :
    '\n' ∉ (treeTail opening closing).toList := by
  rw [treeTail, String.toList_append, List.mem_append]
  refine not_or.mpr ⟨?_, ?_⟩
  · cases opening with
    | none => decide
    | some t => exact line_notMem_quote t.value
  · split
    · decide
    · exact line_notMem_quote _

namespace Node

mutual

theorem isLine_of_mem_shown (spans : Bool) : ∀ (level : ℕ) (n : Node),
    ∀ l ∈ n.shown spans level, IsLine l.2
  | level, .token t, l, hl => by
    obtain rfl := List.mem_singleton.mp hl
    exact (isWord_tokenKind t.kind).isLine_append (line_notMem_tokenTail spans t)
  | level, .tree kind opening closing children, l, hl => by
    rcases List.mem_cons.mp hl with rfl | hl
    · exact (isWord_treeKind kind).isLine_append (line_notMem_treeTail opening closing)
    · exact isLine_of_mem_shownAll spans (level + 1) children l hl

theorem isLine_of_mem_shownAll (spans : Bool) : ∀ (level : ℕ) (ns : List Node),
    ∀ l ∈ shownAll spans level ns, IsLine l.2
  | _, [], l, hl => absurd hl List.not_mem_nil
  | level, n :: ns, l, hl => by
    rcases List.mem_append.mp hl with hl | hl
    · exact isLine_of_mem_shown spans level n l hl
    · exact isLine_of_mem_shownAll spans level ns l hl

end

/-- What is needed to read a node: whether there is an opening token is known from the kind of a
tree, and a marker's text is known. -/
structure Legible (n : Node) : Prop where
  trees : ∀ x ∈ n.trees, x.opening.isSome = x.kind.isDelimited
  leaves : ∀ t ∈ n.leaves, t.kind.isMarker → t.value = ""

theorem mem_leavesAll {t : Token} {ns : List Node} {n : Node} (hn : n ∈ ns) (ht : t ∈ n.leaves) :
    t ∈ leavesAll ns := by
  obtain ⟨before, after, rfl⟩ := List.append_of_mem hn
  simp [leavesAll_append, leavesAll, ht]

theorem Legible.tree {kind : TreeKind} {opening closing : Option Token} {children : List Node}
    (h : (Node.tree kind opening closing children).Legible) :
    opening.isSome = kind.isDelimited ∧ ∀ n ∈ children, n.Legible := by
  refine ⟨h.trees _ List.mem_cons_self, fun n hn => ⟨fun x hx => ?_, fun t ht => ?_⟩⟩
  · exact h.trees x (List.mem_cons_of_mem _ (trees_subset_treesAll hn hx))
  · exact h.leaves t (List.mem_append_left _ (List.mem_append_right _ (mem_leavesAll hn ht)))

theorem exists_shown_eq_cons (spans : Bool) (level : ℕ) (n : Node) :
    ∃ text lines, n.shown spans level = (level, text) :: lines := by
  cases n <;> exact ⟨_, _, rfl⟩

/-- What begins with nodes of a level is not indented further. -/
theorem level_le_of_head? {spans : Bool} {level : ℕ} {rest : List (ℕ × String)}
    (hrest : ∀ l ∈ rest.head?, l.1 < level) (ns : List Node) :
    ∀ l ∈ (shownAll spans level ns ++ rest).head?, l.1 ≤ level := by
  intro l hl
  cases ns with
  | nil => exact Nat.le_of_lt (hrest l hl)
  | cons n ns =>
      obtain ⟨text, lines, hn⟩ := exists_shown_eq_cons spans level n
      rw [shownAll, hn] at hl
      obtain rfl := Option.some.inj hl
      exact Nat.le_refl _

theorem shownAll_cons_ne {spans : Bool} {level : ℕ} {rest rest' : List (ℕ × String)}
    (hrest : ∀ l ∈ rest.head?, l.1 < level) (n : Node) (ns : List Node) :
    rest ≠ shownAll spans level (n :: ns) ++ rest' := by
  rintro rfl
  obtain ⟨text, lines, hn⟩ := exists_shown_eq_cons spans level n
  rw [shownAll, hn] at hrest
  exact Nat.lt_irrefl level (hrest _ rfl)

mutual

/-- Nodes with the same lines are alike, if what follows is not indented further. -/
theorem alike_of_shown {spans : Bool} {level : ℕ} {rest rest' : List (ℕ × String)} :
    ∀ {n m : Node}, n.Legible → m.Legible → (∀ l ∈ rest.head?, l.1 ≤ level) →
      (∀ l ∈ rest'.head?, l.1 ≤ level) →
      n.shown spans level ++ rest = m.shown spans level ++ rest' →
      n.Alike spans m ∧ rest = rest'
  | .token t, .token u, hn, hm, _, _, h => by
    obtain ⟨hline, hrest⟩ := List.cons.inj h
    obtain ⟨hname, htail⟩ := append_tail_inj (isWord_tokenKind _).blank (isWord_tokenKind _).blank
      (isTail_tokenTail spans t) (isTail_tokenTail spans u) (Prod.mk.inj hline).2
    have hkind := TokenKind.name_inj hname
    have hleaf {t : Token} (h : (Node.token t).Legible) : t.kind.isMarker → t.value = "" :=
      h.leaves t (List.mem_singleton_self t)
    obtain ⟨hvalue, hplace⟩ := tokenTail_inj hkind (hleaf hn) (hleaf hm) htail
    exact ⟨.token hkind hvalue hplace, hrest⟩
  | .token t, .tree kind opening closing children, _, _, _, _, h => by
    obtain ⟨hline, -⟩ := List.cons.inj h
    obtain ⟨hname, -⟩ := append_tail_inj (isWord_tokenKind _).blank (isWord_treeKind _).blank
      (isTail_tokenTail spans t) (isTail_treeTail opening closing) (Prod.mk.inj hline).2
    exact absurd hname (tokenKind_name_ne _ _)
  | .tree kind opening closing children, .token u, _, _, _, _, h => by
    obtain ⟨hline, -⟩ := List.cons.inj h
    obtain ⟨hname, -⟩ := append_tail_inj (isWord_treeKind _).blank (isWord_tokenKind _).blank
      (isTail_treeTail opening closing) (isTail_tokenTail spans u) (Prod.mk.inj hline).2
    exact absurd hname.symm (tokenKind_name_ne _ _)
  | .tree kind opening closing children, .tree kind' opening' closing' children', hn, hm, hrest,
      hrest', h => by
    obtain ⟨hline, hlines⟩ := List.cons.inj h
    obtain ⟨hname, htail⟩ := append_tail_inj (isWord_treeKind _).blank (isWord_treeKind _).blank
      (isTail_treeTail opening closing) (isTail_treeTail opening' closing') (Prod.mk.inj hline).2
    obtain rfl := TreeKind.name_inj hname
    obtain ⟨hisSome, hchildren⟩ := hn.tree
    obtain ⟨hisSome', hchildren'⟩ := hm.tree
    obtain ⟨hopening, hclosing⟩ := treeTail_inj (hisSome.trans hisSome'.symm) htail
    obtain ⟨halike, hafter⟩ := alikeAll_of_shown hchildren hchildren'
      (fun l hl => Nat.lt_succ_of_le (hrest l hl)) (fun l hl => Nat.lt_succ_of_le (hrest' l hl))
      hlines
    exact ⟨.tree hopening hclosing halike, hafter⟩

/-- Neighbours with the same lines are alike one by one, if what follows is indented less. -/
theorem alikeAll_of_shown {spans : Bool} {level : ℕ} {rest rest' : List (ℕ × String)} :
    ∀ {ns ms : List Node}, (∀ n ∈ ns, n.Legible) → (∀ m ∈ ms, m.Legible) →
      (∀ l ∈ rest.head?, l.1 < level) → (∀ l ∈ rest'.head?, l.1 < level) →
      shownAll spans level ns ++ rest = shownAll spans level ms ++ rest' →
      AlikeAll spans ns ms ∧ rest = rest'
  | [], [], _, _, _, _, h => ⟨.nil, h⟩
  | [], m :: ms, _, _, hrest, _, h => absurd h (shownAll_cons_ne hrest m ms)
  | n :: ns, [], _, _, _, hrest', h => absurd h.symm (shownAll_cons_ne hrest' n ns)
  | n :: ns, m :: ms, hns, hms, hrest, hrest', h => by
    obtain ⟨hn, hns⟩ := List.forall_mem_cons.mp hns
    obtain ⟨hm, hms⟩ := List.forall_mem_cons.mp hms
    rw [shownAll, shownAll, List.append_assoc, List.append_assoc] at h
    obtain ⟨halike, h⟩ := alike_of_shown hn hm (level_le_of_head? hrest ns)
      (level_le_of_head? hrest' ms) h
    obtain ⟨halikeAll, h⟩ := alikeAll_of_shown hns hms hrest hrest' h
    exact ⟨.cons halike halikeAll, h⟩

end

mutual

theorem Alike.shown_eq {spans : Bool} : ∀ {n m : Node}, n.Alike spans m →
    ∀ level, n.shown spans level = m.shown spans level
  | _, _, @Alike.token _ t u hkind hvalue hplace, level => by
    have hplaces : placeText spans t = placeText spans u := by
      cases spans with
      | false => rfl
      | true => rw [placeText, placeText, (hplace rfl).1, (hplace rfl).2]
    rw [shown, shown, tokenTail, tokenTail, hkind, hvalue, hplaces]
  | _, _, .tree hopening hclosing hchildren, level => by
    rw [shown, shown, treeTail, treeTail, hopening, hclosing, hchildren.shownAll_eq]

theorem AlikeAll.shownAll_eq {spans : Bool} : ∀ {ns ms : List Node}, AlikeAll spans ns ms →
    ∀ level, shownAll spans level ns = shownAll spans level ms
  | _, _, .nil, _ => rfl
  | _, _, .cons h hs, level => by rw [shownAll, shownAll, h.shown_eq, hs.shownAll_eq]

end

/-- Nodes that can be read have the same dump if and only if they are alike. -/
theorem Legible.dump_eq_iff {n m : Node} (hn : n.Legible) (hm : m.Legible) {spans : Bool} :
    DumpStyle.dump { spans } n = DumpStyle.dump { spans } m ↔ n.Alike spans m := by
  rw [dump_eq, dump_eq]
  constructor
  · intro h
    have hlines :=
      join_lineText_inj (isLine_of_mem_shown spans 0 n) (isLine_of_mem_shown spans 0 m) h
    have happend : n.shown spans 0 ++ [] = m.shown spans 0 ++ [] := by rw [hlines]
    exact (alike_of_shown hn hm (by simp) (by simp) happend).1
  · intro h
    rw [h.shown_eq]

end Node

theorem Tree.legible_ofTokens {layout : Layout} {tokens : List Token} {tree : Tree}
    (hmarkers : ∀ t ∈ tokens, t.kind.isMarker = false)
    (h : Tree.ofTokens layout tokens = .ok tree) : tree.toNode.Legible where
  trees x hx := by
    have hopening := congrArg Option.isSome (wellFormed_of_mem_trees hmarkers h x hx).opening
    rw [Option.isSome_map] at hopening
    rw [hopening]
    cases x.kind <;> rfl
  leaves := value_of_isMarker hmarkers h

/-- **Dumps.**  Two trees that were built of tokens without markers have the same dump without
colours if and only if they have the same shape, kinds and texts, and the same lines and columns if
these are shown; an absent closing token counts as one without text.  Quoting is injective and
leaves no control character. -/
theorem Tree.dump_determines {layout layout' : Layout} {tokens tokens' : List Token}
    {tree tree' : Tree} (hmarkers : ∀ t ∈ tokens, t.kind.isMarker = false)
    (hmarkers' : ∀ t ∈ tokens', t.kind.isMarker = false)
    (h : Tree.ofTokens layout tokens = .ok tree) (h' : Tree.ofTokens layout' tokens' = .ok tree')
    (spans : Bool) :
    (DumpStyle.dump { spans } tree.toNode = DumpStyle.dump { spans } tree'.toNode ↔
      tree.toNode.Alike spans tree'.toNode) ∧
    Function.Injective Quoting.plain.quote ∧
    ∀ s : String, ∀ c ∈ (Quoting.plain.quote s).toList, CharClass.isControl c = false :=
  ⟨(legible_ofTokens hmarkers h).dump_eq_iff (legible_ofTokens hmarkers' h'),
    Quoting.quote_injective _, fun _ _ hc => Quoting.isControl_of_mem_plain hc⟩

/-- A bracket that the end of the tokens closes. -/
def openBracket : List Token :=
  [.make .bracketLeft "(" ⟨0, 1, 1⟩, .make .symbol "a\n" ⟨1, 1, 2⟩]

/-- The same bracket with a closing token that has no text. -/
def emptyCloser : List Token := openBracket ++ [.make .bracketRight "" ⟨3, 2, 1⟩]

/-- The two trees are different, but both have no text where the bracket closes. -/
theorem Tree.dump_determines_emptyCloser :
    ∃ tree tree', Tree.ofTokens {} openBracket = .ok tree ∧
      Tree.ofTokens {} emptyCloser = .ok tree' ∧ tree ≠ tree' ∧
      DumpStyle.dump { spans := true } tree.toNode =
        "root-tree\n  _start 1:1\n  wrapped-tree \"(\"\n    _start 1:2\n    symbol \"a\\n\" 1:2\n" ++
          "    _end 2:1\n  _end 2:1\n" ∧
      tree.toNode.Alike true tree'.toNode := by
  let shown (tree : Tree) : ℕ × String :=
    (tree.toNode.leaves.length, DumpStyle.dump { spans := true } tree.toNode)
  have run : shown <$> Tree.ofTokens {} openBracket = .ok (6,
      "root-tree\n  _start 1:1\n  wrapped-tree \"(\"\n    _start 1:2\n    symbol \"a\\n\" 1:2\n" ++
        "    _end 2:1\n  _end 2:1\n") := by decide +kernel
  have run' : shown <$> Tree.ofTokens {} emptyCloser = .ok (7,
      "root-tree\n  _start 1:1\n  wrapped-tree \"(\"\n    _start 1:2\n    symbol \"a\\n\" 1:2\n" ++
        "    _end 2:1\n  _end 2:1\n") := by decide +kernel
  obtain ⟨tree, h, hshown⟩ := map_eq_ok_iff.mp run
  obtain ⟨tree', h', hshown'⟩ := map_eq_ok_iff.mp run'
  obtain ⟨hlength, hdump⟩ := Prod.mk.inj hshown
  obtain ⟨hlength', hdump'⟩ := Prod.mk.inj hshown'
  refine ⟨tree, tree', h, h', ?_, hdump, ?_⟩
  · rintro rfl
    exact absurd (hlength.symm.trans hlength') (by decide)
  · have hmarkers : ∀ t ∈ openBracket, t.kind.isMarker = false := by decide
    have hmarkers' : ∀ t ∈ emptyCloser, t.kind.isMarker = false := by decide
    exact (Tree.dump_determines hmarkers hmarkers' h h' true).1.mp (hdump.trans hdump'.symm)

end Nesting
