import Nesting.Proofs.Lexer.Tiling
import Nesting.Tree.Basic

/-! # Leaves in a row

`Tree.owned` lists the leaves of a tree, each with the kind of the tree that it belongs to.  Such
leaves stand in a row (`OwnedLeaf.Stand`) if each of them has the position to which the text before
it leads.  The markers of a block are an exception: they count the indentation that stands behind
them as well (`OwnedLeaf.overtaken`).

Whether a leaf stands right depends on what is behind it, but only up to the next leaf that is
neither a marker nor a blank (`OwnedLeaf.stand_append_solid`).  `OwnedLeaf.Settled` says that leaves
stand in a row whatever comes behind them, so that settled rows can be put one behind the other. -/

namespace Nesting

/-! ### Leaves with the trees that they are in -/

/-- A leaf of a tree, with the kind of the tree that it belongs to. -/
structure OwnedLeaf where
  owner : TreeKind
  token : Token
  deriving DecidableEq, Repr

mutual

/-- The leaves of a node in document order; a token belongs to the tree around it. -/
def Node.owned (owner : TreeKind) : Node → List OwnedLeaf
  | .token t => [⟨owner, t⟩]
  | .tree kind opening closing children =>
    opening.toList.map (OwnedLeaf.mk kind) ++ ownedAll kind children ++
      closing.toList.map (OwnedLeaf.mk kind)

/-- The leaves of the children of a tree. -/
def Node.ownedAll (owner : TreeKind) : List Node → List OwnedLeaf
  | [] => []
  | n :: ns => n.owned owner ++ ownedAll owner ns

end

namespace Node

@[simp] theorem ownedAll_append (owner : TreeKind) (ns ms : List Node) :
    ownedAll owner (ns ++ ms) = ownedAll owner ns ++ ownedAll owner ms := by
  induction ns with
  | nil => rfl
  | cons n ns ih => simp [ownedAll, ih]

@[simp] theorem ownedAll_map_token (owner : TreeKind) (ts : List Token) :
    ownedAll owner (ts.map .token) = ts.map (OwnedLeaf.mk owner) := by
  induction ts with
  | nil => rfl
  | cons t ts ih => rw [List.map_cons, ownedAll, ih, owned, List.singleton_append, List.map_cons]

mutual

theorem map_token_owned (owner : TreeKind) :
    ∀ n : Node, (n.owned owner).map OwnedLeaf.token = n.leaves
  | .token t => rfl
  | .tree kind opening closing children => by
      rw [owned, leaves, List.map_append, List.map_append, map_token_ownedAll kind children,
        List.map_map, List.map_map]
      simp only [Function.comp_def, List.map_id']

theorem map_token_ownedAll (owner : TreeKind) :
    ∀ ns : List Node, (ownedAll owner ns).map OwnedLeaf.token = leavesAll ns
  | [] => rfl
  | n :: ns => by
      rw [ownedAll, leavesAll, List.map_append, map_token_owned owner n,
        map_token_ownedAll owner ns]

end

end Node

/-- The leaves of a tree, each with the kind of the tree that it belongs to. -/
def Tree.owned (t : Tree) : List OwnedLeaf := t.toNode.owned t.kind

/-! ### Where a leaf stands -/

namespace OwnedLeaf

/-- The text of some leaves. -/
def chars (xs : List OwnedLeaf) : List Char := xs.flatMap fun x => x.token.value.toList

/-- A marker at an end of its tree. -/
def isMarker (x : OwnedLeaf) : Bool := x.token.kind.isMarker

/-- A blank. -/
def isBlank (x : OwnedLeaf) : Bool := x.token.kind = .whitespace

/-- Neither a marker nor a blank. -/
def isSolid (x : OwnedLeaf) : Bool := !x.isMarker && !x.isBlank

theorem not_isMarker_of_isSolid {x : OwnedLeaf} (h : x.isSolid) : ¬ x.isMarker := by
  rw [isSolid, Bool.and_eq_true, Bool.not_eq_true'] at h
  simp [h.1]

/-- The blanks that come first, markers apart. -/
def blanksAhead (after : List OwnedLeaf) : List OwnedLeaf :=
  (after.dropWhile isMarker).takeWhile isBlank

/-- The blanks behind a leaf that its position counts as if they stood before it: the markers of
a block are placed at the code of a line, although its indentation stands behind them. -/
def overtaken (x : OwnedLeaf) (after : List OwnedLeaf) : List OwnedLeaf :=
  if x.owner = .block ∧ x.isMarker then blanksAhead after else []

/-- What holds of a leaf at a position, with the leaves behind it. -/
structure Stands (pos : Position) (x : OwnedLeaf) (after : List OwnedLeaf) : Prop where
  pos_eq : x.token.pos = pos.advance (chars (x.overtaken after))
  /-- Markers have no text. -/
  empty : x.isMarker → x.token.value = ""
  /-- A block begins with its indentation. -/
  indented : x.owner = .block → x.token.kind = .levelStart → chars (blanksAhead after) ≠ []

/-- Leaves stand in a row, with other leaves behind them. -/
def Stand : Position → List OwnedLeaf → List OwnedLeaf → Prop
  | _, [], _ => True
  | pos, x :: xs, behind =>
    Stands pos x (xs ++ behind) ∧ Stand (pos.advance x.token.value.toList) xs behind

@[simp] theorem chars_nil : chars [] = [] := rfl

@[simp] theorem chars_append (xs ys : List OwnedLeaf) : chars (xs ++ ys) = chars xs ++ chars ys :=
  List.flatMap_append

@[simp] theorem chars_cons (x : OwnedLeaf) (xs : List OwnedLeaf) :
    chars (x :: xs) = x.token.value.toList ++ chars xs := rfl

theorem stand_append {pos : Position} {xs ys behind : List OwnedLeaf} :
    Stand pos (xs ++ ys) behind ↔
      Stand pos xs (ys ++ behind) ∧ Stand (pos.advance (chars xs)) ys behind := by
  induction xs generalizing pos with
  | nil => simp [Stand]
  | cons x xs ih =>
      rw [List.cons_append, Stand, Stand, ih, chars_cons, Position.advance_append, and_assoc,
        List.append_assoc]

theorem Stand.stands {pos : Position} {before after : List OwnedLeaf} {x : OwnedLeaf}
    (h : Stand pos (before ++ x :: after) []) : Stands (pos.advance (chars before)) x after := by
  have hx := (stand_append.mp h).2.1
  rwa [List.append_nil] at hx

/-- What comes behind something solid does not matter. -/
theorem blanksAhead_append_solid (xs : List OwnedLeaf) {y : OwnedLeaf} (hy : y.isSolid)
    (ys : List OwnedLeaf) : blanksAhead (xs ++ y :: ys) = blanksAhead xs := by
  obtain ⟨hmarker, hblank⟩ : y.isMarker = false ∧ y.isBlank = false := by
    simpa [isSolid] using hy
  have hstop (zs : List OwnedLeaf) :
      (zs ++ y :: ys).takeWhile isBlank = zs.takeWhile isBlank := by
    induction zs with
    | nil => simp [hblank]
    | cons z zs ih =>
        rw [List.cons_append, List.takeWhile_cons, List.takeWhile_cons, ih]
  rw [blanksAhead, blanksAhead, List.dropWhile_append]
  split
  · next hmarkers =>
    rw [List.isEmpty_iff.mp hmarkers]
    simp [hmarker, hblank]
  · exact hstop _

theorem stands_append_solid {pos : Position} {x : OwnedLeaf} {xs : List OwnedLeaf} {y : OwnedLeaf}
    (hy : y.isSolid) (ys : List OwnedLeaf) :
    Stands pos x (xs ++ y :: ys) ↔ Stands pos x xs := by
  have hblanks := blanksAhead_append_solid xs hy ys
  have hovertaken : x.overtaken (xs ++ y :: ys) = x.overtaken xs := by
    rw [overtaken, overtaken, hblanks]
  constructor
  · intro h
    exact ⟨hovertaken ▸ h.pos_eq, h.empty, hblanks ▸ h.indented⟩
  · intro h
    exact ⟨hovertaken ▸ h.pos_eq, h.empty, hblanks ▸ h.indented⟩

theorem stand_append_solid {pos : Position} {xs : List OwnedLeaf} {y : OwnedLeaf} (hy : y.isSolid)
    (ys : List OwnedLeaf) : Stand pos xs (y :: ys) ↔ Stand pos xs [] := by
  induction xs generalizing pos with
  | nil => exact Iff.rfl
  | cons x xs ih => rw [Stand, Stand, ih, stands_append_solid hy, List.append_nil]

/-- Leaves stand in a row, whatever comes behind them. -/
def Settled (pos : Position) (xs : List OwnedLeaf) : Prop := ∀ behind, Stand pos xs behind

theorem Settled.append {pos : Position} {xs ys : List OwnedLeaf} (hxs : Settled pos xs)
    (hys : Settled (pos.advance (chars xs)) ys) : Settled pos (xs ++ ys) :=
  fun behind => stand_append.mpr ⟨hxs _, hys behind⟩

theorem settled_singleton {pos : Position} {x : OwnedLeaf} (hx : ¬ (x.owner = .block ∧ x.isMarker))
    (hpos : x.token.pos = pos) (hempty : x.isMarker → x.token.value = "") : Settled pos [x] := by
  refine fun behind => ⟨⟨?_, hempty, fun howner hstart => ?_⟩, trivial⟩
  · rw [overtaken, if_neg hx]
    exact hpos
  · exact absurd ⟨howner, by rw [isMarker, hstart]; rfl⟩ hx

/-- A leaf that goes on, at the end of a row, stands where it stood. -/
theorem Settled.replace_last {pos : Position} {xs : List OwnedLeaf} {y y' : OwnedLeaf}
    (h : Settled pos (xs ++ [y])) (hy : y.isSolid) (hy' : y'.isSolid)
    (hpos : y'.token.pos = y.token.pos) : Settled pos (xs ++ [y']) := by
  have hlast : y.token.pos = pos.advance (chars xs) := by
    have hpos := (stand_append.mp (h [])).2.1.pos_eq
    rwa [overtaken, if_neg fun hx => not_isMarker_of_isSolid hy hx.2, chars_nil,
      Position.advance_nil] at hpos
  intro behind
  refine stand_append.mpr ⟨?_, ?_⟩
  · have hxs := (stand_append.mp (h behind)).1
    exact (stand_append_solid hy' _).mpr ((stand_append_solid hy _).mp hxs)
  · exact settled_singleton (fun hx => not_isMarker_of_isSolid hy' hx.2) (hpos.trans hlast)
      (fun hx => absurd hx (not_isMarker_of_isSolid hy')) behind

/-- Leaves without text at one position, as those that close levels in front of a token. -/
def EndsAt (pos : Position) (xs : List OwnedLeaf) : Prop :=
  ∀ x ∈ xs, x.token.value = "" ∧ x.token.pos = pos

theorem EndsAt.chars_eq {pos : Position} {xs : List OwnedLeaf} (h : EndsAt pos xs) :
    chars xs = [] := by
  refine List.flatMap_eq_nil_iff.mpr fun x hx => ?_
  rw [(h x hx).1]
  rfl

theorem EndsAt.settled {pos : Position} {xs : List OwnedLeaf} (h : EndsAt pos xs)
    (howner : ∀ x ∈ xs, x.owner ≠ .block) : Settled pos xs := by
  induction xs with
  | nil => exact fun _ => trivial
  | cons x xs ih =>
      obtain ⟨hx, hxs⟩ := List.forall_mem_cons.mp h
      obtain ⟨hne, howner⟩ := List.forall_mem_cons.mp howner
      have hfirst : Settled pos [x] :=
        settled_singleton (fun hblock => hne hblock.1) hx.2 fun _ => hx.1
      have hchars : chars [x] = [] := EndsAt.chars_eq (List.forall_mem_singleton.mpr hx)
      rw [← List.singleton_append]
      exact hfirst.append (hchars ▸ ih hxs howner)

/-- Blanks stand in a row, whatever tree they belong to. -/
theorem settled_blanks {pos : Position} {ts : List Token} {cs : List Char} (h : Tiles pos ts cs)
    (hblank : ∀ t ∈ ts, t.kind = .whitespace) (owner : TreeKind) :
    Settled pos (ts.map (OwnedLeaf.mk owner)) := by
  induction ts generalizing pos cs with
  | nil => exact fun _ => trivial
  | cons t ts ih =>
      obtain ⟨ds, -, ht, hts⟩ := h
      obtain ⟨hkind, hblank⟩ := List.forall_mem_cons.mp hblank
      have hmarker : (OwnedLeaf.mk owner t).isMarker = false := by
        rw [isMarker, hkind]
        rfl
      have hfirst : Settled pos [OwnedLeaf.mk owner t] := by
        refine settled_singleton (fun hx => ?_) (congrArg Token.pos ht) fun hx => ?_
        · exact absurd hx.2 (by simp [hmarker])
        · exact absurd hx (by simp [hmarker])
      have hchars : chars [OwnedLeaf.mk owner t] = t.value.toList := List.append_nil _
      rw [List.map_cons, ← List.singleton_append]
      exact hfirst.append (hchars ▸ ih hts hblank)

theorem chars_of_tiles {pos : Position} {ts : List Token} {cs : List Char} (h : Tiles pos ts cs)
    (owner : TreeKind) : chars (ts.map (OwnedLeaf.mk owner)) = cs := by
  induction ts generalizing pos cs with
  | nil => exact h.symm
  | cons t ts ih =>
      obtain ⟨ds, rfl, -, hts⟩ := h
      rw [List.map_cons, chars_cons, ih hts]

theorem blanksAhead_markers {markers : List OwnedLeaf} (h : ∀ x ∈ markers, x.isMarker)
    (behind : List OwnedLeaf) : blanksAhead (markers ++ behind) = blanksAhead behind := by
  rw [blanksAhead, List.dropWhile_append_of_pos h, blanksAhead]

theorem blanksAhead_blanks {blanks : List OwnedLeaf} (h : ∀ x ∈ blanks, x.isBlank) :
    blanksAhead blanks = blanks := by
  have hdrop : blanks.dropWhile isMarker = blanks := by
    cases blanks with
    | nil => rfl
    | cons x blanks =>
        have hblank : x.token.kind = .whitespace :=
          of_decide_eq_true (h x List.mem_cons_self)
        rw [List.dropWhile_cons_of_neg]
        rw [isMarker, hblank]
        exact Bool.false_ne_true
  rw [blanksAhead, hdrop, List.takeWhile_eq_self_iff.mpr h]

/-- Markers of a block in front of an indentation stand where the indentation ends. -/
theorem stand_blockMarkers {pos : Position} {markers blanks : List OwnedLeaf} {y : OwnedLeaf}
    (hmarkers : ∀ x ∈ markers, x.owner = .block ∧ x.isMarker ∧ x.token.value = "" ∧
      x.token.pos = pos.advance (chars blanks) ∧
      (x.token.kind = .levelStart → chars blanks ≠ []))
    (hblanks : ∀ x ∈ blanks, x.isBlank) (hy : y.isSolid) (ys : List OwnedLeaf) :
    Stand pos markers (blanks ++ y :: ys) := by
  induction markers with
  | nil => trivial
  | cons x markers ih =>
      obtain ⟨⟨howner, hmarker, hempty, hpos, hstart⟩, hrest⟩ := List.forall_mem_cons.mp hmarkers
      have hahead : blanksAhead (markers ++ (blanks ++ y :: ys)) = blanks := by
        rw [blanksAhead_markers fun z hz => (hrest z hz).2.1, blanksAhead_append_solid _ hy,
          blanksAhead_blanks hblanks]
      refine ⟨⟨?_, fun _ => hempty, fun _ hk => ?_⟩, ?_⟩
      · rw [overtaken, if_pos ⟨howner, hmarker⟩, hahead]
        exact hpos
      · rw [hahead]
        exact hstart hk
      · rw [hempty]
        exact ih hrest

/-- The markers of the blocks that a line closes or opens, its indentation, and its first token. -/
theorem settled_line {pos : Position} {markers : List OwnedLeaf} {ts : List Token} {ds : List Char}
    {owner : TreeKind} {y : OwnedLeaf} (htiles : Tiles pos ts ds)
    (hblank : ∀ t ∈ ts, t.kind = .whitespace) (hat : EndsAt (pos.advance ds) markers)
    (hmarkers : ∀ x ∈ markers, x.owner = .block ∧ x.isMarker)
    (hstart : ∀ x ∈ markers, x.token.kind = .levelStart → ds ≠ []) (hy : y.isSolid)
    (hpos : y.token.pos = pos.advance ds) :
    Settled pos (markers ++ ts.map (OwnedLeaf.mk owner) ++ [y]) := by
  have hchars := chars_of_tiles htiles owner
  have hlast : Settled (pos.advance ds) [y] :=
    settled_singleton (fun hx => not_isMarker_of_isSolid hy hx.2) hpos
      fun hx => absurd hx (not_isMarker_of_isSolid hy)
  intro behind
  refine stand_append.mpr ⟨stand_append.mpr ⟨?_, ?_⟩, ?_⟩
  · refine stand_blockMarkers (fun x hx => ?_) (fun x hx => ?_) hy behind
    · obtain ⟨howner, hmarker⟩ := hmarkers x hx
      obtain ⟨hempty, hpos⟩ := hat x hx
      rw [hchars]
      exact ⟨howner, hmarker, hempty, hpos, hstart x hx⟩
    · obtain ⟨u, hu, rfl⟩ := List.mem_map.mp hx
      exact decide_eq_true (hblank u hu)
  · rw [hat.chars_eq]
    exact settled_blanks htiles hblank owner _
  · rw [chars_append, hat.chars_eq, hchars]
    exact hlast behind

/-- A marker behind all text. -/
structure IsLast (pos : Position) (x : OwnedLeaf) : Prop where
  marker : x.isMarker
  empty : x.token.value = ""
  pos_eq : x.token.pos = pos
  /-- Blocks have begun already. -/
  begun : ¬ (x.owner = .block ∧ x.token.kind = .levelStart)

/-- Markers behind all text stand in a row. -/
theorem stand_of_isLast {pos : Position} {markers : List OwnedLeaf}
    (h : ∀ x ∈ markers, IsLast pos x) : Stand pos markers [] := by
  induction markers with
  | nil => trivial
  | cons x markers ih =>
      obtain ⟨hx, hrest⟩ := List.forall_mem_cons.mp h
      have hahead : blanksAhead (markers ++ []) = [] :=
        blanksAhead_markers (fun z hz => (hrest z hz).marker) []
      have hovertaken : x.overtaken (markers ++ []) = [] := by
        rw [overtaken, hahead, ite_self]
      refine ⟨⟨?_, fun _ => hx.empty, fun howner hk => absurd ⟨howner, hk⟩ hx.begun⟩, ?_⟩
      · rw [hovertaken]
        exact hx.pos_eq
      · rw [hx.empty]
        exact ih hrest

end OwnedLeaf

end Nesting
