import Nesting.Proofs.Cursor.Layout
import Nesting.Proofs.Query.Simulation
import Nesting.Proofs.Query.Single

/-! # Queries do not see layout

A query that asks for no comments, and whose handlers read no more of a token than its text, does
the same on a tree and on its skeleton (`Step.ignoresLayout_compile`): from aligned checkpoints
its matches are aligned.

A search on the tree visits more positions, and it may find from layout what the search on the
skeleton finds from the next node.  As long as the query consumes something with every match, the
two go on from aligned positions (`Matcher.walked_of_aligned`). -/

namespace Nesting

variable {κ : Type}

/-! ### Checkpoints -/

namespace Checkpoint

/-- A checkpoint in a tree and one in its skeleton, with the same ahead of them and with the same
context. -/
structure Aligned (c d : Checkpoint κ) : Prop where
  cursor : c.cursor.Aligned d.cursor
  context : d.context = c.context
  inside : c.endOfLevel = false
  inside' : d.endOfLevel = false

theorem aligned_start {c d : Cursor} (h : c.Aligned d) (context : κ) :
    (start c context).Aligned (start d context) := ⟨h, rfl, rfl, rfl⟩

theorem skipNodes_of_not_skip {skip : Node → Bool} {c : Cursor} (h : skip c.node = false)
    (ns : List Node) : skipNodes skip ns c = some c := by
  cases ns <;> simp [skipNodes, h]

theorem skipNodes_of_skip {skip : Node → Bool} {c d : Cursor} (h : skip c.node)
    (hright : c.right = some d) : skipNodes skip c.after c = skipNodes skip d.after d := by
  rw [Cursor.after_right hright, skipNodes, if_pos h, hright]
  rfl

/-- Both cursors move to the next node that is not passed over. -/
theorem exists_skipNodes {c d : Cursor} (h : c.Aligned d) :
    ∃ c' d', skipNodes Node.isMinor c.after c = some c' ∧
      skipNodes Node.isMinor d.after d = some d' ∧ c'.Aligned d' ∧ c'.node.isMinor = false := by
  induction hn : c.after.length using Nat.strong_induction_on generalizing c d with
  | h n ih =>
    have closer {c' : Cursor} (hright : c.right = some c') : c'.after.length < n := by
      rw [← hn, Cursor.after_right hright]
      exact Nat.lt_succ_self _
    cases h.view with
    | layout t c' hnode htrivia hright hc' =>
        have hminor : c.node.isMinor := by
          rw [hnode]
          exact Bool.or_eq_true_iff.mpr (.inl htrivia)
        rw [skipNodes_of_skip hminor hright]
        exact ih _ (closer hright) hc' rfl
    | last p q hlast hnode =>
        have hminor : c.node.isMinor = false := by
          rw [Node.isMinor, hlast]
          rfl
        have hminor' : d.node.isMinor = false := by rw [hnode, Node.isMinor_skeleton, hminor]
        exact ⟨c, d, skipNodes_of_not_skip hminor _, skipNodes_of_not_skip hminor' _, h, hminor⟩
    | meets hmeets hdepth =>
        have hsame : d.node.isMinor = c.node.isMinor := by rw [hmeets.node, Node.isMinor_skeleton]
        cases hminor : c.node.isMinor with
        | false =>
            rw [hminor] at hsame
            exact ⟨c, d, skipNodes_of_not_skip hminor _, skipNodes_of_not_skip hsame _, h, hminor⟩
        | true =>
            rw [hminor] at hsame
            obtain ⟨c', d', hright, hright', hc'⟩ := hmeets.right hdepth
            rw [skipNodes_of_skip hminor hright, skipNodes_of_skip hsame hright']
            exact ih _ (closer hright) hc' rfl

theorem Aligned.exists_seek {c d : Checkpoint κ} (h : c.Aligned d) :
    ∃ c' d', c.seek = some c' ∧ d.seek = some d' ∧ c'.Aligned d' ∧
      c'.cursor.node.isMinor = false := by
  obtain ⟨c', d', hc', hd', hcursor, hminor⟩ := exists_skipNodes h.cursor
  refine ⟨{ c with cursor := c' }, { d with cursor := d' }, ?_, ?_,
    ⟨hcursor, h.context, h.inside, h.inside'⟩, hminor⟩
  · rw [seek, seekBy, h.inside, if_neg Bool.false_ne_true, hc']
    rfl
  · rw [seek, seekBy, h.inside', if_neg Bool.false_ne_true, hd']
    rfl

theorem aligned_consume {c d : Checkpoint κ} (h : c.cursor.Meets d.cursor)
    (hdepth : c.cursor.depth ≠ 0) (context : κ) :
    (c.consume context).Aligned (d.consume context) := by
  obtain ⟨c', d', hc', hd', hcursor⟩ := h.right hdepth
  rw [consume, consume, hc', hd']
  exact ⟨hcursor, rfl, rfl, rfl⟩

end Checkpoint

theorem Cursor.Aligned.meets {c d : Cursor} (h : c.Aligned d) (hminor : c.node.isMinor = false) :
    d.node = c.node.skeleton ∧
      (c.node.tokenKind? ≠ some .levelEnd → c.Meets d ∧ c.depth ≠ 0) := by
  cases h.view with
  | layout t c' hnode htrivia =>
      rw [hnode] at hminor
      exact absurd (Bool.or_eq_true_iff.mpr (.inl htrivia)) (Bool.eq_false_iff.mp hminor)
  | last p q hlast hnode => exact ⟨hnode, fun h => absurd hlast h⟩
  | meets hmeets hdepth => exact ⟨hmeets.node, fun _ => ⟨hmeets, hdepth⟩⟩

/-- A handler reads no more of a token than its text. -/
def ReadsText (handler : Option (TokenHandler κ)) : Prop :=
  ∀ context t u, t.value = u.value → handle handler context t = handle handler context u

namespace Matcher

/-! ### Steps -/

/-- A step does the same on a tree and on its skeleton. -/
def IgnoresLayout (m : Matcher κ) : Prop := Simulates Checkpoint.Aligned m m

theorem ignoresLayout_token {kind : TokenKind} (hcomment : kind ≠ .comment)
    (hend : kind ≠ .levelEnd) (test : ValueTest) {handler : Option (TokenHandler κ)}
    (hhandler : ReadsText handler) : (token kind test handler).IgnoresLayout := by
  intro c d hcd
  obtain ⟨c', d', hc', hd', h, hminor⟩ := hcd.exists_seek
  obtain ⟨hnode, hmeets⟩ := h.cursor.meets hminor
  rw [all_token, all_token, if_neg hcomment, if_neg hcomment, hc', hd', Option.bind_some,
    Option.bind_some, hnode, Node.token?_skeleton]
  cases htoken : c'.cursor.node.token? with
  | none => exact .nil
  | some t =>
      have hvalue : t.unplaced.value = t.value := rfl
      rw [Option.map_some, Option.bind_some, Option.bind_some, h.context, hvalue,
        hhandler _ _ _ hvalue]
      by_cases hpass : t.kind = kind && test.accepts t.value
      · rw [if_pos hpass, if_pos (show t.unplaced.kind = kind && _ from hpass)]
        obtain ⟨hkind, -⟩ := Bool.and_eq_true_iff.mp hpass
        have hne : c'.cursor.node.tokenKind? ≠ some .levelEnd := by
          rw [Node.tokenKind?, htoken]
          exact fun heq => hend ((of_decide_eq_true hkind).symm.trans (Option.some.inj heq))
        obtain ⟨hmeets, hdepth⟩ := hmeets hne
        exact .cons (Checkpoint.aligned_consume hmeets hdepth _) .nil
      · rw [if_neg hpass, if_neg (show ¬ (t.unplaced.kind = kind && _) = true from hpass)]
        exact .nil

theorem ignoresLayout_levelStart : (levelStart : Matcher κ).IgnoresLayout := by
  intro c d hcd
  rw [all_levelStart, all_levelStart, hcd.inside, hcd.inside']
  simp only [hcd.cursor.levelStart_iff]
  split
  · next hstart =>
    cases hcd.cursor.view with
    | layout t c' hnode htrivia =>
        rw [hnode] at hstart
        have htrivia : t.kind.isTrivia := htrivia
        rw [show t.kind = .levelStart from Option.some.inj hstart.2] at htrivia
        cases htrivia
    | last p q hlast => rw [hlast] at hstart; cases hstart.2
    | meets hmeets hdepth =>
        rw [hcd.context]
        exact .cons (Checkpoint.aligned_consume hmeets hdepth _) .nil
  · exact .nil

theorem ignoresLayout_levelEnd : (levelEnd : Matcher κ).IgnoresLayout := by
  intro c d hcd
  obtain ⟨c', d', hc', hd', h, hminor⟩ := hcd.exists_seek
  rw [all_levelEnd, all_levelEnd, hcd.inside, hcd.inside', hc', hd',
    if_neg Bool.false_ne_true, if_neg Bool.false_ne_true, Option.filter, Option.filter,
    (h.cursor.meets hminor).1, Node.tokenKind?_skeleton]
  split
  · exact .cons h .nil
  · exact .nil

/-- What is inside a tree that passes a test does the same as what is inside its skeleton. -/
def SameInside (accepts : Tree → Bool) (inside : Tree → Cursor → κ → List Event × Option κ) :
    Prop :=
  ∀ t c d context, c.Meets d → c.node.tree? = some t → accepts t →
    (inside t.skeleton d context).2 = (inside t c context).2

theorem ignoresLayout_treeWith {name : String} {accepts : Tree → Bool}
    {inside : Tree → Cursor → κ → List Event × Option κ}
    (haccepts : ∀ t, accepts t.skeleton = accepts t) (hinside : SameInside accepts inside) :
    (treeWith name accepts {} inside).IgnoresLayout := by
  intro c d hcd
  obtain ⟨c', d', hc', hd', h, hminor⟩ := hcd.exists_seek
  obtain ⟨hnode, hmeets⟩ := h.cursor.meets hminor
  rw [all_treeWith, all_treeWith, hc', hd', Option.bind_some, Option.bind_some, hnode,
    Node.tree?_skeleton]
  cases htree : c'.cursor.node.tree? with
  | none => exact .nil
  | some t =>
      obtain ⟨hmeets, hdepth⟩ := hmeets (by rw [Node.tokenKind?_of_tree? htree]; exact nofun)
      rw [Option.map_some, Option.bind_some, Option.bind_some, haccepts]
      split
      · next haccepted =>
        have hsame := hinside t c'.cursor d'.cursor c'.context hmeets htree haccepted
        have hbefore : (inside t.skeleton d'.cursor
            (handle ({} : TreeHandlers κ).before d'.context t.skeleton)).2 =
            (inside t c'.cursor c'.context).2 := by rw [← hsame, ← h.context]; rfl
        rw [hbefore]
        show List.Forall₂ _ (Option.map (fun context => c'.consume context)
          (inside t c'.cursor c'.context).2).toList _
        cases (inside t c'.cursor c'.context).2 with
        | none => exact .nil
        | some context => exact .cons (Checkpoint.aligned_consume hmeets hdepth context) .nil
      · exact .nil

/-! ### Searches -/

section Searches

variable {m : Matcher κ} {limits : SearchLimits} {base : ℕ}

theorem nextAfter_of_beside {c d : Cursor} (h : c.Beside d) (base fuel : ℕ) :
    Option.Rel Cursor.Aligned (nextAfter base fuel c) (nextAfter base fuel d) := by
  cases fuel with
  | zero => exact .none
  | succ fuel =>
      rw [nextAfter, nextAfter, h.depth_eq]
      split
      · exact .none
      · next hbase =>
        obtain ⟨c', d', hc', hd', haligned⟩ := h.right (by omega)
        rw [hc', hd']
        exact .some haligned

/-- Both searches go on into the node, or behind it. -/
theorem nextInOrder_of_meets {c d : Cursor} (h : c.Meets d) (limits : SearchLimits) (base : ℕ) :
    Option.Rel Cursor.Aligned (nextInOrder limits base c) (nextInOrder limits base d) := by
  have hskip := nextAfter_of_beside h.toBeside base c.depth
  rw [nextInOrder, nextInOrder, skipOver, skipOver, h.depth_eq]
  split
  · cases htree : c.node.tree? with
    | none =>
        have hc : c.down = none := by
          cases hnode : c.node with
          | token => rw [Cursor.down_eq_none_iff, hnode]; rfl
          | tree => rw [hnode] at htree; cases htree
        have hd : d.down = none := by
          cases hnode : c.node with
          | token => rw [Cursor.down_eq_none_iff, h.node, hnode]; rfl
          | tree => rw [hnode] at htree; cases htree
        rw [hc, hd, Option.none_or, Option.none_or]
        exact hskip
    | some t =>
        obtain ⟨c', d', hc', hd', haligned⟩ := h.down htree
        rw [hc', hd', Option.some_or, Option.some_or]
        exact .some haligned
  · exact hskip

/-- At the end of a level a search goes behind the tree. -/
theorem nextInOrder_of_last {c p : Cursor} (hlast : c.node.tokenKind? = some .levelEnd)
    (hright : c.right = none) (hup : c.up = some p) (limits : SearchLimits) (base : ℕ) :
    nextInOrder limits base c = nextAfter base p.depth p := by
  have hdown : c.down = none := by
    cases hnode : c.node with
    | token => rw [Cursor.down_eq_none_iff, hnode]; rfl
    | tree => rw [hnode] at hlast; cases hlast
  have hclimb : skipOver base c = nextAfter base p.depth p := by
    have hdepth := Cursor.depth_up hup
    rw [skipOver, hdepth, nextAfter, hright, hup]
    split
    · next hbase => exact (nextAfter_of_le (by omega) _).symm
    · rfl
  rw [nextInOrder, hdown, hclimb, Option.none_or, ite_self]

theorem nextInOrder_of_layout {c c' : Cursor} {t : Token} (hnode : c.node = .token t)
    (hright : c.right = some c') (hbase : base < c.depth) (limits : SearchLimits) :
    nextInOrder limits base c = some c' := by
  have hdown : c.down = none := by rw [Cursor.down_eq_none_iff, hnode]; rfl
  have hskip : skipOver base c = some c' := by
    obtain ⟨n, hn⟩ : ∃ n, c.depth = n + 1 := ⟨c.depth - 1, by omega⟩
    rw [skipOver, hn, nextAfter, if_neg (by omega), hright]
  rw [nextInOrder, hdown, hskip, Option.none_or, ite_self]

/-- With every match something is consumed. -/
def Consumes (m : Matcher κ) : Prop := ∀ c, ∀ d ∈ (m c).all, d.consumedSince c

theorem resume_of_consumed {c : Cursor} {context : κ} {d : Checkpoint κ}
    (hinside : d.endOfLevel = false) (h : d.consumedSince (.start c context))
    (limits : SearchLimits) (base : ℕ) : resume limits base c d = some d.cursor := by
  rw [Checkpoint.consumedSince, hinside, Bool.false_and, Bool.or_false] at h
  have h : (!d.cursor.isSamePosition c) = true := h
  have hsame : d.cursor.isSamePosition c = false := by simpa using h
  rw [resume, hinside, hsame, if_neg Bool.false_ne_true, if_neg Bool.false_ne_true]

/-- The walks over a tree and over its skeleton find as much, with the same contexts.  From layout
the first walk goes on alone after a miss. -/
theorem walked_of_aligned (hm : m.IgnoresLayout) (hadvances : m.Advances) (hconsumes : m.Consumes)
    {pos pos' : Option Cursor} {count : ℕ} {context : κ} {r r' : SearchResult κ}
    (h : Walked m limits base pos count context r) (h' : Walked m limits base pos' count context r')
    (hpos : Option.Rel Cursor.Aligned pos pos') (hplace : AtPlace limits base pos) :
    r'.count = r.count ∧ r'.context = r.context := by
  induction h generalizing pos' r' with
  | done =>
      cases hpos
      cases h'
      exact ⟨rfl, rfl⟩
  | @miss c count context r hfound _ ih =>
      cases hpos with
      | @some _ d haligned =>
        have hc := hplace c rfl
        have hnext := (positionsAfter_eq (Nat.le_of_lt hc.below) hc.admitted).1
        have hmiss : (m (.start d context)).first? = none := by
          have hfirst := hm.first? (Checkpoint.aligned_start haligned context)
          rw [hfound] at hfirst
          generalize (m (.start d context)).first? = found at hfirst
          cases hfirst
          rfl
        have later (hpos : Option.Rel Cursor.Aligned (nextInOrder limits base c)
            (nextInOrder limits base d)) : r'.count = r.count ∧ r'.context = r.context := by
          cases h' with
          | miss _ hlater =>
              obtain ⟨hcount, hcontext⟩ := ih hlater hpos hnext
              exact ⟨hcount, hcontext⟩
          | stop hfound' => rw [hmiss] at hfound'; cases hfound'
          | hit hfound' => rw [hmiss] at hfound'; cases hfound'
        cases haligned.view with
        | layout t c' hnode htrivia hright hc' =>
            rw [nextInOrder_of_layout hnode hright hc.below] at ih hnext
            exact ih h' (.some hc') hnext
        | last p q hlast hnode hright hright' hup hup' hbeside =>
            have hlast' : d.node.tokenKind? = some .levelEnd := by
              rw [hnode, Node.tokenKind?_skeleton, hlast]
            refine later ?_
            rw [nextInOrder_of_last hlast hright hup, nextInOrder_of_last hlast' hright' hup',
              hbeside.depth_eq]
            exact nextAfter_of_beside hbeside base p.depth
        | meets hmeets => exact later (nextInOrder_of_meets hmeets limits base)
  | @stop c count context e hfound hmost hstop =>
      cases hpos with
      | @some _ d haligned =>
        have hfirst := hm.first? (Checkpoint.aligned_start haligned context)
        rw [hfound] at hfirst
        cases h' with
        | miss hfound' => rw [hfound'] at hfirst; cases hfirst
        | stop hfound' =>
            rw [hfound'] at hfirst
            cases hfirst with
            | some he => exact ⟨rfl, he.context⟩
        | hit _ hgo => exact absurd ⟨hmost, hstop⟩ hgo
  | @hit c count context e r hfound hgo _ ih =>
      cases hpos with
      | @some _ d haligned =>
        have hc := hplace c rfl
        have hfirst := hm.first? (Checkpoint.aligned_start haligned context)
        rw [hfound] at hfirst
        cases h' with
        | miss hfound' => rw [hfound'] at hfirst; cases hfirst
        | stop _ hmost hstop => exact absurd ⟨hmost, hstop⟩ hgo
        | @hit _ _ _ e' _ hfound' _ hlater =>
            rw [hfound'] at hfirst
            cases hfirst with
            | some he =>
              have hresume := resume_of_consumed he.inside
                (hconsumes _ e (Matches.mem_all_of_first? hfound)) limits base
              have hresume' := resume_of_consumed he.inside'
                (hconsumes _ e' (Matches.mem_all_of_first? hfound')) limits base
              have hnext := (resume_eq hc (precedes_of_first? hadvances hfound)).1
              rw [hresume] at ih hnext
              rw [hresume', he.context] at hlater
              obtain ⟨hcount, hcontext⟩ := ih hlater (.some he.cursor) hnext
              exact ⟨hcount, hcontext⟩

theorem search_of_meets (hm : m.IgnoresLayout) (hadvances : m.Advances) (hconsumes : m.Consumes)
    (limits : SearchLimits) {c d : Cursor} (h : c.Meets d) (kind : TreeKind) (context : κ) :
    (search m limits d kind context).2 = (search m limits c kind context).2 := by
  have hstart := nextInOrder_of_meets h limits c.depth
  have hwalk := walked_search hadvances limits c context
  have hwalk' := walked_search hadvances limits d context
  rw [h.depth_eq] at hwalk'
  obtain ⟨hcount, hcontext⟩ := walked_of_aligned hm hadvances hconsumes hwalk hwalk' hstart
    (positions_eq limits c).1
  unfold search
  dsimp only
  rw [h.depth_eq, hcount, hcontext]

end Searches

/-! ### Trees and strings -/

theorem delimiterMatches_unplaced (wanted : Option String) (t : Option Token) :
    delimiterMatches wanted (t.map Token.unplaced) = delimiterMatches wanted t := by
  cases t <;> rfl

theorem accepts_skeleton (test : TreeTest) (t : Tree) :
    test.accepts t.skeleton = test.accepts t := by
  rw [TreeTest.accepts, TreeTest.accepts, Tree.skeleton, delimiterMatches_unplaced,
    delimiterMatches_unplaced]

theorem ignoresLayout_tree (test : TreeTest) (limits : SearchLimits) :
    (tree test limits none {} : Matcher κ).IgnoresLayout :=
  ignoresLayout_treeWith (accepts_skeleton test) fun _ _ _ _ _ _ _ => rfl

theorem ignoresLayout_treeSearch {m : Matcher κ} (hm : m.IgnoresLayout) (hadvances : m.Advances)
    (hconsumes : m.Consumes) (test : TreeTest) (limits : SearchLimits) :
    (tree test limits (some m) {}).IgnoresLayout :=
  ignoresLayout_treeWith (accepts_skeleton test) fun t _ _ context hmeets _ _ =>
    search_of_meets hm hadvances hconsumes limits hmeets t.kind context

/-- The text of a string is the text of its skeleton. -/
theorem content?_skeleton {t : Tree} (hkind : t.kind = .string) :
    Option.Rel (fun t u : Token => u.value = t.value) (content? t) (content? t.skeleton) := by
  have hchildren : t.skeleton.children = t.children.map Node.skeleton := by
    rw [Tree.skeleton, hkind, Node.skeletons_string]
  have hinner : t.skeleton.inner = t.inner.map Node.skeleton := by
    rw [Tree.inner, hchildren, List.filter_map, Tree.inner]
    congr 2
    funext n
    rw [Function.comp_apply, Node.isMarker_skeleton]
  unfold content?
  rw [hinner, hchildren]
  cases t.inner with
  | nil =>
      cases t.children with
      | nil => exact .none
      | cons n ns =>
          cases n with
          | token start => exact .some rfl
          | tree => exact .none
  | cons n ns =>
      cases ns with
      | cons => cases n <;> exact .none
      | nil =>
          cases n with
          | tree => exact .none
          | token value =>
              show Option.Rel _ (if value.kind = .stringValue then _ else _)
                (if value.kind = .stringValue then _ else _)
              split
              · exact .some rfl
              · exact .none

theorem foldToken_eq {test : ValueTest} {handler : Option (TokenHandler κ)}
    (hhandler : ReadsText handler) {t u : Token} (h : u.value = t.value) (context : κ) :
    foldToken test handler u context = foldToken test handler t context := by
  rw [foldToken, foldToken, h, hhandler context u t h]

theorem ignoresLayout_string (test : ValueTest) {handler : Option (TokenHandler κ)}
    (hhandler : ReadsText handler) : (string test handler).IgnoresLayout := by
  refine ignoresLayout_treeWith (fun _ => rfl) fun t _ _ context _ _ hkind => ?_
  have hcontent := content?_skeleton (eq_of_beq hkind)
  dsimp only
  generalize content? t = value, content? t.skeleton = value' at hcontent
  cases hcontent with
  | none => rfl
  | some hvalue => exact foldToken_eq hhandler hvalue context

/-- A piece matches the skeletons of what it matches. -/
def Piece.IgnoresLayout (p : Piece κ) : Prop :=
  ∀ c d context, c.Meets d → (p.run d context).2 = (p.run c context).2

theorem ignoresLayout_text (test : ValueTest) {handler : Option (TokenHandler κ)}
    (hhandler : ReadsText handler) : (Piece.text test handler).IgnoresLayout := by
  intro c d context h
  rw [run_text, run_text, h.node, Node.token?_skeleton]
  cases c.node.token? with
  | none => rfl
  | some t =>
      rw [Option.map_some, Option.bind_some, Option.bind_some,
        foldToken_eq hhandler (show t.unplaced.value = t.value from rfl)]
      rfl

theorem ignoresLayout_template {m : Matcher κ} (hm : m.IgnoresLayout) :
    (Piece.template m).IgnoresLayout := by
  intro c d context h
  rw [run_template, run_template, h.node, Node.tree?_skeleton]
  cases htree : c.node.tree? with
  | none => rfl
  | some t =>
      obtain ⟨c', d', hc', hd', haligned⟩ := h.down htree
      have hfirst := hm.first? (Checkpoint.aligned_start haligned context)
      rw [Option.map_some, Option.bind_some, Option.bind_some, hc', hd', Option.bind_some,
        Option.bind_some]
      show (if t.kind = .template then _ else _) = _
      split
      · generalize (m (.start c' context)).first? = found,
          (m (.start d' context)).first? = found' at hfirst
        cases hfirst with
        | none => rfl
        | some h => exact congrArg some h.context
      · rfl

theorem ignoresLayout_pieces {ps : List (Piece κ)} (hps : ∀ p ∈ ps, p.IgnoresLayout) :
    (pieces ps {}).IgnoresLayout := by
  refine ignoresLayout_treeWith (fun _ => rfl) fun t c d context hmeets htree hkind => ?_
  have hchildren := hmeets.children htree (eq_of_beq hkind)
  rw [runPieces_eq, runPieces_eq]
  clear hmeets htree hkind
  generalize (c.children.filter fun x => !x.node.isMarker) = cs,
    (d.children.filter fun x => !x.node.isMarker) = ds at hchildren
  induction hchildren generalizing ps context with
  | nil => cases ps <;> rfl
  | cons hcd _ ih =>
      cases ps with
      | nil => rfl
      | cons p ps =>
          obtain ⟨hp, hps⟩ := List.forall_mem_cons.mp hps
          rw [foldPieces, foldPieces, hp _ _ context hcd]
          exact Option.bind_congr fun context' _ => ih hps context'

/-! ### Repetitions -/

theorem ignoresLayout_repetition {m : Matcher κ} (hm : m.IgnoresLayout) (hadvances : m.Advances)
    (hconsumes : m.Consumes) (least : ℕ) (most : Option ℕ) :
    (repetition m least most).IgnoresLayout := by
  refine simulates_repetition (fun c d hcd => ?_) hadvances hadvances least most
  rw [List.forall₂_iff_zip]
  obtain ⟨hlength, haligned⟩ := List.forall₂_iff_zip.mp (hm c d hcd)
  refine ⟨hlength, fun {c' d'} hmem => ⟨haligned hmem, ?_⟩⟩
  obtain ⟨hc', hd'⟩ := List.of_mem_zip hmem
  exact iff_of_true (hconsumes c c' hc') (hconsumes d d' hd')

/-! ### Steps that consume -/

theorem consumedSince_consume {c at_ : Checkpoint κ} (h : c.Precedes at_)
    (hinside : at_.endOfLevel = false) (context : κ) : (at_.consume context).consumedSince c := by
  have hconsume := Checkpoint.precedes_consume hinside context
  have hrank : at_.rank < (at_.consume context).rank := by
    rw [Checkpoint.rank, Checkpoint.rank, Prod.Lex.toLex_lt_toLex, hinside, Checkpoint.consume]
    cases hright : at_.cursor.right with
    | none => exact .inr ⟨rfl, Bool.false_lt_true⟩
    | some cursor =>
        obtain ⟨_, i, -, -, hi, hi'⟩ := Cursor.path_right hright
        refine .inl ?_
        rw [hi, hi']
        exact Nat.lt_succ_self i
  exact (h.trans hconsume).consumedSince_iff.mpr (lt_of_le_of_lt h.rank_le hrank)

theorem consumes_token (kind : TokenKind) (test : ValueTest) (handler : Option (TokenHandler κ)) :
    (token kind test handler).Consumes := by
  intro c d hd
  rw [all_token, Option.mem_toList] at hd
  obtain ⟨at_, hseek, hd⟩ := Option.bind_eq_some_iff.mp hd
  obtain ⟨t, -, hd⟩ := Option.bind_eq_some_iff.mp hd
  obtain ⟨hprecedes, hinside⟩ : c.Precedes at_ ∧ at_.endOfLevel = false := by
    split at hseek
    · exact Checkpoint.precedes_of_seekBy hseek
    · exact Checkpoint.precedes_of_seekBy hseek
  split at hd
  · cases hd
    exact consumedSince_consume hprecedes hinside _
  · cases hd

theorem consumes_levelStart : (levelStart : Matcher κ).Consumes := by
  intro c d hd
  rw [all_levelStart] at hd
  split at hd
  · next hstart =>
    obtain rfl := List.mem_singleton.mp hd
    exact consumedSince_consume (.refl c) hstart.1 _
  · cases hd

theorem consumes_treeWith (name : String) (accepts : Tree → Bool) (handlers : TreeHandlers κ)
    (inside : Tree → Cursor → κ → List Event × Option κ) :
    (treeWith name accepts handlers inside).Consumes := by
  intro c d hd
  rw [all_treeWith, Option.mem_toList] at hd
  obtain ⟨at_, hseek, hd⟩ := Option.bind_eq_some_iff.mp hd
  obtain ⟨t, -, hd⟩ := Option.bind_eq_some_iff.mp hd
  obtain ⟨hprecedes, hinside⟩ := Checkpoint.precedes_of_seekBy hseek
  split at hd
  · obtain ⟨context, -, rfl⟩ := Option.map_eq_some_iff.mp hd
    exact consumedSince_consume hprecedes hinside _
  · cases hd

/-- Steps in a row consume something if the first one does. -/
theorem consumes_ofSteps {m : Matcher κ} {ms : List (Matcher κ)} (hm : m.Consumes)
    (hadvances : ∀ n ∈ m :: ms, n.Advances) : (ofSteps (m :: ms)).Consumes := by
  obtain ⟨hfirst, hlater⟩ := List.forall_mem_cons.mp hadvances
  intro c e he
  rw [all_ofSteps] at he
  obtain ⟨d, hd, he⟩ := List.mem_flatMap.mp he
  have hcd := hfirst c d hd
  have hde := advances_through hlater d e he
  have hrank := hcd.consumedSince_iff.mp (hm c d hd)
  exact (hcd.trans hde).consumedSince_iff.mpr (lt_of_lt_of_le hrank hde.rank_le)

end Matcher

/-! ### Queries -/

namespace Step

/-- Steps for a node, or for the start of a level. -/
def consumes : Step κ → Bool
  | .token .. | .tree .. | .string .. | .parts .. | .levelStart => true
  | .many .. | .alt .. | .levelEnd | .act _ => false

theorem consumes_of_compile {s : Step κ} (hs : s.consumes) {m : Matcher κ}
    (h : s.compile = .ok m) : m.Consumes := by
  cases s with
  | token kind pattern handler =>
      obtain ⟨test, -, h⟩ := bind_eq_ok_iff.mp h
      cases h
      exact Matcher.consumes_token kind test handler
  | tree test limits query handlers =>
      cases query with
      | none =>
          cases h
          exact Matcher.consumes_treeWith _ _ _ _
      | some q =>
          obtain ⟨ms, -, h⟩ := bind_eq_ok_iff.mp h
          cases h
          exact Matcher.consumes_treeWith _ _ _ _
  | string pattern handler =>
      obtain ⟨test, -, h⟩ := bind_eq_ok_iff.mp h
      cases h
      exact Matcher.consumes_treeWith _ _ _ _
  | parts ps handlers =>
      obtain ⟨ps, -, h⟩ := bind_eq_ok_iff.mp h
      cases h
      exact Matcher.consumes_treeWith _ _ _ _
  | levelStart =>
      cases h
      exact Matcher.consumes_levelStart
  | many => cases hs
  | alt => cases hs
  | levelEnd => cases hs
  | act => cases hs

/-- The first step is one for a node, or for the start of a level. -/
def consumesFirst (q : List (Step κ)) : Bool := q.head?.any consumes

theorem consumes_of_compileSteps {q : List (Step κ)} (hq : consumesFirst q)
    {ms : List (Matcher κ)} (h : compileSteps q = .ok ms) : (Matcher.ofSteps ms).Consumes := by
  have hbuilt := built_of_compileSteps h
  cases q with
  | nil => cases hq
  | cons s q =>
      obtain ⟨m, hm, h⟩ := bind_eq_ok_iff.mp h
      obtain ⟨ms, -, h⟩ := bind_eq_ok_iff.mp h
      cases h
      exact Matcher.consumes_ofSteps (consumes_of_compile hq hm) fun n hn => (hbuilt n hn).advances

end Step

mutual

/-- A step that asks for no comments and has no handlers but those that read the text of a token.
What is repeated or searched for begins with a step for a node, or for the start of a level. -/
inductive Step.IgnoresLayout : Step κ → Prop
  | token {kind pattern handler} : kind ∈ [.symbol, .operator, .number] → ReadsText handler →
      Step.IgnoresLayout (.token kind pattern handler)
  | many {body least most} : (∀ s ∈ body, Step.IgnoresLayout s) → Step.consumesFirst body →
      Step.IgnoresLayout (.many body least most)
  | alt {branches} : (∀ q ∈ branches, ∀ s ∈ q, Step.IgnoresLayout s) →
      Step.IgnoresLayout (.alt branches)
  | tree {test limits} : Step.IgnoresLayout (.tree test limits none {})
  | treeSearch {test limits q} : (∀ s ∈ q, Step.IgnoresLayout s) → Step.consumesFirst q →
      Step.IgnoresLayout (.tree test limits (some q) {})
  | string {pattern handler} : ReadsText handler → Step.IgnoresLayout (.string pattern handler)
  | parts {ps} : (∀ p ∈ ps, Part.IgnoresLayout p) → Step.IgnoresLayout (.parts ps {})
  | levelStart : Step.IgnoresLayout .levelStart
  | levelEnd : Step.IgnoresLayout .levelEnd

/-- The same for a piece of a string. -/
inductive Part.IgnoresLayout : Part κ → Prop
  | content {pattern handler} : ReadsText handler → Part.IgnoresLayout (.content pattern handler)
  | template {q} : (∀ s ∈ q, Step.IgnoresLayout s) → Part.IgnoresLayout (.template q)

end

/-- A query of such steps that begins with one for a node, or for the start of a level. -/
structure Query.IgnoresLayout (q : Query κ) : Prop where
  steps : ∀ s ∈ q, s.IgnoresLayout
  first : Step.consumesFirst q

namespace Step

mutual

theorem ignoresLayout_compile : ∀ {s : Step κ} {m : Matcher κ}, s.IgnoresLayout →
    s.compile = .ok m → m.IgnoresLayout
  | .token kind pattern handler, m, hs, h => by
    cases hs with
    | token hkind hhandler =>
      obtain ⟨test, -, h⟩ := bind_eq_ok_iff.mp h
      cases h
      refine Matcher.ignoresLayout_token ?_ ?_ test hhandler
      · rintro rfl
        exact absurd hkind (by decide)
      · rintro rfl
        exact absurd hkind (by decide)
  | .many body least most, m, hs, h => by
    cases hs with
    | many hbody hfirst =>
      rw [compile] at h
      split at h
      · cases h
      · obtain ⟨ms, hms, h⟩ := bind_eq_ok_iff.mp h
        cases h
        exact Matcher.ignoresLayout_repetition
          (Matcher.simulates_ofSteps (ignoresLayout_compileSteps hbody hms))
          (Matcher.Built.ofSteps (built_of_compileSteps hms)).advances
          (consumes_of_compileSteps hfirst hms) least most
  | .alt branches, m, hs, h => by
    cases hs with
    | alt hbranches =>
      rw [compile] at h
      split at h
      · cases h
      · obtain ⟨ms, hms, h⟩ := bind_eq_ok_iff.mp h
        cases h
        exact Matcher.simulates_alternatives (ignoresLayout_compileBranches hbranches hms)
  | .tree test limits none handlers, m, hs, h => by
    cases hs
    cases h
    exact Matcher.ignoresLayout_tree test limits
  | .tree test limits (some q) handlers, m, hs, h => by
    cases hs with
    | treeSearch hq hfirst =>
      obtain ⟨ms, hms, h⟩ := bind_eq_ok_iff.mp h
      cases h
      exact Matcher.ignoresLayout_treeSearch
        (Matcher.simulates_ofSteps (ignoresLayout_compileSteps hq hms))
        (Matcher.Built.ofSteps (built_of_compileSteps hms)).advances
        (consumes_of_compileSteps hfirst hms) test limits
  | .string pattern handler, m, hs, h => by
    cases hs with
    | string hhandler =>
      obtain ⟨test, -, h⟩ := bind_eq_ok_iff.mp h
      cases h
      exact Matcher.ignoresLayout_string test hhandler
  | .parts sources handlers, m, hs, h => by
    cases hs with
    | parts hsources =>
      obtain ⟨ps, hps, h⟩ := bind_eq_ok_iff.mp h
      cases h
      exact Matcher.ignoresLayout_pieces (ignoresLayout_compileParts hsources hps)
  | .levelStart, m, _, h => by
    cases h
    exact Matcher.ignoresLayout_levelStart
  | .levelEnd, m, _, h => by
    cases h
    exact Matcher.ignoresLayout_levelEnd
  | .act handler, m, hs, h => by cases hs

theorem ignoresLayout_compileSteps : ∀ {q : List (Step κ)} {ms : List (Matcher κ)},
    (∀ s ∈ q, s.IgnoresLayout) → compileSteps q = .ok ms →
    List.Forall₂ (Matcher.Simulates Checkpoint.Aligned) ms ms
  | [], ms, _, h => by
    cases h
    exact .nil
  | s :: q, ms, hq, h => by
    obtain ⟨hs, hq⟩ := List.forall_mem_cons.mp hq
    obtain ⟨m, hm, h⟩ := bind_eq_ok_iff.mp h
    obtain ⟨ms, hms, h⟩ := bind_eq_ok_iff.mp h
    cases h
    exact .cons (ignoresLayout_compile hs hm) (ignoresLayout_compileSteps hq hms)

theorem ignoresLayout_compileBranches : ∀ {qs : List (List (Step κ))} {ms : List (Matcher κ)},
    (∀ q ∈ qs, ∀ s ∈ q, s.IgnoresLayout) → compileBranches qs = .ok ms →
    List.Forall₂ (Matcher.Simulates Checkpoint.Aligned) ms ms
  | [], ms, _, h => by
    cases h
    exact .nil
  | q :: qs, ms, hqs, h => by
    obtain ⟨hq, hqs⟩ := List.forall_mem_cons.mp hqs
    obtain ⟨m, hm, h⟩ := bind_eq_ok_iff.mp h
    obtain ⟨ms, hms, h⟩ := bind_eq_ok_iff.mp h
    cases h
    exact .cons (Matcher.simulates_ofSteps (ignoresLayout_compileSteps hq hm))
      (ignoresLayout_compileBranches hqs hms)

theorem ignoresLayout_compileParts : ∀ {sources : List (Part κ)} {ps : List (Matcher.Piece κ)},
    (∀ p ∈ sources, p.IgnoresLayout) → compileParts sources = .ok ps →
    ∀ p ∈ ps, p.IgnoresLayout
  | [], ps, _, h => by
    cases h
    nofun
  | source :: sources, ps, hsources, h => by
    obtain ⟨hsource, hsources⟩ := List.forall_mem_cons.mp hsources
    obtain ⟨p, hp, h⟩ := bind_eq_ok_iff.mp h
    obtain ⟨ps, hps, h⟩ := bind_eq_ok_iff.mp h
    cases h
    exact List.forall_mem_cons.mpr
      ⟨ignoresLayout_compilePart hsource hp, ignoresLayout_compileParts hsources hps⟩

theorem ignoresLayout_compilePart : ∀ {source : Part κ} {p : Matcher.Piece κ},
    source.IgnoresLayout → compilePart source = .ok p → p.IgnoresLayout
  | .content pattern handler, p, hsource, h => by
    cases hsource with
    | content hhandler =>
      obtain ⟨test, -, h⟩ := bind_eq_ok_iff.mp h
      cases h
      exact Matcher.ignoresLayout_text test hhandler
  | .template q, p, hsource, h => by
    cases hsource with
    | template hq =>
      obtain ⟨ms, hms, h⟩ := bind_eq_ok_iff.mp h
      cases h
      exact Matcher.ignoresLayout_template
        (Matcher.simulates_ofSteps (ignoresLayout_compileSteps hq hms))

end

end Step

/-! ### Whole trees -/

namespace Matcher

/-- At the top of a tree nothing is passed over. -/
theorem run_treeWith (name : String) (accepts : Tree → Bool)
    (inside : Tree → Cursor → κ → List Event × Option κ) (n : Node) (id : ℕ) (context : κ) :
    ((treeWith name accepts {} inside).run (.top n id) context).1 = n.tree?.bind fun t =>
      if accepts t then (inside t (.top n id) context).2 else none := by
  unfold run
  dsimp only
  rw [← Matches.head?_all, all_treeWith]
  cases n with
  | token t =>
      show Option.map _ (List.head? (Option.toList (Option.bind (Option.map _
        (if (Node.token t).isMinor then none else some _)) _))) = _
      split <;> rfl
  | tree kind opening closing children =>
      let top := Checkpoint.start (.top (.tree kind opening closing children) id) context
      have hseek : top.seek = some top := rfl
      rw [show (Checkpoint.start _ context).seek = some top from hseek, Option.bind_some]
      show Option.map _ (List.head? (Option.toList
        (if accepts _ then Option.map _ (inside _ top.cursor context).2 else none))) =
        if accepts _ then (inside _ top.cursor context).2 else none
      split
      · cases (inside _ top.cursor context).2 <;> rfl
      · rfl

theorem run_skeleton {name : String} {accepts : Tree → Bool}
    {inside : Tree → Cursor → κ → List Event × Option κ}
    (haccepts : ∀ t, accepts t.skeleton = accepts t) (hinside : SameInside accepts inside)
    {n : Node} (hn : n.Framed) (id id' : ℕ) (context : κ) :
    ((treeWith name accepts {} inside).run (.top n.skeleton id') context).1 =
      ((treeWith name accepts {} inside).run (.top n id) context).1 := by
  have hmeets : (Cursor.top n id).Meets (.top n.skeleton id') := ⟨⟨rfl, nofun⟩, rfl, hn⟩
  rw [run_treeWith, run_treeWith, Node.tree?_skeleton]
  cases htree : n.tree? with
  | none => rfl
  | some t =>
      rw [Option.map_some, Option.bind_some, Option.bind_some, haccepts]
      split
      · next haccepted => exact hinside t _ _ context hmeets htree haccepted
      · rfl

end Matcher

/-- A step for a whole tree has the same result on the skeleton of the tree. -/
theorem Step.run_skeleton {test : TreeTest} {limits : SearchLimits} {query : Option (List (Step κ))}
    (hs : (Step.tree test limits query {}).IgnoresLayout) {m : Matcher κ}
    (hm : (Step.tree test limits query {}).compile = .ok m) {n : Node} (hn : n.Framed)
    (id id' : ℕ) (context : κ) :
    (m.run (.top n.skeleton id') context).1 = (m.run (.top n id) context).1 := by
  cases hs with
  | tree =>
      cases hm
      exact Matcher.run_skeleton (Matcher.accepts_skeleton test) (fun _ _ _ _ _ _ _ => rfl) hn
        id id' context
  | treeSearch hq hfirst =>
      obtain ⟨ms, hms, hm⟩ := bind_eq_ok_iff.mp hm
      cases hm
      refine Matcher.run_skeleton (Matcher.accepts_skeleton test) ?_ hn id id' context
      exact fun t _ _ context hmeets _ _ => Matcher.search_of_meets
        (Matcher.simulates_ofSteps (ignoresLayout_compileSteps hq hms))
        (Matcher.Built.ofSteps (built_of_compileSteps hms)).advances
        (consumes_of_compileSteps hfirst hms) limits hmeets t.kind context

namespace Query

theorem run_skeleton {q : Query κ} (hq : q.IgnoresLayout) {m : Matcher κ} (hm : q.compile = .ok m)
    {n : Node} (hn : n.Framed) (id id' : ℕ) (context : κ) :
    (m.run (.top n.skeleton id') context).1 = (m.run (.top n id) context).1 := by
  rw [compile] at hm
  split at hm
  · next hroot =>
    unfold isRootQuery at hroot
    split at hroot
    · next test limits query handlers =>
      have hs := hq.steps _ List.mem_cons_self
      rw [build_singleton] at hm
      cases hs with
      | tree => exact Step.run_skeleton .tree hm hn id id' context
      | treeSearch hsteps hfirst =>
          exact Step.run_skeleton (.treeSearch hsteps hfirst) hm hn id id' context
    · cases hroot
  · rw [inRoot, build_singleton] at hm
    exact Step.run_skeleton (.treeSearch hq.steps hq.first) hm hn id id' context

/-- **Queries do not see layout.**  A query that asks for no comments, whose handlers read no more
of a token than its text, and which begins with a step for a node or the start of a level, as all
that it repeats or searches for, has the same result on a tree and on the same tree with more
layout between the markers of its levels. -/
theorem run_of_spaced {q : Query κ} (hq : q.IgnoresLayout) {m : Matcher κ} (hm : q.compile = .ok m)
    {n n' : Node} (hn : n.Framed) (h : n.Spaced n') (id id' : ℕ) (context : κ) :
    (m.run (.top n' id') context).1 = (m.run (.top n id) context).1 := by
  calc (m.run (.top n' id') context).1
    _ = (m.run (.top n'.skeleton id') context).1 :=
      (run_skeleton hq hm (h.framed hn) id' id' context).symm
    _ = (m.run (.top n.skeleton id') context).1 := by rw [h.skeleton_eq]
    _ = (m.run (.top n id) context).1 := run_skeleton hq hm hn id id' context

/-- Symbols with operators between them. -/
def sums : Query (List String) :=
  let symbol : Step (List String) := .token .symbol .any (some fun k t => k ++ [t.value])
  [symbol, .many [.token .operator .any none, symbol] 0 none]

/-- A sum in a bracket without layout. -/
def closeSum : Node :=
  .tree .root none none [.token (.marker .levelStart {}),
    .tree .wrapped (some (.make .bracketLeft "(" {})) (some (.make .bracketRight ")" {}))
      [.token (.marker .levelStart {}), .token (.make .symbol "a" {}),
        .token (.make .operator "+" {}), .token (.make .symbol "b" {}),
        .token (.marker .levelEnd {})],
    .token (.marker .levelEnd {})]

/-- The same sum with layout, inside the bracket and before it. -/
def wideSum : Node :=
  .tree .root none none [.token (.marker .levelStart {}), .token (.make .newline "\n" {}),
    .tree .wrapped (some (.make .bracketLeft "(" {})) (some (.make .bracketRight ")" {}))
      [.token (.marker .levelStart {}), .token (.make .symbol "a" {}),
        .token (.make .whitespace " " {}), .token (.make .operator "+" { offset := 4 }),
        .token (.make .comment "# more\n" {}), .token (.make .symbol "b" {}),
        .token (.marker .levelEnd {})],
    .token (.marker .levelEnd {})]

/-- The symbols of the sum are found in spite of its layout. -/
theorem run_of_spaced_wideSum :
    closeSum.Framed ∧ closeSum.Spaced wideSum ∧ sums.IgnoresLayout ∧
    ∃ m, sums.compile = .ok m ∧ (m.run (.top wideSum 1) []).1 = some ["a", "b"] := by
  have hframed : closeSum.Framed :=
    .tree rfl (.cons rfl (.tree rfl (.cons rfl (.token _) (.cons rfl (.token _)
      (.cons rfl (.token _) (.last rfl))))) (.last rfl))
  have same (t : Token) : t.SameText t := ⟨rfl, rfl⟩
  have hsum : Node.Spread .wrapped
      [.token (.make .symbol "a" {}), .token (.make .operator "+" {}),
        .token (.make .symbol "b" {}), .token (.marker .levelEnd {})]
      [.token (.make .symbol "a" {}), .token (.make .whitespace " " {}),
        .token (.make .operator "+" { offset := 4 }), .token (.make .comment "# more\n" {}),
        .token (.make .symbol "b" {}), .token (.marker .levelEnd {})] :=
    .keep (.token (same _)) (.insert (by decide) rfl (.keep (.token ⟨rfl, rfl⟩)
      (.insert (by decide) rfl (.keep (.token (same _)) (.last (same _))))))
  have hspaced : closeSum.Spaced wideSum :=
    .tree .none .none (same _) (.insert (by decide) rfl (.keep
      (.tree (.some (same _)) (.some (same _)) (same _) hsum) (.last (same _))))
  have hreads : ReadsText (some fun (k : List String) (t : Token) => k ++ [t.value]) :=
    fun k t u h => congrArg (fun text => k ++ [text]) h
  have hsymbol : Step.IgnoresLayout
      (.token .symbol .any (some fun (k : List String) (t : Token) => k ++ [t.value])) :=
    .token (by decide) hreads
  have hquery : sums.IgnoresLayout := by
    refine ⟨List.forall_mem_cons.mpr ⟨hsymbol, List.forall_mem_singleton.mpr (.many ?_ rfl)⟩, rfl⟩
    exact List.forall_mem_cons.mpr ⟨.token (by decide) fun _ _ _ _ => rfl,
      List.forall_mem_singleton.mpr hsymbol⟩
  obtain ⟨m, hm, hresult⟩ : ∃ m, sums.compile = .ok m ∧
      (m.run (.top closeSum 0) []).1 = some ["a", "b"] := ⟨_, rfl, by decide +kernel⟩
  refine ⟨hframed, hspaced, hquery, m, hm, ?_⟩
  rw [run_of_spaced hquery hm hframed hspaced 0 1 [], hresult]

end Query

end Nesting
