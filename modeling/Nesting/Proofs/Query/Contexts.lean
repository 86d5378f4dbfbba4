import Nesting.Proofs.Query.Simulation
import Nesting.Proofs.Query.Single

/-! # Contexts are folded

No step looks into a context.  Two queries that differ in their handlers alone, where the handlers
of the second do to mapped contexts what those of the first do to contexts (`Step.Mirrors`), have
the same matches everywhere, with mapped contexts (`Step.agree_compile`).

For every form of steps this is `Matcher.Mirrors`, an instance of `Matcher.Simulates`. -/

namespace Nesting

variable {κ κ' : Type}

/-- A checkpoint with another context. -/
def Checkpoint.map (h : κ → κ') (c : Checkpoint κ) : Checkpoint κ' :=
  { cursor := c.cursor, context := h c.context, endOfLevel := c.endOfLevel, last := c.last }

/-- What one handler does to contexts, the other does to mapped contexts. -/
def Mirrored {β : Type} (h : κ → κ') : Option (κ → β → κ) → Option (κ' → β → κ') → Prop :=
  Option.Rel fun f g => ∀ c b, h (f c b) = g (h c) b

theorem handle_of_mirrored {β : Type} {h : κ → κ'} {f : Option (κ → β → κ)}
    {g : Option (κ' → β → κ')} (hfg : Mirrored h f g) (c : κ) (b : β) :
    handle g (h c) b = h (handle f c b) := by
  cases hfg with
  | none => rfl
  | some hfg => exact (hfg c b).symm

/-- What the handlers of one step do to contexts, those of the other do to mapped contexts. -/
structure TreeHandlers.Mirrors (h : κ → κ') (f : TreeHandlers κ) (g : TreeHandlers κ') : Prop where
  before : Mirrored h f.before g.before
  after : Mirrored h f.after g.after

namespace Checkpoint

variable {h : κ → κ'}

@[simp] theorem cursor_map (c : Checkpoint κ) : (c.map h).cursor = c.cursor := rfl

@[simp] theorem context_map (c : Checkpoint κ) : (c.map h).context = h c.context := rfl

@[simp] theorem endOfLevel_map (c : Checkpoint κ) : (c.map h).endOfLevel = c.endOfLevel := rfl

theorem seekBy_map (skip : Node → Bool) (c : Checkpoint κ) :
    (c.map h).seekBy skip = (c.seekBy skip).map (map h) := by
  unfold seekBy
  rw [endOfLevel_map]
  split
  · rfl
  · rw [Option.map_map]
    rfl

theorem consume_map (c : Checkpoint κ) (context : κ) :
    (c.map h).consume (h context) = (c.consume context).map h := by
  unfold consume
  rw [cursor_map]
  cases c.cursor.right <;> rfl

end Checkpoint

namespace Matcher

variable {h : κ → κ'}

/-- From mapped contexts a step has the matches of another one, with mapped contexts. -/
def Mirrors (h : κ → κ') : Matcher κ → Matcher κ' → Prop :=
  Simulates fun c d => c.map h = d

theorem mirrors_iff {m : Matcher κ} {n : Matcher κ'} :
    Mirrors h m n ↔ ∀ c, (n (c.map h)).all = (m c).all.map (·.map h) := by
  unfold Mirrors Simulates
  simp only [forall_eq', ← List.forall₂_map_left_iff (f := fun c : Checkpoint κ => c.map h),
    List.forall₂_eq_eq_eq]
  exact forall_congr' fun _ => eq_comm

theorem Mirrors.first? {m : Matcher κ} {n : Matcher κ'} (hmn : Mirrors h m n) (c : Checkpoint κ) :
    (n (c.map h)).first? = (m c).first?.map (·.map h) := by
  rw [← Matches.head?_all, ← Matches.head?_all, mirrors_iff.mp hmn, List.head?_map]

/-! ### Single nodes -/

theorem mirrors_token (kind : TokenKind) (test : ValueTest) {f : Option (TokenHandler κ)}
    {g : Option (TokenHandler κ')} (hfg : Mirrored h f g) :
    Mirrors h (token kind test f) (token kind test g) := by
  rw [mirrors_iff]
  intro c
  have hseek : (if kind = .comment then (c.map h).seekComment else (c.map h).seek) =
      (if kind = .comment then c.seekComment else c.seek).map (·.map h) := by
    split
    · exact Checkpoint.seekBy_map _ c
    · exact Checkpoint.seekBy_map _ c
  rw [all_token, all_token, hseek, Option.bind_map, ← Option.toList_map, Option.map_bind]
  congr 2
  funext at_
  rw [Function.comp_apply, Function.comp_apply, Checkpoint.cursor_map, Option.map_bind]
  congr 1
  funext t
  rw [Function.comp_apply]
  split
  · rw [Option.map_some, ← Checkpoint.consume_map, ← handle_of_mirrored hfg]
    rfl
  · rfl

theorem mirrors_levelStart : Mirrors h (levelStart : Matcher κ) (levelStart : Matcher κ') := by
  rw [mirrors_iff]
  intro c
  rw [all_levelStart, all_levelStart, Checkpoint.endOfLevel_map, Checkpoint.cursor_map]
  split
  · exact congrArg (fun d => [d]) (Checkpoint.consume_map c c.context)
  · rfl

theorem mirrors_levelEnd : Mirrors h (levelEnd : Matcher κ) (levelEnd : Matcher κ') := by
  rw [mirrors_iff]
  intro c
  have hseek : (c.map h).seek = c.seek.map (·.map h) := Checkpoint.seekBy_map _ c
  rw [all_levelEnd, all_levelEnd, hseek, Option.filter_map, Checkpoint.endOfLevel_map]
  split
  · rfl
  · rw [Option.toList_map]
    rfl

theorem mirrors_act {f : NodeHandler κ} {g : NodeHandler κ'}
    (hfg : ∀ c b, h (f c b) = g (h c) b) : Mirrors h (act f) (act g) := by
  rw [mirrors_iff]
  intro c
  show [{ c.map h with context := g (h c.context) c.last }] = _
  rw [← hfg]
  rfl

/-! ### Trees and strings -/

theorem mirrors_treeWith {name : String} {accepts : Tree → Bool} {f : TreeHandlers κ}
    {g : TreeHandlers κ'} {inside : Tree → Cursor → κ → List Event × Option κ}
    {inside' : Tree → Cursor → κ' → List Event × Option κ'} (hfg : f.Mirrors h g)
    (hinside : ∀ t cursor k, (inside' t cursor (h k)).2 = (inside t cursor k).2.map h) :
    Mirrors h (treeWith name accepts f inside) (treeWith name accepts g inside') := by
  rw [mirrors_iff]
  intro c
  have hseek : (c.map h).seek = c.seek.map (·.map h) := Checkpoint.seekBy_map _ c
  rw [all_treeWith, all_treeWith, hseek, Option.bind_map, ← Option.toList_map, Option.map_bind]
  congr 2
  funext at_
  rw [Function.comp_apply, Function.comp_apply, Checkpoint.cursor_map, Option.map_bind]
  congr 1
  funext t
  have hbefore : handle g.before (at_.map h).context t = h (handle f.before at_.context t) :=
    handle_of_mirrored hfg.before at_.context t
  rw [Function.comp_apply, hbefore]
  split
  · rw [hinside, Option.map_map, Option.map_map]
    congr 1
    funext context
    rw [Function.comp_apply, Function.comp_apply, ← Checkpoint.consume_map,
      handle_of_mirrored hfg.after]
  · rfl

theorem walk_of_mirrors {m : Matcher κ} {n : Matcher κ'} (hmn : Mirrors h m n)
    (limits : SearchLimits) (base fuel : ℕ) (pos : Option Cursor) (count : ℕ) (context : κ) :
    (walk n limits base fuel pos count (h context)).count =
      (walk m limits base fuel pos count context).count ∧
    (walk n limits base fuel pos count (h context)).context =
      h (walk m limits base fuel pos count context).context := by
  induction fuel generalizing pos count context with
  | zero => exact ⟨rfl, rfl⟩
  | succ fuel ih =>
      cases pos with
      | none => exact ⟨rfl, rfl⟩
      | some c =>
          have hfirst : (n (.start c (h context))).first? =
              (m (.start c context)).first?.map (·.map h) := hmn.first? (.start c context)
          unfold walk
          dsimp only
          rw [hfirst]
          cases (m (.start c context)).first? with
          | none => exact ih _ count context
          | some d =>
              dsimp only [Option.map_some]
              split
              · exact ⟨rfl, rfl⟩
              · exact ih (resume limits base c d) (count + 1) d.context

theorem search_of_mirrors {m : Matcher κ} {n : Matcher κ'} (hmn : Mirrors h m n)
    (limits : SearchLimits) (root : Cursor) (kind : TreeKind) (context : κ) :
    (search n limits root kind (h context)).2 = (search m limits root kind context).2.map h := by
  obtain ⟨hcount, hcontext⟩ := walk_of_mirrors hmn limits root.depth root.node.size
    (nextInOrder limits root.depth root) 0 context
  unfold search
  dsimp only
  rw [hcount, hcontext]
  split <;> rfl

theorem mirrors_tree (test : TreeTest) (limits : SearchLimits) {f : TreeHandlers κ}
    {g : TreeHandlers κ'} (hfg : f.Mirrors h g) :
    Mirrors h (tree test limits none f) (tree test limits none g) :=
  mirrors_treeWith hfg fun _ _ _ => rfl

theorem mirrors_treeSearch (test : TreeTest) (limits : SearchLimits) {m : Matcher κ}
    {n : Matcher κ'} (hmn : Mirrors h m n) {f : TreeHandlers κ} {g : TreeHandlers κ'}
    (hfg : f.Mirrors h g) :
    Mirrors h (tree test limits (some m) f) (tree test limits (some n) g) :=
  mirrors_treeWith hfg fun t cursor k => search_of_mirrors hmn limits cursor t.kind k

theorem foldToken_of_mirrored (test : ValueTest) {f : Option (TokenHandler κ)}
    {g : Option (TokenHandler κ')} (hfg : Mirrored h f g) (t : Token) (context : κ) :
    foldToken test g t (h context) = (foldToken test f t context).map h := by
  unfold foldToken
  split
  · rw [handle_of_mirrored hfg]
    rfl
  · rfl

theorem mirrors_string (test : ValueTest) {f : Option (TokenHandler κ)}
    {g : Option (TokenHandler κ')} (hfg : Mirrored h f g) :
    Mirrors h (string test f) (string test g) := by
  refine mirrors_treeWith ⟨.none, .none⟩ fun t _ k => ?_
  cases content? t with
  | none => rfl
  | some value => exact foldToken_of_mirrored test hfg value k

/-- Pieces of strings whose handlers mirror one another. -/
inductive Piece.Mirrors (h : κ → κ') : Piece κ → Piece κ' → Prop
  | text (test) {f g} : Mirrored h f g → Mirrors h (.text test f) (.text test g)
  | template {m n} : Matcher.Mirrors h m n → Mirrors h (.template m) (.template n)

theorem run_of_mirrors {p : Piece κ} {p' : Piece κ'} (hp : p.Mirrors h p') (c : Cursor)
    (context : κ) : (p'.run c (h context)).2 = (p.run c context).2.map h := by
  cases hp with
  | text test hfg =>
      rw [run_text, run_text, Option.map_bind]
      congr 1
      funext t
      rw [Function.comp_apply]
      split
      · exact foldToken_of_mirrored test hfg t context
      · rfl
  | @template m n hmn =>
      have hfirst (d : Cursor) : (n (.start d (h context))).first? =
          (m (.start d context)).first?.map (·.map h) := hmn.first? (.start d context)
      simp only [run_template, hfirst, Option.map_bind, Option.map_map]
      congr 1
      funext t
      rw [Function.comp_apply]
      split
      · rw [Option.map_bind]
        congr 1
        funext d
        rw [Function.comp_apply, Option.map_map]
        rfl
      · rfl

theorem foldPieces_of_mirrors {ps : List (Piece κ)} {ps' : List (Piece κ')}
    (hps : List.Forall₂ (Piece.Mirrors h) ps ps') (cs : List Cursor) (context : κ) :
    foldPieces ps' cs (h context) = (foldPieces ps cs context).map h := by
  induction hps generalizing cs context with
  | nil => cases cs <;> rfl
  | cons hp _ ih =>
      cases cs with
      | nil => rfl
      | cons c cs =>
          rw [foldPieces, foldPieces, run_of_mirrors hp, Option.bind_map, Option.map_bind]
          congr 1
          funext context'
          exact ih cs context'

theorem mirrors_pieces {ps : List (Piece κ)} {ps' : List (Piece κ')}
    (hps : List.Forall₂ (Piece.Mirrors h) ps ps') {f : TreeHandlers κ} {g : TreeHandlers κ'}
    (hfg : f.Mirrors h g) : Mirrors h (pieces ps f) (pieces ps' g) :=
  mirrors_treeWith hfg fun _ cursor k => by
    rw [runPieces_eq, runPieces_eq, foldPieces_of_mirrors hps]

theorem mirrors_repetition {m : Matcher κ} {n : Matcher κ'} (hmn : Mirrors h m n)
    (hm : m.Advances) (hn : n.Advances) (least : ℕ) (most : Option ℕ) :
    Mirrors h (repetition m least most) (repetition n least most) := by
  refine simulates_repetition (fun c d hcd => ?_) hm hn least most
  refine (hmn c d hcd).imp fun c' d' hcd' => ⟨hcd', ?_⟩
  rw [← hcd, ← hcd']
  rfl

end Matcher

/-! ### Queries -/

mutual

/-- The same step with other handlers: what the first ones do to contexts, these do to mapped
contexts. -/
inductive Step.Mirrors (h : κ → κ') : Step κ → Step κ' → Prop
  | token (kind pattern) {f g} : Mirrored h f g →
      Step.Mirrors h (.token kind pattern f) (.token kind pattern g)
  | many {body body'} (least most) : List.Forall₂ (Step.Mirrors h) body body' →
      Step.Mirrors h (.many body least most) (.many body' least most)
  | alt {branches branches'} : List.Forall₂ (List.Forall₂ (Step.Mirrors h)) branches branches' →
      Step.Mirrors h (.alt branches) (.alt branches')
  | tree (test limits) {f g} : f.Mirrors h g →
      Step.Mirrors h (.tree test limits none f) (.tree test limits none g)
  | treeSearch (test limits) {q q' f g} : List.Forall₂ (Step.Mirrors h) q q' → f.Mirrors h g →
      Step.Mirrors h (.tree test limits (some q) f) (.tree test limits (some q') g)
  | string (pattern) {f g} : Mirrored h f g → Step.Mirrors h (.string pattern f) (.string pattern g)
  | parts {ps ps' f g} : List.Forall₂ (Part.Mirrors h) ps ps' → f.Mirrors h g →
      Step.Mirrors h (.parts ps f) (.parts ps' g)
  | levelStart : Step.Mirrors h .levelStart .levelStart
  | levelEnd : Step.Mirrors h .levelEnd .levelEnd
  | act {f g} : (∀ c b, h (f c b) = g (h c) b) → Step.Mirrors h (.act f) (.act g)

/-- The same piece of a string with such other handlers. -/
inductive Part.Mirrors (h : κ → κ') : Part κ → Part κ' → Prop
  | content (pattern) {f g} : Mirrored h f g →
      Part.Mirrors h (.content pattern f) (.content pattern g)
  | template {q q'} : List.Forall₂ (Step.Mirrors h) q q' →
      Part.Mirrors h (.template q) (.template q')

end

namespace Step

variable {h : κ → κ'}

mutual

/-- A step with such other handlers fails to compile for the same reason, or does the same. -/
theorem agree_compile : ∀ {s : Step κ} {s' : Step κ'}, s.Mirrors h s' →
    Agree (Matcher.Mirrors h) s.compile s'.compile
  | .token kind pattern f, _, hs => by
    cases hs with
    | token _ _ hfg =>
      refine (Agree.refl pattern.compile).bind fun test _ htest => ?_
      exact htest ▸ .ok (Matcher.mirrors_token kind test hfg)
  | .many body least most, _, hs => by
    cases hs with
    | many _ _ hbody =>
      rw [compile, compile]
      split
      · exact .error _
      · refine (agree_compileSteps hbody).with_eq.bind fun ms ns ⟨hmns, hms, hns⟩ => .ok ?_
        exact Matcher.mirrors_repetition (Matcher.simulates_ofSteps hmns)
          (Matcher.Built.ofSteps (built_of_compileSteps hms)).advances
          (Matcher.Built.ofSteps (built_of_compileSteps hns)).advances least most
  | .alt branches, _, hs => by
    cases hs with
    | @alt _ branches' hbranches =>
      have hempty : branches'.isEmpty = branches.isEmpty := by cases hbranches <;> rfl
      rw [compile, compile, hempty]
      split
      · exact .error _
      · exact (agree_compileBranches hbranches).bind fun ms ns hmns =>
          .ok (Matcher.simulates_alternatives hmns)
  | .tree test limits none f, _, hs => by
    cases hs with
    | tree _ _ hfg => exact .ok (Matcher.mirrors_tree test limits hfg)
  | .tree test limits (some q) f, _, hs => by
    cases hs with
    | treeSearch _ _ hq hfg =>
      refine (agree_compileSteps hq).bind fun ms ns hmns => .ok ?_
      exact Matcher.mirrors_treeSearch test limits (Matcher.simulates_ofSteps hmns) hfg
  | .string pattern f, _, hs => by
    cases hs with
    | string _ hfg =>
      refine (Agree.refl pattern.compile).bind fun test _ htest => ?_
      exact htest ▸ .ok (Matcher.mirrors_string test hfg)
  | .parts sources f, _, hs => by
    cases hs with
    | parts hsources hfg =>
      exact (agree_compileParts hsources).bind fun ps ps' hps =>
        .ok (Matcher.mirrors_pieces hps hfg)
  | .levelStart, _, hs => by
    cases hs
    exact .ok Matcher.mirrors_levelStart
  | .levelEnd, _, hs => by
    cases hs
    exact .ok Matcher.mirrors_levelEnd
  | .act f, _, hs => by
    cases hs with
    | act hfg => exact .ok (Matcher.mirrors_act hfg)

theorem agree_compileSteps : ∀ {q : List (Step κ)} {q' : List (Step κ')},
    List.Forall₂ (Step.Mirrors h) q q' →
    Agree (List.Forall₂ (Matcher.Mirrors h)) (compileSteps q) (compileSteps q')
  | [], _, hq => by
    cases hq
    exact .ok .nil
  | s :: q, _, hq => by
    cases hq with
    | cons hs hq =>
      exact (agree_compile hs).bind fun m n hm =>
        (agree_compileSteps hq).bind fun ms ns hms => .ok (.cons hm hms)

theorem agree_compileBranches : ∀ {qs : List (List (Step κ))} {qs' : List (List (Step κ'))},
    List.Forall₂ (List.Forall₂ (Step.Mirrors h)) qs qs' →
    Agree (List.Forall₂ (Matcher.Mirrors h)) (compileBranches qs) (compileBranches qs')
  | [], _, hqs => by
    cases hqs
    exact .ok .nil
  | q :: qs, _, hqs => by
    cases hqs with
    | cons hq hqs =>
      exact (agree_compileSteps hq).bind fun ms ns hms =>
        (agree_compileBranches hqs).bind fun ms' ns' hms' =>
          .ok (.cons (Matcher.simulates_ofSteps hms) hms')

theorem agree_compileParts : ∀ {ps : List (Part κ)} {ps' : List (Part κ')},
    List.Forall₂ (Part.Mirrors h) ps ps' →
    Agree (List.Forall₂ (Matcher.Piece.Mirrors h)) (compileParts ps) (compileParts ps')
  | [], _, hps => by
    cases hps
    exact .ok .nil
  | p :: ps, _, hps => by
    cases hps with
    | cons hp hps =>
      exact (agree_compilePart hp).bind fun m n hm =>
        (agree_compileParts hps).bind fun ms ns hms => .ok (.cons hm hms)

theorem agree_compilePart : ∀ {p : Part κ} {p' : Part κ'}, p.Mirrors h p' →
    Agree (Matcher.Piece.Mirrors h) (compilePart p) (compilePart p')
  | .content pattern f, _, hp => by
    cases hp with
    | content _ hfg =>
      refine (Agree.refl pattern.compile).bind fun test _ htest => ?_
      exact htest ▸ .ok (.text test hfg)
  | .template q, _, hp => by
    cases hp with
    | template hq =>
      exact (agree_compileSteps hq).bind fun ms ns hmns =>
        .ok (.template (Matcher.simulates_ofSteps hmns))

end

end Step

namespace Query

variable {h : κ → κ'} {q : Query κ} {q' : Query κ'}

theorem agree_build (hq : List.Forall₂ (Step.Mirrors h) q q') :
    Agree (Matcher.Mirrors h) q.build q'.build :=
  (Step.agree_compileSteps hq).map fun _ _ => Matcher.simulates_ofSteps

theorem isRootQuery_of_mirrors (hq : List.Forall₂ (Step.Mirrors h) q q') :
    q'.isRootQuery = q.isRootQuery := by
  cases hq with
  | nil => rfl
  | cons hs hq =>
      cases hq with
      | nil => cases hs <;> rfl
      | cons => cases hs <;> rfl

theorem agree_compile (hq : List.Forall₂ (Step.Mirrors h) q q') :
    Agree (Matcher.Mirrors h) q.compile q'.compile := by
  unfold compile
  rw [isRootQuery_of_mirrors hq]
  split
  · exact agree_build hq
  · exact agree_build (.cons (.treeSearch _ _ hq ⟨.none, .none⟩) .nil)

end Query

end Nesting
