import Nesting.Query.Basic

/-! # Steps with one match at most

What the steps that look at single nodes match, without what they report: a step moves to a node,
looks at it, and goes on behind it. -/

namespace Nesting.Matcher

variable {κ : Type}

theorem all_token (kind : TokenKind) (test : ValueTest) (handler : Option (TokenHandler κ))
    (c : Checkpoint κ) :
    (token kind test handler c).all =
      ((if kind = .comment then c.seekComment else c.seek).bind fun at_ =>
        at_.cursor.node.token?.bind fun t =>
          if t.kind = kind && test.accepts t.value then
            some (at_.consume (handle handler at_.context t))
          else none).toList := by
  unfold token
  dsimp only
  cases if kind = .comment then c.seekComment else c.seek with
  | none => rfl
  | some at_ =>
      cases hnode : at_.cursor.node with
      | tree => simp [hnode, Node.token?, Matches.all]
      | token t =>
          simp only [hnode, Node.token?, Option.bind_some]
          split <;> rfl

theorem all_levelStart (c : Checkpoint κ) :
    (levelStart c).all =
      if c.endOfLevel = false ∧ c.cursor.node.tokenKind? = some .levelStart then
        [c.consume c.context]
      else [] := by
  unfold levelStart
  cases c.endOfLevel with
  | true => rfl
  | false =>
      by_cases hstart : c.cursor.node.tokenKind? = some .levelStart
      · simp [hstart, Matches.all]
      · simp [hstart, Matches.all]

theorem all_levelEnd (c : Checkpoint κ) :
    (levelEnd c).all =
      if c.endOfLevel then [c]
      else (c.seek.filter fun at_ => at_.cursor.node.tokenKind? = some .levelEnd).toList := by
  unfold levelEnd
  cases c.endOfLevel with
  | true => rfl
  | false =>
      cases c.seek with
      | none => rfl
      | some at_ =>
          by_cases hlast : at_.cursor.node.tokenKind? = some .levelEnd
          · simp [hlast, Matches.all, Option.filter]
          · simp [hlast, Matches.all, Option.filter]

theorem all_treeWith (name : String) (accepts : Tree → Bool) (handlers : TreeHandlers κ)
    (inside : Tree → Cursor → κ → List Event × Option κ) (c : Checkpoint κ) :
    (treeWith name accepts handlers inside c).all =
      (c.seek.bind fun at_ => at_.cursor.node.tree?.bind fun t =>
        if accepts t then
          (inside t at_.cursor (handle handlers.before at_.context t)).2.map fun context =>
            at_.consume (handle handlers.after context t)
        else none).toList := by
  unfold treeWith
  cases c.seek with
  | none => rfl
  | some at_ =>
      dsimp only [Option.bind_some]
      cases at_.cursor.node.tree? with
      | none => rfl
      | some t =>
          dsimp only [Option.bind_some]
          split
          · cases (inside t at_.cursor (handle handlers.before at_.context t)).2 <;> rfl
          · rfl

theorem all_treeWith_of_accepts {name : String} {accepts : Tree → Bool}
    {handlers : TreeHandlers κ} {inside : Tree → Cursor → κ → List Event × Option κ}
    {c at_ : Checkpoint κ} {t : Tree} (hseek : c.seek = some at_)
    (htree : at_.cursor.node.tree? = some t) (ht : accepts t) :
    (treeWith name accepts handlers inside c).all =
      ((inside t at_.cursor (handle handlers.before at_.context t)).2.map fun context =>
        at_.consume (handle handlers.after context t)).toList := by
  rw [all_treeWith, hseek, Option.bind_some, htree, Option.bind_some, if_pos ht]

/-! ### Pieces of strings -/

theorem foldToken_eq_some_iff {test : ValueTest} {handler : Option (TokenHandler κ)} {t : Token}
    {context context' : κ} : foldToken test handler t context = some context' ↔
      test.accepts t.value ∧ handle handler context t = context' := by
  unfold foldToken
  split
  · next haccepts => simp [haccepts]
  · next haccepts => simp [haccepts]

theorem run_text (test : ValueTest) (handler : Option (TokenHandler κ)) (c : Cursor) (context : κ) :
    ((Piece.text test handler).run c context).2 = c.node.token?.bind fun t =>
      if t.kind = .stringValue then foldToken test handler t context else none := by
  unfold Piece.run
  cases c.node <;> rfl

theorem run_template (m : Matcher κ) (c : Cursor) (context : κ) :
    ((Piece.template m).run c context).2 = c.node.tree?.bind fun t =>
      if t.kind = .template then
        c.down.bind fun d => (m (.start d context)).first?.map (·.context)
      else none := by
  unfold Piece.run
  cases c.node with
  | token => rfl
  | tree kind opening closing children =>
      cases kind with
      | template => cases c.down <;> rfl
      | _ => rfl

/-- Matches pieces with nodes one to one. -/
def foldPieces : List (Piece κ) → List Cursor → κ → Option κ
  | [], [], context => some context
  | p :: ps, c :: cs, context => (p.run c context).2.bind (foldPieces ps cs)
  | _, _, _ => none

theorem runPieces_eq (ps : List (Piece κ)) (cs : List Cursor) (context : κ) :
    (runPieces ps cs context).2 = foldPieces ps (cs.filter fun c => !c.node.isMarker) context := by
  induction cs generalizing ps context with
  | nil => cases ps <;> rfl
  | cons c cs ih =>
      rw [runPieces.eq_def]
      by_cases hmarker : c.node.isMarker
      · rw [List.filter_cons_of_neg (by simp [hmarker])]
        cases ps with
        | nil => simp only [if_pos hmarker, ih]
        | cons p ps => simp only [if_pos hmarker, ih]
      · rw [List.filter_cons_of_pos (by simp [hmarker])]
        cases ps with
        | nil => simp only [if_neg hmarker, foldPieces]
        | cons p ps =>
            simp only [if_neg hmarker, foldPieces]
            rcases p.run c context with ⟨log, _ | context'⟩
            · rfl
            · exact ih ps context'

end Nesting.Matcher
