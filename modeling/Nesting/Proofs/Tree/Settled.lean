import Nesting.Proofs.Tree.BlankLines

/-! # Settled indentation

A builder takes a token in two parts: it settles the indentation in front of the token
(`Builder.settled`), and then accepts it (`Builder.push_of_not_waits`).  Only blanks at the start of
a line are not accepted; they wait (`Builder.push_of_waits`).

Of a token that is not trivia, the first part needs no more than where it stands.  So two string
values in a row may as well be taken as one (`Builder.push_merge`). -/

namespace Nesting.Builder

/-- The builder when the indentation in front of a token is settled. -/
def settled (b : Builder) (t : Token) : Except BuildError Builder :=
  if b.indentBlocks && b.nesting = 0 then
    match t.kind, b.atLineStart with
    | .newline, _ => .ok { b.flush with indent := "", atLineStart := true }
    | .comment, true => .ok { b.flush with indent := "" }
    | _, true => do
      let b ← b.resolveIndent t
      return { b with atLineStart := false }
    | _, false => .ok b
  else .ok b

/-- A blank waits for the level that it belongs to. -/
structure Waits (b : Builder) (t : Token) : Prop where
  kind : t.kind = .whitespace
  blocks : b.indentBlocks
  nesting : b.nesting = 0
  line : b.atLineStart

variable {b : Builder} {t u v : Token}

theorem waits_begin (u : Token) : (b.begin u).Waits t ↔ b.Waits t := by
  obtain ⟨_, h⟩ := b.begin_eq u
  rw [h]
  exact ⟨fun h => ⟨h.kind, h.blocks, h.nesting, h.line⟩,
    fun h => ⟨h.kind, h.blocks, h.nesting, h.line⟩⟩

theorem push_of_waits (h : b.Waits t) :
    b.push t = .ok { b.begin t with
      indent := (b.begin t).indent ++ t.value
      waiting := (b.begin t).waiting ++ [t]
      previous := t } := by
  have h := (waits_begin t).mpr h
  unfold push
  dsimp only
  rw [if_pos (by simp [h.blocks, h.nesting]), h.kind, h.line]
  rfl

theorem push_of_not_waits (h : ¬ b.Waits t) :
    b.push t = (b.begin t).settled t >>= (·.accept t) := by
  have h : ¬ (b.begin t).Waits t := fun h' => h ((waits_begin t).mp h')
  unfold push settled
  generalize b.begin t = b₀ at h
  dsimp only
  split
  · next hblocks =>
    obtain ⟨hi, hn⟩ := Bool.and_eq_true_iff.mp hblocks
    have hn : b₀.nesting = 0 := of_decide_eq_true hn
    cases hl : b₀.atLineStart with
    | false => cases t.kind <;> rfl
    | true =>
        cases hk : t.kind with
        | whitespace => exact absurd ⟨hk, hi, hn, hl⟩ h
        | newline => rfl
        | comment => rfl
        | _ => cases b₀.resolveIndent t <;> rfl
  · rfl

/-! ### Where a token stands -/

theorem closeBlocks_congr (h : u.pos = t.pos) (indent : String) (indents : List String)
    (b : Builder) : closeBlocks u indent indents b = closeBlocks t indent indents b := by
  have hmarker : u.markerBefore .levelEnd = t.markerBefore .levelEnd :=
    congrArg (Token.marker .levelEnd) h
  induction indents generalizing b with
  | nil => rfl
  | cons top rest ih =>
      rw [closeBlocks, closeBlocks, hmarker]
      simp only [ih]

theorem resolveIndent_congr (h : u.pos = t.pos) (hb : b.Shaped) (hn : b.nesting = 0) :
    b.resolveIndent u = b.resolveIndent t := by
  have hopen (b₁ : Builder) (indent : String) : b₁.openBlock u indent = b₁.openBlock t indent := by
    rw [openBlock, openBlock, Token.markerBefore, Token.markerBefore, h]
  rw [resolveIndent_eq hb hn, resolveIndent_eq hb hn, closeBlocks_congr h, h]
  simp only [hopen]

theorem settled_congr (hpos : u.pos = t.pos) (hk : u.kind = t.kind) (hb : b.Shaped) :
    b.settled u = b.settled t := by
  unfold settled
  rw [hk]
  split
  · next hblocks =>
    have hn : b.nesting = 0 := of_decide_eq_true (Bool.and_eq_true_iff.mp hblocks).2
    rw [resolveIndent_congr hpos hb hn]
  · rfl

/-- Settling the indentation is what happens to it. -/
theorem laid_of_settled {b₁ : Builder} (hb : b.Shaped) (hnot : ¬ b.Waits t)
    (h : b.settled t = .ok b₁) : Laid t b b₁ := by
  unfold settled at h
  split at h
  · next hblocks =>
    obtain ⟨hi, hn⟩ := Bool.and_eq_true_iff.mp hblocks
    have hn : b.nesting = 0 := of_decide_eq_true hn
    split at h
    · next hk =>
      cases h
      exact .newline hi hn hk
    · next hk hl =>
      cases h
      exact .comment hi hn hl hk
    · next hl hnew hcomment =>
      obtain ⟨b₂, hresolve, h⟩ := bind_eq_ok_iff.mp h
      cases h
      have hblank : t.kind ≠ .whitespace := fun hk => hnot ⟨hk, hi, hn, hl⟩
      exact laid_of_resolveIndent hb hi hn hl
        (TokenKind.isTrivia_eq_false hnew hblank hcomment) hresolve
    · next hl hnew =>
      cases h
      exact .inside fun _ _ => ⟨hl, hnew⟩
  · next hblocks =>
    cases h
    exact .inside fun hi hn => absurd (by simp [hi, hn]) hblocks

/-! ### Two string values in a row -/

theorem settled_eq_of_line (hline : b.indentBlocks → b.atLineStart = false)
    (ht : t.kind = .stringValue) : b.settled t = .ok b := by
  unfold settled
  split
  · next hblocks => rw [ht, hline (Bool.and_eq_true_iff.mp hblocks).1]
  · rfl

theorem Accounted.push_value {ts : List Token} (hb : b.Accounted ts) (ht : t.kind = .stringValue)
    (hprev : b.previous.kind = .stringValue) : b.push t = .ok (b.coalesce t) := by
  obtain ⟨hline, hkind, children, -, last, hchildren, -⟩ := hb.value hprev
  have hbegin : b.begin t = b := by rw [Builder.begin, if_neg (by simp [hchildren])]
  rw [push_of_not_waits fun h => by simpa [ht] using h.kind, hbegin, settled_eq_of_line hline ht]
  exact if_pos (by simp [ht, hkind, hprev])

/-- Where a string value is the last child, two more are added to it one after the other. -/
theorem coalesce_coalesce {children : Array Node} {last : Token}
    (hchildren : b.current.children = children.push (.token last))
    (hlast : last.kind = .stringValue) (u v : Token) :
    (b.coalesce u).coalesce v = b.coalesce (u.merge v) := by
  rw [coalesce_of_back hchildren hlast u, coalesce_of_back hchildren hlast (u.merge v),
    ← Token.merge_assoc]
  refine coalesce_of_back ?_ (show (last.merge u).kind = .stringValue from hlast) v
  rfl

/-- A string value is a child of the level that a template closes into. -/
theorem exists_place_value (hb : b.Shaped) (pos : Position) :
    ∃ b₁ : Builder, ∀ t : Token, t.pos = pos → t.kind = .stringValue →
      b.place t = .ok (b₁.pushToken t) := by
  by_cases htemplate : b.current.kind = .template
  · obtain ⟨b₁, h₁, -, -⟩ := exists_closeTemplate hb htemplate (.marker .stringValue pos)
    refine ⟨b₁, fun t hpos ht => ?_⟩
    have hclose : b.closeTemplate t = .ok b₁ := by
      rw [← h₁]
      unfold closeTemplate Token.markerBefore
      rw [hpos]
      rfl
    unfold place
    rw [ht, htemplate]
    dsimp only
    rw [hclose]
    rfl
  · refine ⟨b, fun t _ ht => ?_⟩
    unfold place
    rw [ht]
    cases hkind : b.current.kind with
    | template => exact absurd hkind htemplate
    | _ => rfl

theorem accept_of_place {b₁ : Builder} (hprev : b.previous.kind ≠ .stringValue)
    (hplace : b.place t = .ok b₁) : b.accept t = .ok { b₁ with previous := t } := by
  unfold accept
  rw [if_neg (by simp [hprev]), hplace]
  rfl

/-- Behind a string value, two more are taken as one is. -/
theorem Accounted.push_merge_of_value {ts : List Token} (hb : b.Accounted ts)
    (hu : u.kind = .stringValue) (hv : v.kind = .stringValue)
    (hprev : b.previous.kind = .stringValue) : (b.push u >>= (·.push v)) = b.push (u.merge v) := by
  obtain ⟨-, -, children, -, last, hchildren, hlast, -⟩ := hb.value hprev
  have hpush := hb.push_value hu hprev
  have hprev₁ : (b.coalesce u).previous.kind = .stringValue := by
    rw [coalesce_of_back hchildren hlast]
    exact hlast
  have hnext := ((step_of_push hb.shaped hpush).accounted hb).push_value hv hprev₁
  rw [hpush, hb.push_value (show (u.merge v).kind = .stringValue from hu) hprev]
  exact hnext.trans (congrArg _ (coalesce_coalesce hchildren hlast u v))

/-- A string value that does not go on from the token before it is placed as a child. -/
theorem Accounted.exists_push_value {ts : List Token} (hb : b.Accounted ts)
    (hu : u.kind = .stringValue) (hprev : b.previous.kind ≠ .stringValue) :
    (∃ e, ∀ t : Token, t.pos = u.pos → t.kind = .stringValue → b.push t = .error e) ∨
      ∃ b₁ : Builder, ∀ t : Token, t.pos = u.pos → t.kind = .stringValue →
        b.push t = .ok { b₁.pushToken t with previous := t } := by
  have hb₀ := hb.shaped.begin u
  have hnot {t : Token} (ht : t.kind = .stringValue) : ¬ b.Waits t :=
    fun h => by simpa [ht] using h.kind
  have hpush {t : Token} (hpos : t.pos = u.pos) (ht : t.kind = .stringValue) :
      b.push t = (b.begin u).settled u >>= (·.accept t) := by
    have hbegin : b.begin t = b.begin u := by
      rw [Builder.begin, Builder.begin, Token.markerBefore, Token.markerBefore, hpos]
    rw [push_of_not_waits (hnot ht), hbegin, settled_congr hpos (ht.trans hu.symm) hb₀]
  cases hs : (b.begin u).settled u with
  | error e => exact .inl ⟨e, fun t hpos ht => by rw [hpush hpos ht, hs]; rfl⟩
  | ok b₁ =>
      have hlaid := laid_of_settled hb₀ (fun h => hnot hu ((waits_begin u).mp h)) hs
      have hprev₁ : b₁.previous.kind ≠ .stringValue := by
        obtain ⟨_, hbegin⟩ := b.begin_eq u
        obtain ⟨_, _, _, _, _, _, rfl⟩ := hlaid.frame
        rw [hbegin]
        exact hprev
      obtain ⟨b₂, hplace⟩ := exists_place_value (hlaid.shaped hb₀) u.pos
      refine .inr ⟨b₂, fun t hpos ht => ?_⟩
      rw [hpush hpos ht, hs]
      exact accept_of_place hprev₁ (hplace t hpos ht)

/-- Two string values in a row may as well be taken as one. -/
theorem Accounted.push_merge {ts : List Token} (hb : b.Accounted ts) (hu : u.kind = .stringValue)
    (hv : v.kind = .stringValue) : (b.push u >>= (·.push v)) = b.push (u.merge v) := by
  by_cases hprev : b.previous.kind = .stringValue
  · exact hb.push_merge_of_value hu hv hprev
  rcases hb.exists_push_value hu hprev with ⟨e, hpush⟩ | ⟨b₁, hpush⟩
  · rw [hpush u rfl hu, hpush (u.merge v) rfl hu]
    rfl
  · have hu₁ := hpush u rfl hu
    have hnext := ((step_of_push hb.shaped hu₁).accounted hb).push_value hv hu
    have hchildren : ({ b₁.pushToken u with previous := u } : Builder).current.children =
      b₁.current.children.push (.token u) := rfl
    rw [hu₁, hpush (u.merge v) rfl hu]
    exact hnext.trans (congrArg _ (coalesce_of_back hchildren hu v))

end Nesting.Builder
