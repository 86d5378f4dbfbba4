import Nesting.Proofs.Text.Place
import Nesting.Proofs.Text.Position

/-! # Line endings

Lines end with a line feed, or with a carriage return and a line feed.  `crlf` turns the first
spelling of a text into the second one, and `Place.withReturns` a place of the one text into the
same place of the other.  What is read between two places of the one text stands between the two
places of the other, spelled in its way (`Place.skip?_withReturns`), and ends at the same line and
column (`Position.advance_crlf`).

Only the second text has a place in the middle of a line ending (`Place.midway`).  So the tokens
of the two texts need not be the same ones up to their spelling: `Respells` says how they may
differ. -/

namespace Nesting

/-! ### Texts -/

/-- A text with a carriage return in front of each line feed. -/
def crlf (cs : List Char) : List Char :=
  cs.flatMap fun c => if c = '\n' then ['\r', '\n'] else [c]

@[simp] theorem crlf_nil : crlf [] = [] := rfl

@[simp] theorem crlf_newline_cons (cs : List Char) :
    crlf ('\n' :: cs) = '\r' :: '\n' :: crlf cs := rfl

theorem crlf_cons_of_ne {c : Char} (h : c ≠ '\n') (cs : List Char) :
    crlf (c :: cs) = c :: crlf cs := by
  rw [crlf, List.flatMap_cons, if_neg h]
  rfl

theorem crlf_append (cs ds : List Char) : crlf (cs ++ ds) = crlf cs ++ crlf ds :=
  List.flatMap_append

theorem crlf_eq_self {cs : List Char} (h : '\n' ∉ cs) : crlf cs = cs := by
  induction cs with
  | nil => rfl
  | cons c cs ih =>
      rw [List.mem_cons, not_or] at h
      rw [crlf_cons_of_ne (Ne.symm h.1), ih h.2]

theorem length_le_crlf (cs : List Char) : cs.length ≤ (crlf cs).length := by
  induction cs with
  | nil => exact Nat.le_refl 0
  | cons c cs ih =>
      by_cases hc : c = '\n'
      · subst hc
        simp only [crlf_newline_cons, List.length_cons]
        omega
      · rw [crlf_cons_of_ne hc]
        exact Nat.succ_le_succ ih

/-- Without its carriage returns, the text is the first one again. -/
theorem filter_crlf {cs : List Char} (h : '\r' ∉ cs) :
    (crlf cs).filter (· ≠ '\r') = cs := by
  induction cs with
  | nil => rfl
  | cons c cs ih =>
      rw [List.mem_cons, not_or] at h
      by_cases hc : c = '\n'
      · subst hc
        simpa using ih h.2
      · rw [crlf_cons_of_ne hc, List.filter_cons_of_pos (by simpa using Ne.symm h.1), ih h.2]

/-- A text without characters of line endings. -/
def OnOneLine (cs : List Char) : Prop := '\r' ∉ cs ∧ '\n' ∉ cs

instance (cs : List Char) : Decidable (OnOneLine cs) :=
  inferInstanceAs (Decidable ('\r' ∉ cs ∧ '\n' ∉ cs))

/-- The text stands at the end of a line. -/
def EndsLine (cs : List Char) : Prop := ∃ c ∈ ['\r', '\n'], cs.head? = some c

theorem endsLine_newline (cs : List Char) : EndsLine ('\n' :: cs) :=
  ⟨'\n', by decide, rfl⟩

theorem endsLine_crlf_newline (cs : List Char) : EndsLine (crlf ('\n' :: cs)) :=
  ⟨'\r', by decide, rfl⟩

/-- No text of a line stands at its end. -/
theorem EndsLine.eq_nil_of_isPrefix {cs ds : List Char} (h : EndsLine cs) (hd : OnOneLine ds)
    (hpre : ds <+: cs) : ds = [] := by
  obtain ⟨c, hc, hhead⟩ := h
  cases ds with
  | nil => rfl
  | cons d ds =>
      obtain ⟨rest, rfl⟩ := hpre
      obtain rfl : d = c := Option.some.inj hhead
      rcases List.mem_pair.mp hc with rfl | rfl
      · exact absurd List.mem_cons_self hd.1
      · exact absurd List.mem_cons_self hd.2

/-! ### Positions -/

namespace Position

/-- Two positions on the same line, in the same column. -/
def Beside (p q : Position) : Prop := q.line = p.line ∧ q.col = p.col

theorem Beside.step {p q : Position} (h : p.Beside q) (c : Char) :
    (p.step c).Beside (q.step c) := by
  unfold Position.step
  split
  · exact ⟨congrArg (· + 1) h.1, rfl⟩
  · exact ⟨h.1, congrArg (· + 1) h.2⟩

theorem Beside.advance {p q : Position} (h : p.Beside q) (cs : List Char) :
    (p.advance cs).Beside (q.advance cs) := by
  induction cs generalizing p q with
  | nil => exact h
  | cons c cs ih => exact ih (h.step c)

/-- Both spellings of a line ending lead to the start of the next line. -/
theorem advance_crlf {p q : Position} (h : p.Beside q) (cs : List Char) :
    (p.advance cs).Beside (q.advance (crlf cs)) := by
  induction cs generalizing p q with
  | nil => exact h
  | cons c cs ih =>
      by_cases hc : c = '\n'
      · subst hc
        exact ih (q := (q.step '\r').step '\n') ⟨congrArg (· + 1) h.1, rfl⟩
      · rw [crlf_cons_of_ne hc]
        exact ih (h.step c)

end Position

/-! ### Places -/

namespace Place

/-- The same place in the other spelling of a text, where so many line feeds are before it. -/
def respelled (d : Nat) (p : Place) : Place where
  index := p.index + d
  before := p.before
  after := crlf p.after

/-- The same place in the other spelling of a text that has so many line feeds. -/
def withReturns (n : Nat) (p : Place) : Place := p.respelled (n - p.after.count '\n')

/-- The place in the middle of the line ending that follows. -/
def midway (n : Nat) (p : Place) : Place where
  index := (p.withReturns n).index + 1
  before := some '\r'
  after := (crlf p.after).tail

/-- A place of a text without carriage returns, with no more than so many line feeds behind it. -/
structure Feeds (n : Nat) (p : Place) : Prop where
  free : '\r' ∉ p.after
  count : p.after.count '\n' ≤ n

variable {n : Nat} {p q : Place}

theorem Feeds.of_skip? {cs : List Char} (h : p.Feeds n) (hskip : p.skip? cs = some q) :
    q.Feeds n := by
  obtain ⟨hfree, hcount⟩ := h
  rw [after_of_skip? hskip] at hfree hcount
  rw [List.count_append] at hcount
  exact ⟨fun h => hfree (List.mem_append_right cs h), by omega⟩

theorem Feeds.free_of_skip? {cs : List Char} (h : p.Feeds n) (hskip : p.skip? cs = some q) :
    '\r' ∉ cs := fun hmem =>
  h.free (after_of_skip? hskip ▸ List.mem_append_left _ hmem)

theorem Feeds.ne_return {c : Char} {cs : List Char} (h : p.Feeds n) (hafter : p.after = c :: cs) :
    c ≠ '\r' := by
  rintro rfl
  exact h.free (hafter ▸ List.mem_cons_self)

theorem withReturns_start (cs : List Char) :
    (start cs).withReturns (cs.count '\n') = start (crlf cs) := by
  rw [start, withReturns, respelled, start, Nat.sub_self]

/-- A text without line endings stands in the one text where it stands in the other. -/
theorem skip?_respelled {cs : List Char} (h : OnOneLine cs) (d : Nat) (p : Place) :
    (p.respelled d).skip? cs = (p.skip? cs).map (respelled d) := by
  induction cs generalizing p with
  | nil => rfl
  | cons c cs ih =>
      obtain ⟨hreturn, hnewline⟩ := h
      rw [List.mem_cons, not_or] at hreturn hnewline
      rw [skip?, skip?]
      cases hafter : p.after with
      | nil => simp [respelled, hafter]
      | cons e rest =>
          by_cases he : e = '\n'
          · subst he
            simp [respelled, hafter, Ne.symm hreturn.1, Ne.symm hnewline.1]
          · by_cases hc : c = e
            · have ih := ih ⟨hreturn.2, hnewline.2⟩
                { index := p.index + 1, before := some e, after := rest }
              simp only [respelled, hafter, crlf_cons_of_ne he, hc, if_true, Nat.add_right_comm]
                at ih ⊢
              exact ih
            · simp [respelled, hafter, crlf_cons_of_ne he, hc]

theorem withReturns_of_skip? {cs : List Char} (h : OnOneLine cs) (hskip : p.skip? cs = some q) :
    q.withReturns n = q.respelled (n - p.after.count '\n') := by
  rw [withReturns, after_of_skip? hskip, List.count_append, List.count_eq_zero_of_not_mem h.2,
    Nat.zero_add]

theorem skip?_withReturns_of_onOneLine {cs : List Char} (h : OnOneLine cs) (n : Nat) (p : Place) :
    (p.withReturns n).skip? cs = (p.skip? cs).map (withReturns n) := by
  rw [withReturns, skip?_respelled h]
  cases hskip : p.skip? cs with
  | none => rfl
  | some q => exact congrArg some (withReturns_of_skip? h hskip).symm

/-- What is read in the one text stands in the other. -/
theorem skip?_withReturns {cs : List Char} (h : p.skip? cs = some q)
    (hn : p.after.count '\n' ≤ n) : (p.withReturns n).skip? (crlf cs) = some (q.withReturns n) := by
  induction cs generalizing p with
  | nil =>
      cases h
      rfl
  | cons c cs ih =>
      rw [skip?] at h
      split at h
      · cases h
      · next d rest hafter =>
        split at h
        · next hcd =>
          subst hcd
          rw [hafter] at hn
          by_cases hc : c = '\n'
          · subst hc
            rw [List.count_cons_self] at hn
            have ih := ih h (by dsimp only; omega)
            have hindex : p.index + (n - (rest.count '\n' + 1)) + 1 + 1 =
                p.index + 1 + (n - rest.count '\n') := by omega
            simp only [withReturns, respelled, crlf_newline_cons, skip?, hafter, if_true,
              List.count_cons_self, hindex] at ih ⊢
            exact ih
          · rw [List.count_cons_of_ne hc] at hn
            have ih := ih h hn
            have hindex : p.index + (n - rest.count '\n') + 1 =
                p.index + 1 + (n - rest.count '\n') := by omega
            simp only [withReturns, respelled, crlf_cons_of_ne hc, skip?, hafter, if_true,
              List.count_cons_of_ne hc, hindex] at ih ⊢
            exact ih
        · cases h

/-- A line ending is read in two halves. -/
theorem skip?_midway {m : Place} (h : p.skip? ['\n'] = some m) (hp : p.Feeds n) :
    (p.withReturns n).skip? ['\r'] = some (p.midway n) ∧
      (p.midway n).skip? ['\n'] = some (m.withReturns n) := by
  have hafter := after_of_skip? h
  have hboth := skip?_withReturns h hp.count
  have hfirst : (p.withReturns n).skip? ['\r'] = some (p.midway n) := by
    simp [withReturns, respelled, midway, skip?, hafter]
  refine ⟨hfirst, ?_⟩
  rw [show crlf ['\n'] = ['\r'] ++ ['\n'] from rfl, skip?_append, hfirst] at hboth
  exact hboth

theorem after_midway {cs : List Char} (h : p.after = '\n' :: cs) :
    (p.midway n).after = '\n' :: crlf cs := by
  rw [midway, h]
  rfl

end Place

/-! ### Tokens -/

/-- A text with carriage returns in front of its line feeds. -/
def withReturns (s : String) : String := String.ofList (crlf s.toList)

/-- A text without its carriage returns. -/
def withoutReturns (s : String) : String := String.ofList (s.toList.filter (· ≠ '\r'))

/-- A token without the carriage returns in its value, and with no more of its place than the
line. -/
def Token.withoutReturns (t : Token) : Token :=
  { t with
    value := Nesting.withoutReturns t.value
    pos := { offset := 0, line := t.pos.line, col := 0 } }

/-- The same token in the other spelling. -/
structure Token.Respelled (t t' : Token) : Prop where
  bare : t'.withoutReturns = t.withoutReturns
  free : '\r' ∉ t.value.toList
  value : t'.value.toList = crlf t.value.toList
  pos : t.pos.Beside t'.pos

/-- The tokens of a text and those of its other spelling. -/
inductive Respells : List Token → List Token → Prop
  | nil : Respells [] []
  | token {t t' ts ts'} : t.Respelled t' → Respells ts ts' → Respells (t :: ts) (t' :: ts')
  /-- Blanks in front of a newline take its carriage return. -/
  | blank {b b' n n' ts ts'} : b.kind = .whitespace → b'.withoutReturns = b.withoutReturns →
      n.kind = .newline → n'.withoutReturns = n.withoutReturns → Respells ts ts' →
      Respells (b :: n :: ts) (b' :: n' :: ts')
  /-- A string value ends in the middle of a line ending, and another one goes on. -/
  | value {t u v ts ts'} : u.kind = .stringValue → v.kind = .stringValue →
      t.Respelled (u.merge v) → Respells ts ts' → Respells (t :: ts) (u :: v :: ts')

theorem Respells.append {ts ts' us us' : List Token} (h : Respells ts ts') (h' : Respells us us') :
    Respells (ts ++ us) (ts' ++ us') := by
  induction h with
  | nil => exact h'
  | token ht _ ih => exact .token ht ih
  | blank hb hb' hn hn' _ ih => exact .blank hb hb' hn hn' ih
  | value hu hv ht _ ih => exact .value hu hv ht ih

theorem withoutReturns_make {kind : TokenKind} {cs ds : List Char} {pos pos' : Position}
    (hvalue : ds.filter (· ≠ '\r') = cs) (hpos : pos'.line = pos.line) :
    (Token.make kind (String.ofList ds) pos').withoutReturns =
      (Token.make kind (String.ofList cs) pos).withoutReturns := by
  have hcs : cs.filter (· ≠ '\r') = cs := by rw [← hvalue, List.filter_filter]; simp
  have hcount : ds.count '\n' = cs.count '\n' := by
    rw [← hvalue, List.count_filter (by decide)]
  simp only [Token.withoutReturns, Token.make, withoutReturns, String.toList_ofList, hpos, hcount,
    hvalue, hcs]

theorem respelled_make {kind : TokenKind} {cs : List Char} (hcs : '\r' ∉ cs) {pos pos' : Position}
    (h : pos.Beside pos') :
    (Token.make kind (String.ofList cs) pos).Respelled
      (Token.make kind (String.ofList (crlf cs)) pos') where
  bare := withoutReturns_make (filter_crlf hcs) h.1
  free := by rwa [Token.make, String.toList_ofList]
  value := by rw [Token.make, Token.make, String.toList_ofList, String.toList_ofList]
  pos := h

end Nesting
