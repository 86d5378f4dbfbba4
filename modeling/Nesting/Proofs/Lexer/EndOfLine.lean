import Nesting.Proofs.Lexer.Escapes
import Nesting.Proofs.Regex.LineEndings

/-! # The expressions that take line endings

Of the rules of a table few take a line ending: newlines, whitespace with joined lines, comments
over several lines, escapes, and what takes any character.  `Place.pastReturn` is where blanks end
in a text with carriage returns. -/

namespace Nesting

namespace Place

/-- Where a run of blanks in front of a place ends in the other spelling: a carriage return that
follows is one of them. -/
def pastReturn (n : Nat) (p : Place) : Place :=
  if p.after.head? = some '\n' then p.midway n else p.withReturns n

theorem onward_of_nil {p : Place} (h : p.after = []) : p.onward = [p] := by
  rw [onward, h, onward.go, ← h]

theorem onward_of_skip? {c : Char} {p q : Place} (h : p.skip? [c] = some q) :
    p.onward = p :: q.onward := by
  have hafter := after_of_skip? h
  have hq := skip?_of_next? (next?_of_after hafter)
  rw [h, Option.some.injEq] at hq
  rw [onward, hafter, List.singleton_append, onward.go]
  refine congrArg₂ List.cons (by rw [← List.singleton_append, ← hafter]) ?_
  rw [hq]
  rfl

/-- A text of one line is found at the same place first in both spellings. -/
theorem findSome?_onward_withReturns {n : Nat} {cs : List Char} (h : OnOneLine cs) (hne : cs ≠ [])
    {p : Place} (hp : p.Feeds n) :
    (p.withReturns n).onward.findSome? (skip? cs) =
      (p.onward.findSome? (skip? cs)).map (withReturns n) := by
  have hhere := skip?_withReturns_of_onOneLine h n
  generalize hafter : p.after = ds
  induction ds generalizing p with
  | nil =>
      have hafter' : (p.withReturns n).after = [] := congrArg crlf hafter
      rw [onward_of_nil hafter, onward_of_nil hafter', List.findSome?_singleton,
        List.findSome?_singleton, hhere]
  | cons d ds ih =>
      obtain ⟨m, hm, hrest⟩ := exists_skip?_of_cons hafter
      have ih := ih (hp.of_skip? hm) hrest
      rw [onward_of_skip? hm, List.findSome?_cons]
      by_cases hd : d = '\n'
      · subst hd
        obtain ⟨hreturn, hnewline⟩ := skip?_midway hm hp
        have hmidway : (p.midway n).skip? cs = none := by
          rw [← Option.not_isSome_iff_eq_none, ← prefix_iff_isSome_skip?]
          rw [after_of_skip? hnewline]
          exact fun hpre => hne ((endsLine_newline _).eq_nil_of_isPrefix h hpre)
        rw [onward_of_skip? hreturn, onward_of_skip? hnewline, List.findSome?_cons,
          List.findSome?_cons, hmidway, hhere, ih]
        cases p.skip? cs <;> rfl
      · have hm' := skip?_withReturns hm hp.count
        rw [crlf_cons_of_ne hd, crlf_nil] at hm'
        rw [onward_of_skip? hm', List.findSome?_cons, hhere, ih]
        cases p.skip? cs <;> rfl

end Place

namespace Regex

variable {n : Nat} {p q : Place}

theorem firstEnd?_alt (r s : Regex) (p : Place) :
    (r.alt s).firstEnd? p = (r.firstEnd? p).or (s.firstEnd? p) := by
  rw [firstEnd?, ends, head?_distinct, List.head?_append, firstEnd?, firstEnd?]

theorem firstEnd?_one (s : CharSet) (p : Place) :
    (one s).firstEnd? p = (p.next?.filter (s.mem ·.1)).map (·.2) := by
  rw [firstEnd?, ends]
  cases p.next? with
  | none => rfl
  | some next =>
      dsimp only
      split
      · next h => simp [Option.filter, h]
      · next h => simp [Option.filter, h]

/-- A loop that goes on as long as it can ends at one place. -/
theorem Exhausted.unique {body : Place → List Place} {a e e' : Place} (h : Exhausted body a e)
    (h' : Exhausted body a e') : e = e' := by
  induction h with
  | stops hnil =>
      cases h' with
      | stops _ => rfl
      | goesOn hhead _ => rw [hnil] at hhead; cases hhead
  | goesOn hhead _ ih =>
      cases h' with
      | stops hnil => rw [hnil] at hhead; cases hhead
      | goesOn hhead' h' => exact ih (Option.some.inj (hhead.symm.trans hhead') ▸ h')

end Regex

namespace LexRegex

open Regex

variable {n : Nat} {p q : Place}

/-! ### Newlines -/

theorem functional_newline : newline.Functional :=
  .seq (pivot_of_avoids ['\n'] rfl rfl (by decide) (by decide) rfl) (functional_text _)

theorem mem_language_newline {w : List Char} :
    w ∈ newline.language ↔ w = ['\n'] ∨ w = ['\r', '\n'] := by
  rw [newline, mem_language_seq]
  constructor
  · rintro ⟨u, ⟨k, -, hk, hu⟩, v, rfl, rfl⟩
    have hk : k ≤ 1 := hk 1 rfl
    match k, hk with
    | 0, _ =>
        rw [pow_zero, Language.mem_one] at hu
        exact .inl (by rw [hu]; rfl)
    | 1, _ =>
        rw [pow_one] at hu
        exact .inr (by rw [show u = ['\r'] from hu]; rfl)
  · rintro (rfl | rfl)
    · refine ⟨[], ⟨0, Nat.le_refl 0, fun _ _ => Nat.zero_le _, ?_⟩, ['\n'], rfl, rfl⟩
      rw [pow_zero, Language.mem_one]
    · refine ⟨['\r'], ⟨1, Nat.zero_le 1, fun m hm => ?_, ?_⟩, ['\n'], rfl, rfl⟩
      · exact (Option.some.inj hm).le
      · rw [pow_one]
        rfl

theorem firstEnd?_newline :
    newline.firstEnd? p = some q ↔ p.skip? ['\n'] = some q ∨ p.skip? ['\r', '\n'] = some q := by
  have hmem : q ∈ newline.ends p ↔ p.skip? ['\n'] = some q ∨ p.skip? ['\r', '\n'] = some q := by
    rw [mem_ends_iff rfl]
    constructor
    · rintro ⟨w, hw, hskip⟩
      rcases mem_language_newline.mp hw with rfl | rfl
      · exact .inl hskip
      · exact .inr hskip
    · rintro (h | h)
      · exact ⟨_, mem_language_newline.mpr (.inl rfl), h⟩
      · exact ⟨_, mem_language_newline.mpr (.inr rfl), h⟩
  rw [← hmem]
  exact ⟨List.mem_of_head?, functional_newline.firstEnd?⟩

theorem firstEnd?_newline_eq_none {cs : List Char} (h : p.after = cs) (hcs : cs.head? ≠ some '\n')
    (hcs' : cs.head? ≠ some '\r') : newline.firstEnd? p = none := by
  subst h
  rw [Option.eq_none_iff_forall_ne_some]
  intro q hq
  rcases firstEnd?_newline.mp hq with h | h
  · exact hcs (by rw [Place.after_of_skip? h]; rfl)
  · exact hcs' (by rw [Place.after_of_skip? h]; rfl)

theorem firstEnd?_newline_withReturns (hp : p.Feeds n) :
    newline.firstEnd? (p.withReturns n) = (newline.firstEnd? p).map (Place.withReturns n) := by
  cases hafter : p.after with
  | nil =>
      have hafter' : (p.withReturns n).after = [] := congrArg crlf hafter
      rw [firstEnd?_newline_eq_none hafter nofun nofun,
        firstEnd?_newline_eq_none hafter' nofun nofun]
      rfl
  | cons c rest =>
      by_cases hc : c = '\n'
      · subst hc
        obtain ⟨m, hm, -⟩ := Place.exists_skip?_of_cons hafter
        rw [firstEnd?_newline.mpr (.inl hm)]
        exact firstEnd?_newline.mpr (.inr (Place.skip?_withReturns hm hp.count))
      · have hc' := hp.ne_return hafter
        have hafter' : (p.withReturns n).after = c :: crlf rest :=
          (congrArg crlf hafter).trans (crlf_cons_of_ne hc rest)
        rw [firstEnd?_newline_eq_none hafter (by simpa using hc) (by simpa using hc'),
          firstEnd?_newline_eq_none hafter' (by simpa using hc) (by simpa using hc')]
        rfl

/-! ### Whitespace -/

/-- One round of whitespace. -/
def space : Option String → Regex
  | none => blank
  | some marker => .alt blank (.seq (.ofText marker) newline)

theorem whitespace_eq (join : Option String) : whitespace join = (space join).plus := by
  cases join <;> rfl

theorem isPlain_space (join : Option String) : (space join).isPlain = true := by
  cases join <;> rfl

theorem isNullable_space (join : Option String) : (space join).isNullable = false := by
  cases join with
  | none => rfl
  | some marker => exact Bool.and_false _

theorem firstEnd?_space (join : Option String) (p : Place) :
    (space join).firstEnd? p = (blank.firstEnd? p).or
      (join.bind fun marker => (p.skip? marker.toList).bind newline.firstEnd?) := by
  cases join with
  | none => exact (Option.or_none).symm
  | some marker => rw [space, firstEnd?_alt, ofText, firstEnd?_seq_text, Option.bind_some]

theorem firstEnd?_blank_cons {c : Char} {cs : List Char} (h : p.after = c :: cs) :
    blank.firstEnd? p = if c ∈ [' ', '\t', '\r'] then
      some { index := p.index + 1, before := some c, after := cs } else none := by
  have hmem : (CharSet.unions [.single ' ', .single '\t', .single '\r']).mem c =
      decide (c ∈ [' ', '\t', '\r']) := by
    rw [Bool.eq_iff_iff, decide_eq_true_iff]
    refine ⟨CharSet.mem_of_within (by decide), fun hc => ?_⟩
    simp only [List.mem_cons, List.not_mem_nil, or_false] at hc
    rcases hc with rfl | rfl | rfl <;> decide
  rw [blank, firstEnd?_one, Place.next?_of_after h]
  simp only [Option.filter, hmem]
  split <;> simp_all

section joined

variable {join : Option String}
  (hjoin : ∀ marker ∈ join, OnOneLine marker.toList ∧ marker.toList ≠ [])
include hjoin

/-- Whitespace does not begin with a line feed. -/
theorem firstEnd?_space_newline {cs : List Char} (h : p.after = '\n' :: cs) :
    (space join).firstEnd? p = none := by
  rw [firstEnd?_space, firstEnd?_blank_cons h, if_neg (by decide), Option.none_or,
    Option.bind_eq_none_iff]
  intro marker hmarker
  rw [Option.bind_eq_none_iff]
  intro m hm
  obtain ⟨honeline, hne⟩ := hjoin marker hmarker
  refine absurd ((endsLine_newline cs).eq_nil_of_isPrefix honeline ?_) hne
  exact h ▸ ⟨m.after, (Place.after_of_skip? hm).symm⟩

theorem firstEnd?_space_withReturns (hp : p.Feeds n) (hhead : p.after.head? ≠ some '\n') :
    (space join).firstEnd? (p.withReturns n) =
      ((space join).firstEnd? p).map (Place.withReturns n) := by
  have hblank : blank.firstEnd? (p.withReturns n) =
      (blank.firstEnd? p).map (Place.withReturns n) := by
    cases hafter : p.after with
    | nil =>
        have hafter' : (p.withReturns n).after = [] := congrArg crlf hafter
        rw [blank, firstEnd?_one, firstEnd?_one, Place.next?, Place.next?, hafter, hafter']
        rfl
    | cons c rest =>
        have hc : c ≠ '\n' := fun h => hhead (by rw [hafter, h]; rfl)
        have hafter' : (p.withReturns n).after = c :: crlf rest :=
          (congrArg crlf hafter).trans (crlf_cons_of_ne hc rest)
        rw [firstEnd?_blank_cons hafter, firstEnd?_blank_cons hafter']
        split
        · simp [Place.withReturns, Place.respelled, hafter, List.count_cons_of_ne hc,
            Nat.add_right_comm]
        · rfl
  rw [firstEnd?_space, firstEnd?_space, hblank]
  cases blank.firstEnd? p with
  | some m => rfl
  | none =>
      cases join with
      | none => rfl
      | some marker =>
          obtain ⟨honeline, -⟩ := hjoin marker rfl
          simp only [Option.map_none, Option.none_or, Option.bind_some,
            Place.skip?_withReturns_of_onOneLine honeline]
          cases hm : p.skip? marker.toList with
          | none => rfl
          | some m => exact firstEnd?_newline_withReturns (hp.of_skip? hm)

/-- The rounds of whitespace are the same in both spellings, but for a last one that takes the
carriage return of a line ending. -/
theorem exhausted_withReturns (hp : p.Feeds n) (h : Exhausted (space join).ends p q) :
    Exhausted (space join).ends (p.withReturns n) (q.pastReturn n) := by
  have stops {a : Place} (h : (space join).firstEnd? a = none) :
      Exhausted (space join).ends a a := .stops (List.head?_eq_none_iff.mp h)
  induction h with
  | @stops a hnil =>
      have hnone : (space join).firstEnd? a = none := by rw [firstEnd?, hnil]; rfl
      by_cases hhead : a.after.head? = some '\n'
      · obtain ⟨cs, hafter⟩ := List.head?_eq_some_iff.mp hhead
        have hafter' : (a.withReturns n).after = '\r' :: '\n' :: crlf cs := congrArg crlf hafter
        rw [Place.pastReturn, if_pos hhead]
        refine .goesOn ?_ (stops (firstEnd?_space_newline hjoin (Place.after_midway hafter)))
        rw [← firstEnd?, firstEnd?_space, firstEnd?_blank_cons hafter', if_pos (by decide),
          Option.some_or]
        simp [Place.midway, hafter]
      · rw [Place.pastReturn, if_neg hhead]
        exact stops (by rw [firstEnd?_space_withReturns hjoin hp hhead, hnone]; rfl)
  | @goesOn a b e hfirst _ ih =>
      have hfirst : (space join).firstEnd? a = some b := hfirst
      have hhead : a.after.head? ≠ some '\n' := fun hhead => by
        obtain ⟨cs, hafter⟩ := List.head?_eq_some_iff.mp hhead
        rw [firstEnd?_space_newline hjoin hafter] at hfirst
        cases hfirst
      obtain ⟨cs, hcs⟩ := ahead_of_firstEnd? hfirst
      refine .goesOn ?_ (ih (hp.of_skip? hcs))
      rw [← firstEnd?, firstEnd?_space_withReturns hjoin hp hhead, hfirst]
      rfl

/-- In the other spelling, whitespace in front of a line ending takes its carriage return. -/
theorem firstEnd?_whitespace_withReturns (hp : p.Feeds n) (hhead : p.after.head? ≠ some '\n') :
    (whitespace join).firstEnd? (p.withReturns n) =
      ((whitespace join).firstEnd? p).map (Place.pastReturn n) := by
  have hplain := isPlain_space join
  have hnullable := isNullable_space join
  have hnone {a : Place} (h : (space join).firstEnd? a = none) :
      (space join).plus.firstEnd? a = none := by
    rw [firstEnd?, List.head?_eq_none_iff, List.eq_nil_iff_forall_not_mem]
    intro q hq
    obtain ⟨m, hm, -⟩ := (mem_ends_plus_iff hplain hnullable).mp hq
    rw [List.head?_eq_none_iff.mp h] at hm
    cases hm
  have hspace := firstEnd?_space_withReturns hjoin hp hhead
  rw [whitespace_eq]
  cases hm : (space join).firstEnd? p with
  | none =>
      rw [hm] at hspace
      rw [hnone hm, hnone hspace]
      rfl
  | some m =>
      rw [hm] at hspace
      obtain ⟨q, hq, hrounds⟩ := exists_exhausted_plus hplain hnullable hm
      obtain ⟨q', hq', hrounds'⟩ := exists_exhausted_plus hplain hnullable hspace
      obtain ⟨cs, hcs⟩ := ahead_of_firstEnd? hm
      rw [hq, hq', hrounds'.unique (exhausted_withReturns hjoin (hp.of_skip? hcs) hrounds)]
      rfl

end joined

/-! ### Comments over several lines -/

/-- The lazy loop over all characters stops at every place. -/
theorem ends_climb_any {ahead : List Char} {found : Loop Place} {a : Place}
    (hlength : a.after.length ≤ ahead.length) (hentered : ∀ k ∈ found.entered, k < a.index) :
    (climb some (one .any).ends false ahead found a).ends = a.onward.reverse ++ found.ends := by
  have hentry (a : Place) (ks : List Nat) (h : ∀ k ∈ ks, k < a.index) :
      insertFalling? (index a) ks = some (index a :: ks) := by
    cases ks with
    | nil => rfl
    | cons k ks =>
        have hlt : k < index a := h k List.mem_cons_self
        rw [insertFalling?, if_pos hlt]
  induction ahead generalizing found a with
  | nil =>
      have hafter : a.after = [] := List.length_eq_zero_iff.mp (Nat.le_zero.mp hlength)
      rw [climb, hentry _ _ hentered, Place.onward_of_nil hafter]
      rfl
  | cons c ahead ih =>
      rw [climb, hentry _ _ hentered]
      cases hafter : a.after with
      | nil =>
          have hbody : (one .any).ends a = [] := by rw [ends, Place.next?, hafter]
          dsimp only
          rw [hbody, Place.onward_of_nil hafter]
          rfl
      | cons d rest =>
          have hnext := Place.next?_of_after hafter
          have hskip := Place.skip?_of_next? hnext
          have hbody : (one .any).ends a =
              [{ index := a.index + 1, before := some d, after := rest }] := by
            rw [ends, hnext]
            exact if_pos (CharSet.mem_any d)
          rw [hafter, List.length_cons, List.length_cons] at hlength
          dsimp only
          rw [hbody, if_neg Bool.false_ne_true, List.foldl_cons, List.foldl_nil,
            ih (by dsimp only; omega), Place.onward_of_skip? hskip, List.reverse_cons,
            List.append_assoc]
          · rfl
          · exact List.forall_mem_cons.mpr
              ⟨Nat.lt_succ_self _, fun k hk => Nat.lt_succ_of_lt (hentered k hk)⟩

theorem firstEnd?_multiline (opening closing : String) (p : Place) :
    (comment (.multiline opening closing)).firstEnd? p =
      (p.skip? opening.toList).bind fun m => m.onward.findSome? (Place.skip? closing.toList) := by
  rw [comment, ofText, firstEnd?_seq_text]
  congr 1
  funext m
  have hloop := @ends_climb_any m.after {} m (Nat.le_refl _) fun _ h => absurd h List.not_mem_nil
  have hends : (lazyStar (one .any)).ends m = m.onward := by
    rw [lazyStar, ends, if_neg (by decide), zeroOrMore]
    exact (congrArg List.reverse hloop).trans (by simp)
  rw [firstEnd?_seq, hends]
  congr 1
  funext a
  rw [ofText, firstEnd?, ends]
  cases a.skip? closing.toList <;> rfl

theorem firstEnd?_multiline_withReturns {opening closing : String}
    (hopening : OnOneLine opening.toList) (hclosing : OnOneLine closing.toList)
    (hne : closing.toList ≠ []) (hp : p.Feeds n) :
    (comment (.multiline opening closing)).firstEnd? (p.withReturns n) =
      ((comment (.multiline opening closing)).firstEnd? p).map (Place.withReturns n) := by
  rw [firstEnd?_multiline, firstEnd?_multiline, Place.skip?_withReturns_of_onOneLine hopening]
  cases hm : p.skip? opening.toList with
  | none => rfl
  | some m => exact Place.findSome?_onward_withReturns hclosing hne (hp.of_skip? hm)

end LexRegex

end Nesting
