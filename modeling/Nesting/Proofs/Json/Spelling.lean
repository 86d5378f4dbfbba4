import Mathlib.Data.List.DropRight
import Mathlib.Tactic.IntervalCases
import Nesting.Json.Reader

/-! # Spelled values

`Spells cs j after` says that a text begins with a spelling of a value and goes on with another
text: whatever the reader is given as fuel, as long as it covers the text, it reads the value and
stops in front of the rest.  Blanks may stand in front of every part.  There is one lemma for each
way to spell a value, and for arrays and objects one that adds a part and one that closes, so that
a writer is followed case by case.

A written text spells itself character by character, and a written number is read digit by
digit; only a number says something about the text behind it, which must not go on with it
(`EndsNumber`). -/

namespace Nesting.Json.Reader

/-! ### Blanks -/

theorem skipBlanks_append {bs : List Char} (h : skipBlanks bs = []) (cs : List Char) :
    skipBlanks (bs ++ cs) = skipBlanks cs := by
  unfold skipBlanks at h ⊢
  rw [List.dropWhile_append, h]
  rfl

theorem skipBlanks_skipBlanks (cs : List Char) : skipBlanks (skipBlanks cs) = skipBlanks cs :=
  List.dropWhile_idempotent _ _

/-! ### Texts -/

theorem fourDigits_hexDigits {n : ℕ} (h : n < 0x20) (rest : List Char) :
    fourDigits (Quoting.hexDigits 4 n ++ rest) = .ok (n, rest) := by
  interval_cases n <;> rfl

theorem numericEscape_hexDigits {c : Char} (h : c.toNat < 0x20) (rest : List Char) :
    numericEscape (Quoting.hexDigits 4 c.toNat ++ rest) = .ok (some c, rest) := by
  have hlow : isLowSurrogate c.toNat = false := by
    rw [isLowSurrogate, Bool.and_eq_false_iff]
    exact .inl (decide_eq_false (by omega))
  have hhigh : isHighSurrogate c.toNat = false := by
    rw [isHighSurrogate, Bool.and_eq_false_iff]
    exact .inl (decide_eq_false (by omega))
  rw [numericEscape, fourDigits_hexDigits h]
  dsimp only
  rw [hlow, hhigh, if_neg Bool.false_ne_true, if_neg Bool.false_ne_true, Char.ofNat_toNat]

theorem textFrom_backslash {c : Char} {cs rest : List Char} (h : escape cs = .ok (some c, rest))
    (fuel : ℕ) (done : List Char) :
    textFrom (fuel + 1) (some done) ('\\' :: cs) = textFrom fuel (some (c :: done)) rest := by
  rw [textFrom, h]
  rfl

/-- A written character is read back. -/
theorem textFrom_escapeChar (c : Char) (fuel : ℕ) (done rest : List Char) :
    textFrom (fuel + 1) (some done) (escapeChar c ++ rest) =
      textFrom fuel (some (c :: done)) rest := by
  unfold escapeChar
  -- The seven characters that are escaped by a letter or by themselves.
  iterate 7
    split
    · next h =>
      subst h
      exact textFrom_backslash rfl fuel done
  split
  · next h =>
    have hescape : escape ('u' :: (Quoting.hexDigits 4 c.toNat ++ rest)) = .ok (some c, rest) :=
      numericEscape_hexDigits h rest
    exact textFrom_backslash hescape fuel done
  · next hquote hslash _ _ _ _ _ hcontrol =>
    rw [List.singleton_append, textFrom]
    · rw [if_neg hcontrol]
      rfl
    · exact fun h => hquote h
    · exact fun h => hslash h

/-- The characters of a written text, up to its closing quote. -/
theorem textFrom_flatMap_escapeChar (cs after : List Char) (fuel : ℕ) (done : List Char)
    (hfuel : cs.length < fuel) :
    textFrom fuel (some done) (cs.flatMap escapeChar ++ '"' :: after) =
      .ok (some (String.ofList (done.reverse ++ cs)), after) := by
  induction cs generalizing fuel done with
  | nil =>
      obtain ⟨fuel, rfl⟩ := Nat.exists_eq_add_of_lt hfuel
      rw [List.append_nil]
      rfl
  | cons c cs ih =>
      cases fuel with
      | zero => exact absurd hfuel (Nat.not_lt_zero _)
      | succ fuel =>
          rw [List.flatMap_cons, List.append_assoc, textFrom_escapeChar,
            ih fuel (c :: done) (Nat.lt_of_succ_lt_succ hfuel), List.reverse_cons,
            List.append_assoc, List.singleton_append]

theorem quote_append (s : String) (after : List Char) :
    quote s ++ after = '"' :: (s.toList.flatMap escapeChar ++ '"' :: after) := by
  rw [quote, List.append_assoc, List.append_assoc]
  rfl

theorem one_le_length_escapeChar (c : Char) : 1 ≤ (escapeChar c).length := by
  unfold escapeChar
  repeat' split
  all_goals simp

theorem length_le_length_flatMap_escapeChar (cs : List Char) :
    cs.length ≤ (cs.flatMap escapeChar).length := by
  induction cs with
  | nil => exact le_rfl
  | cons c cs ih =>
      rw [List.flatMap_cons, List.length_append, List.length_cons]
      have := one_le_length_escapeChar c
      omega

theorem text_flatMap_escapeChar (s : String) (after : List Char) :
    text (s.toList.flatMap escapeChar ++ '"' :: after) = .ok (some s, after) := by
  have hfuel : s.toList.length < (s.toList.flatMap escapeChar ++ '"' :: after).length + 1 := by
    have := length_le_length_flatMap_escapeChar s.toList
    rw [List.length_append]
    omega
  rw [text, textFrom_flatMap_escapeChar _ _ _ _ hfuel, List.reverse_nil, List.nil_append,
    String.ofList_toList]

/-! ### Numbers -/

/-- A text that does not go on with a number. -/
def EndsNumber (after : List Char) : Prop :=
  ∀ c ∈ after.head?, c.isDigit = false ∧ c ≠ '.' ∧ c ≠ 'e' ∧ c ≠ 'E'

theorem endsNumber_nil : EndsNumber [] := by
  intro c hc
  cases hc

theorem endsNumber_append {bs cs : List Char} (hbs : skipBlanks bs = []) (hcs : EndsNumber cs) :
    EndsNumber (bs ++ cs) := by
  cases bs with
  | nil => exact hcs
  | cons b bs =>
      rintro _ ⟨⟩
      have hb : b = ' ' ∨ b = '\n' ∨ b = '\t' ∨ b = '\r' := by
        by_contra hb
        rw [skipBlanks, List.dropWhile_cons_of_neg (by simpa [and_assoc] using hb)] at hbs
        cases hbs
      rcases hb with rfl | rfl | rfl | rfl <;> decide

theorem le_ofDigitChars (ds : List Char) (value : ℕ) :
    value ≤ Nat.ofDigitChars 10 ds value := by
  induction ds generalizing value with
  | nil => exact le_rfl
  | cons d ds ih =>
      rw [Nat.ofDigitChars_cons]
      have := ih (10 * value + (d.toNat - '0'.toNat))
      omega

/-- Digits that give a small enough value are read up to the last one. -/
theorem wholePart_append {ds after : List Char} {value : ℕ} (hds : ∀ d ∈ ds, d.isDigit)
    (hvalue : Nat.ofDigitChars 10 ds value ≤ greatestNatural) (hafter : EndsNumber after) :
    wholePart value (ds ++ after) = (Nat.ofDigitChars 10 ds value, 0, after) := by
  induction ds generalizing value with
  | nil =>
      cases after with
      | nil => rfl
      | cons c cs =>
          rw [List.nil_append, wholePart, (hafter c rfl).1, if_neg Bool.false_ne_true]
          rfl
  | cons d ds ih =>
      rw [Nat.ofDigitChars_cons] at hvalue ⊢
      have hnext : 10 * value + digitValue d ≤ greatestNatural :=
        (le_ofDigitChars ds _).trans hvalue
      rw [List.cons_append, wholePart, if_pos (hds d List.mem_cons_self)]
      dsimp only
      rw [if_pos hnext]
      exact ih (fun d hd => hds d (List.mem_cons_of_mem _ hd)) hvalue

/-- Nothing but the digits belongs to the number. -/
theorem afterWhole_of_endsNumber {after : List Char} (h : EndsNumber after) (isNegative : Bool)
    (value : ℕ) : afterWhole isNegative value 0 after = whole isNegative value after := by
  cases after with
  | nil => rfl
  | cons c cs =>
      obtain ⟨-, hpoint, he, hE⟩ := h c rfl
      rw [afterWhole]
      · rw [if_pos rfl]
      · exact fun _ hc => hpoint (List.cons.inj hc).1
      · exact fun _ hc => he (List.cons.inj hc).1
      · exact fun _ hc => hE (List.cons.inj hc).1

/-- A written number has no leading zero. -/
theorem toDigits_eq_cons {n : ℕ} (h : 0 < n) :
    ∃ d ds, Nat.toDigits 10 n = d :: ds ∧ d ≠ '0' := by
  induction n using Nat.strong_induction_on with
  | h n ih =>
      by_cases hn : n < 10
      · refine ⟨n.digitChar, [], Nat.toDigits_of_lt_base hn, ?_⟩
        interval_cases n <;> decide
      · obtain ⟨d, ds, hds, hd⟩ := ih (n / 10) (by omega) (by omega)
        refine ⟨d, ds ++ [(n % 10).digitChar], ?_, hd⟩
        rw [Nat.toDigits_eq_if (by decide), if_neg hn, hds, List.cons_append]

/-- A written natural number is read back. -/
theorem number_toDigits {n : ℕ} (hn : n ≤ greatestNatural) (isNegative : Bool) {after : List Char}
    (hafter : EndsNumber after) :
    number isNegative (Nat.toDigits 10 n ++ after) = whole isNegative n after := by
  rcases Nat.eq_zero_or_pos n with rfl | hpos
  · have hhead : after.head?.any Char.isDigit = false := by
      cases after with
      | nil => rfl
      | cons c cs => exact (hafter c rfl).1
    rw [Nat.toDigits_zero, List.singleton_append, number, hhead, if_neg Bool.false_ne_true]
    exact afterWhole_of_endsNumber hafter isNegative 0
  · obtain ⟨d, ds, hds, hd⟩ := toDigits_eq_cons hpos
    have hdigits : ∀ c ∈ Nat.toDigits 10 n, c.isDigit := fun c hc =>
      Nat.isDigit_of_mem_toDigits (by decide) (by decide) hc
    have hvalue : Nat.ofDigitChars 10 (Nat.toDigits 10 n) 0 = n :=
      Nat.ofDigitChars_toDigits (by decide) (by decide)
    have hwhole : wholePart 0 (Nat.toDigits 10 n ++ after) = (n, 0, after) := by
      rw [wholePart_append hdigits (hvalue.trans_le hn) hafter, hvalue]
    rw [hds] at hdigits hwhole ⊢
    rw [List.cons_append, number]
    · rw [if_pos (hdigits d List.mem_cons_self), ← List.cons_append, hwhole]
      exact afterWhole_of_endsNumber hafter isNegative n
    · exact hd

/-! ### Values -/

/-- A text begins with a spelling of a value and goes on with another text. -/
structure Spells (cs : List Char) (j : Json) (after : List Char) : Prop where
  shorter : after.length < cs.length
  value_eq : ∀ fuel, 2 * cs.length ≤ fuel → value fuel cs = ⟨j, some after⟩

/-- The same for the parts of an array or an object and the character that closes it. -/
structure SpellsParts {α : Type} (read : ℕ → Bool → List Char → Parts α) (isFirst : Bool)
    (cs : List Char) (parts : List α) (after : List Char) : Prop where
  shorter : after.length < cs.length
  read_eq : ∀ fuel, 2 * cs.length + 1 ≤ fuel → read fuel isFirst cs = ⟨(parts, none), some after⟩

theorem value_congr {cs cs' : List Char} (h : skipBlanks cs = skipBlanks cs') (fuel : ℕ) :
    value fuel cs = value fuel cs' := by
  cases fuel with
  | zero => rfl
  | succ fuel => rw [value, value, h]

namespace Spells

/-- Only the case of some fuel is left to show. -/
theorem of_succ {cs after : List Char} {j : Json} (hshorter : after.length < cs.length)
    (h : ∀ fuel, 2 * cs.length ≤ fuel + 1 → value (fuel + 1) cs = ⟨j, some after⟩) :
    Spells cs j after := by
  refine ⟨hshorter, fun fuel hfuel => ?_⟩
  cases fuel with
  | zero => omega
  | succ fuel => exact h fuel hfuel

theorem blanks {cs after : List Char} {j : Json} (h : Spells cs j after) (bs : List Char)
    (hbs : skipBlanks bs = []) : Spells (bs ++ cs) j after := by
  have hlength : (bs ++ cs).length = bs.length + cs.length := List.length_append
  refine ⟨by have := h.shorter; omega, fun fuel hfuel => ?_⟩
  rw [value_congr (skipBlanks_append hbs cs)]
  exact h.value_eq fuel (by omega)

theorem word_null (after : List Char) : Spells ("null".toList ++ after) .null after :=
  of_succ (show after.length < after.length + 4 by omega) fun _ _ => rfl

theorem word_true (after : List Char) : Spells ("true".toList ++ after) (.bool true) after :=
  of_succ (show after.length < after.length + 4 by omega) fun _ _ => rfl

theorem word_false (after : List Char) : Spells ("false".toList ++ after) (.bool false) after :=
  of_succ (show after.length < after.length + 5 by omega) fun _ _ => rfl

theorem string (s : String) (after : List Char) : Spells (quote s ++ after) (.string s) after := by
  rw [quote_append]
  refine of_succ (by simp only [List.length_append, List.length_cons]; omega) fun fuel _ => ?_
  show leaf .string (text (s.toList.flatMap escapeChar ++ '"' :: after)) = _
  rw [text_flatMap_escapeChar]
  rfl

/-- A number that begins with a digit. -/
theorem value_digit {c : Char} (h : c.isDigit) (fuel : ℕ) (cs : List Char) :
    value (fuel + 1) (c :: cs) = leaf .number (number false (c :: cs)) := by
  have hblank : skipBlanks (c :: cs) = c :: cs := by
    rw [skipBlanks, List.dropWhile_cons_of_neg]
    intro hc
    simp only [Bool.or_eq_true, decide_eq_true_eq] at hc
    rcases hc with ((rfl | rfl) | rfl) | rfl <;> exact absurd h (by decide)
  rw [value, hblank]
  split
  all_goals
    rename_i heq
    cases heq <;> first | exact absurd h (by decide) | exact if_pos h

theorem natural {n : ℕ} (hn : n ≤ greatestNatural) {after : List Char}
    (hafter : EndsNumber after) :
    Spells (numberText (.natural n) ++ after) (.number (.natural n)) after := by
  have hnumber := number_toDigits hn false hafter
  obtain ⟨d, ds, hds⟩ := List.exists_cons_of_ne_nil (Nat.toDigits_ne_nil (n := n) (b := 10))
  have hd : d.isDigit :=
    Nat.isDigit_of_mem_toDigits (by decide) (by decide) (hds ▸ List.mem_cons_self)
  rw [hds, List.cons_append] at hnumber
  rw [numberText, hds, List.cons_append]
  refine of_succ (by simp only [List.length_append, List.length_cons]; omega) fun fuel _ => ?_
  rw [value_digit hd, hnumber]
  rfl

theorem negative {n : ℕ} (hpos : 0 < n) (hn : n ≤ Nat.pow 2 63) {after : List Char}
    (hafter : EndsNumber after) :
    Spells (numberText (.negative n) ++ after) (.number (.negative n)) after := by
  have hnumber := number_toDigits (hn.trans (by decide)) true hafter
  rw [numberText, List.cons_append]
  refine of_succ (by simp only [List.length_append, List.length_cons]; omega) fun fuel _ => ?_
  show leaf .number (number true (Nat.toDigits 10 n ++ after)) = _
  rw [hnumber, whole, if_neg, if_neg]
  · rfl
  · intro h
    simp only [Bool.or_eq_true, decide_eq_true_eq] at h
    omega
  · decide

theorem array {cs after : List Char} {js : List Json} (h : SpellsParts items true cs js after) :
    Spells ('[' :: cs) (.list js) after := by
  refine of_succ (h.shorter.trans (Nat.lt_succ_self _)) fun fuel hfuel => ?_
  show (⟨.array (items fuel true cs).value.1 (items fuel true cs).value.2,
    (items fuel true cs).rest⟩ : Reading Json) = _
  rw [h.read_eq fuel (by rw [List.length_cons] at hfuel; omega)]
  rfl

theorem object {cs after : List Char} {ms : List (String × Json)}
    (h : SpellsParts members true cs ms after) :
    Spells ('\x7b' :: cs) (.record ms) after := by
  refine of_succ (h.shorter.trans (Nat.lt_succ_self _)) fun fuel hfuel => ?_
  show (⟨.object (members fuel true cs).value.1 (members fuel true cs).value.2,
    (members fuel true cs).rest⟩ : Reading Json) = _
  rw [h.read_eq fuel (by rw [List.length_cons] at hfuel; omega)]
  rfl

/-- No value begins like the end of an array. -/
theorem starts {cs after : List Char} {j : Json} (h : Spells cs j after) :
    ∃ c rest, skipBlanks cs = c :: rest ∧ c ≠ ']' := by
  have hread := h.value_eq (2 * cs.length + 1) (Nat.le_succ _)
  rw [value] at hread
  cases hcs : skipBlanks cs with
  | nil =>
      rw [hcs] at hread
      cases hread
  | cons c rest =>
      refine ⟨c, rest, rfl, ?_⟩
      rintro rfl
      rw [hcs] at hread
      cases hread

end Spells

/-! ### Parts -/

/-- What stands in front of a part. -/
def comma (isFirst : Bool) : List Char := if isFirst then [] else [',']

theorem separator_closing {bs : List Char} (hbs : skipBlanks bs = []) {closing : Char}
    (isFirst : Bool) {after : List Char}
    (hclosing : skipBlanks (closing :: after) = closing :: after) :
    separator closing isFirst (bs ++ closing :: after) = .ok (none, after) := by
  rw [separator, skipBlanks_append hbs, hclosing]
  dsimp only
  rw [if_pos rfl]

theorem separator_comma {closing c : Char} {cs rest : List Char} (hclosing : closing ≠ ',')
    (hcs : skipBlanks cs = c :: rest) (hc : c ≠ closing) (isFirst : Bool) :
    separator closing isFirst (comma isFirst ++ cs) = .ok (some (c :: rest), rest) := by
  cases isFirst with
  | true =>
      rw [comma, if_pos rfl, List.nil_append, separator, hcs]
      dsimp only
      rw [if_neg hc, if_pos rfl]
  | false =>
      rw [comma, if_neg Bool.false_ne_true, List.singleton_append, separator]
      show (if ',' = closing then _ else _) = _
      rw [if_neg hclosing.symm, if_neg Bool.false_ne_true, if_pos rfl, hcs]
      dsimp only
      rw [if_neg hc]

/-- A text begins with a spelling of a part, and goes on with a text in which further parts may
be spelled. -/
def SpellsPart {α : Type} (read : ℕ → Bool → List Char → Parts α) (cs : List Char) (part : α)
    (mid : List Char) : Prop :=
  ∀ ⦃parts after⦄, SpellsParts read false mid parts after →
    ∀ isFirst, SpellsParts read isFirst (comma isFirst ++ cs) (part :: parts) after

namespace SpellsParts

variable {α : Type} {read : ℕ → Bool → List Char → Parts α} {isFirst : Bool}
  {cs mid after : List Char} {parts : List α}

theorem of_succ (hshorter : after.length < cs.length)
    (h : ∀ fuel, 2 * cs.length ≤ fuel →
      read (fuel + 1) isFirst cs = ⟨(parts, none), some after⟩) :
    SpellsParts read isFirst cs parts after := by
  refine ⟨hshorter, fun fuel hfuel => ?_⟩
  cases fuel with
  | zero => omega
  | succ fuel => exact h fuel (Nat.le_of_succ_le_succ hfuel)

theorem cons_eq (h : SpellsParts read false mid parts after) {fuel : ℕ}
    (hfuel : 2 * mid.length < fuel) (part : α) :
    Parts.cons part (some mid) (read fuel false) = ⟨(part :: parts, none), some after⟩ := by
  rw [Parts.cons, h.read_eq fuel hfuel]

end SpellsParts

theorem length_lt_append_cons (bs : List Char) (c : Char) (after : List Char) :
    after.length < (bs ++ c :: after).length := by
  rw [List.length_append, List.length_cons]
  omega

theorem spellsParts_items_nil (bs : List Char) (hbs : skipBlanks bs = []) (isFirst : Bool)
    (after : List Char) : SpellsParts items isFirst (bs ++ ']' :: after) [] after := by
  refine .of_succ (length_lt_append_cons bs _ after) fun fuel _ => ?_
  rw [items, separator_closing hbs isFirst rfl]

theorem spellsParts_members_nil (bs : List Char) (hbs : skipBlanks bs = []) (isFirst : Bool)
    (after : List Char) : SpellsParts members isFirst (bs ++ '\x7d' :: after) [] after := by
  refine .of_succ (length_lt_append_cons bs _ after) fun fuel _ => ?_
  rw [members, separator_closing hbs isFirst rfl]

theorem Spells.item {cs mid : List Char} {j : Json} (h : Spells cs j mid) :
    SpellsPart items cs j mid := by
  intro js after hmore isFirst
  obtain ⟨c, rest, hcs, hc⟩ := h.starts
  have hlength : (comma isFirst ++ cs).length = (comma isFirst).length + cs.length :=
    List.length_append
  have hmid := h.shorter
  have hafter := hmore.shorter
  refine .of_succ (by omega) fun fuel hfuel => ?_
  rw [items, separator_comma (by decide) hcs hc]
  dsimp only
  rw [← hcs, value_congr (skipBlanks_skipBlanks cs), h.value_eq fuel (by omega)]
  exact hmore.cons_eq (by omega) j

theorem Spells.member {cs mid : List Char} {j : Json} (h : Spells cs j mid) (bs : List Char)
    (hbs : skipBlanks bs = []) (key : String) :
    SpellsPart members (bs ++ (quote key ++ ':' :: cs)) (key, j) mid := by
  intro ms after hmore isFirst
  have hquote : skipBlanks (bs ++ (quote key ++ ':' :: cs)) =
      '"' :: (key.toList.flatMap escapeChar ++ '"' :: ':' :: cs) := by
    rw [skipBlanks_append hbs, quote_append]
    rfl
  have hlength : cs.length < (comma isFirst ++ (bs ++ (quote key ++ ':' :: cs))).length := by
    simp only [List.length_append, List.length_cons]
    omega
  have hmid := h.shorter
  have hafter := hmore.shorter
  refine .of_succ (by omega) fun fuel hfuel => ?_
  rw [members, separator_comma (by decide) hquote (by decide)]
  simp only [text_flatMap_escapeChar]
  show Parts.cons (key, (value fuel cs).value) (value fuel cs).rest _ = _
  rw [h.value_eq fuel (by omega)]
  exact hmore.cons_eq (by omega) (key, j)

/-- A writer of parts is followed if every part is, and what it writes behind the last one. -/
theorem spellsParts_of_writer {α : Type} {read : ℕ → Bool → List Char → Parts α}
    (write : α → List Char → List Char) (writeAll : List α → List Char → List Char)
    (last : List Char → List Char)
    (hone : ∀ p after, writeAll [p] after = write p (last after))
    (hmore : ∀ p q ps after, writeAll (p :: q :: ps) after =
      write p (',' :: writeAll (q :: ps) after))
    (hends : ∀ after, EndsNumber (last after))
    (hlast : ∀ after, SpellsParts read false (last after) [] after)
    {p : α} {ps : List α}
    (hps : ∀ q ∈ p :: ps, ∀ mid, EndsNumber mid → SpellsPart read (write q mid) q mid)
    (isFirst : Bool) (after : List Char) :
    SpellsParts read isFirst (comma isFirst ++ writeAll (p :: ps) after) (p :: ps) after := by
  induction ps generalizing p isFirst with
  | nil =>
      rw [hone]
      exact hps p List.mem_cons_self _ (hends after) (hlast after) isFirst
  | cons q qs ih =>
      have hcomma : EndsNumber (',' :: writeAll (q :: qs) after) := by
        rintro _ ⟨⟩
        decide
      rw [hmore]
      exact hps p List.mem_cons_self _ hcomma
        (ih (fun r hr => hps r (List.mem_cons_of_mem _ hr)) false) isFirst

end Nesting.Json.Reader
