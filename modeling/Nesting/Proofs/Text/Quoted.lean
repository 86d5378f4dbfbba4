import Mathlib.Tactic.IntervalCases
import Nesting.Text.Quoted

/-! # Quoted texts

Every spelling of a character can be told from what follows it (`Quoting.unspell_append`), and the
closing quote is not the beginning of a spelling.  So a quoted text gives back the text, and where
it ends (`Quoting.quote_append_inj`).

All that a quoted text holds prints, or was not to be spelled out
(`Quoting.prints_of_mem_quote`). -/

namespace Nesting.Quoting

/-! ### Hexadecimal numbers -/

/-- The value of a hexadecimal digit. -/
def digitValue (c : Char) : ℕ := if c.isDigit then c.toNat - '0'.toNat else c.toNat - 'a'.toNat + 10

/-- The value of hexadecimal digits. -/
def hexValue (ds : List Char) : ℕ := ds.foldl (fun n c => 16 * n + digitValue c) 0

theorem hexValue_append_singleton (ds : List Char) (c : Char) :
    hexValue (ds ++ [c]) = 16 * hexValue ds + digitValue c := by
  simp [hexValue, List.foldl_append]

theorem digitValue_digitChar {d : ℕ} (h : d < 16) : digitValue d.digitChar = d := by
  interval_cases d <;> rfl

theorem hexValue_toDigits (n : ℕ) : hexValue (Nat.toDigits 16 n) = n := by
  induction n using Nat.strongRecOn with
  | ind n ih =>
      rw [Nat.toDigits_eq_if (by decide)]
      split
      · next h =>
        rw [← List.nil_append [_], hexValue_append_singleton, digitValue_digitChar h]
        exact Nat.zero_add n
      · rw [hexValue_append_singleton, ih _ (by omega), digitValue_digitChar (by omega)]
        omega

theorem hexValue_zeros_append (k : ℕ) (ds : List Char) :
    hexValue (List.replicate k '0' ++ ds) = hexValue ds := by
  induction k with
  | zero => rfl
  | succ k ih => exact ih

theorem hexValue_hexDigits (width n : ℕ) : hexValue (hexDigits width n) = n :=
  (hexValue_zeros_append _ _).trans (hexValue_toDigits n)

theorem exists_digitChar_of_mem_toDigits {n : ℕ} {c : Char} (h : c ∈ Nat.toDigits 16 n) :
    ∃ d < 16, c = d.digitChar := by
  induction n using Nat.strongRecOn with
  | ind n ih =>
      rw [Nat.toDigits_eq_if (by decide)] at h
      split at h
      · next hn => exact ⟨n, hn, List.mem_singleton.mp h⟩
      · rcases List.mem_append.mp h with h | h
        · exact ih _ (by omega) h
        · exact ⟨n % 16, by omega, List.mem_singleton.mp h⟩

theorem exists_digitChar_of_mem_hexDigits {width n : ℕ} {c : Char} (h : c ∈ hexDigits width n) :
    ∃ d < 16, c = d.digitChar := by
  rcases List.mem_append.mp h with h | h
  · exact ⟨0, by decide, List.eq_of_mem_replicate h⟩
  · exact exists_digitChar_of_mem_toDigits h

/-! ### What a quoted text holds -/

/-- The characters from the blank to the tilde. -/
def Prints (c : Char) : Prop := 0x20 ≤ c.toNat ∧ c.toNat ≤ 0x7e

instance (c : Char) : Decidable (Prints c) := inferInstanceAs (Decidable (_ ∧ _))

theorem prints_digitChar {d : ℕ} (h : d < 16) : Prints d.digitChar ∧ d.digitChar ≠ '\x7d' := by
  interval_cases d <;> decide

theorem prints_of_mem_spell {q : Quoting} {c d : Char} (h : d ∈ q.spell c) :
    Prints d ∨ q.isSpelled d = false := by
  have short {ds : List Char} (hds : ds.all (decide <| Prints ·)) (h : d ∈ ds) :
      Prints d ∨ q.isSpelled d = false := .inl (of_decide_eq_true (List.all_eq_true.mp hds d h))
  unfold spell at h
  split_ifs at h with _ _ _ _ _ _ hspelled
  · exact short (by decide) h
  · exact short (by decide) h
  · exact short (by decide) h
  · exact short (by decide) h
  · exact short (by decide) h
  · exact short (by decide) h
  · rcases List.mem_append.mp h with h | h
    · rcases List.mem_append.mp h with h | h
      · exact short (by decide) h
      · obtain ⟨n, hn, rfl⟩ := exists_digitChar_of_mem_hexDigits h
        exact .inl (prints_digitChar hn).1
    · exact short (by decide) h
  · obtain rfl := List.mem_singleton.mp h
    exact .inr (Bool.eq_false_of_not_eq_true hspelled)

/-- A quoted text holds printing characters, and others that are not to be spelled out. -/
theorem prints_of_mem_quote {q : Quoting} {s : String} {c : Char} (h : c ∈ (q.quote s).toList) :
    Prints c ∨ q.isSpelled c = false := by
  rw [quote, String.toList_ofList] at h
  rcases List.mem_append.mp h with h | h
  · rcases List.mem_append.mp h with h | h
    · obtain rfl := List.mem_singleton.mp h
      exact .inl (by decide)
    · obtain ⟨d, -, h⟩ := List.mem_flatMap.mp h
      exact prints_of_mem_spell h
  · obtain rfl := List.mem_singleton.mp h
    exact .inl (by decide)

theorem isControl_of_mem_plain {s : String} {c : Char} (h : c ∈ (plain.quote s).toList) :
    CharClass.isControl c = false := by
  rcases prints_of_mem_quote h with h | h
  · simp only [CharClass.isControl, Prints] at h ⊢
    simp
    omega
  · exact h

/-! ### Reading quoted texts -/

/-- The character that a letter after a backslash stands for. -/
def escaped (c : Char) : Char :=
  if c = 'n' then '\n' else if c = 'r' then '\r' else if c = 't' then '\t'
  else if c = '0' then '\x00' else c

/-- The first character of the body of a quoted text, and what comes after its spelling. -/
def unspell : List Char → Option (Char × List Char)
  | '\\' :: 'u' :: '\x7b' :: cs =>
    some (Char.ofNat (hexValue (cs.takeWhile (· ≠ '\x7d'))), (cs.dropWhile (· ≠ '\x7d')).tail)
  | '\\' :: c :: cs => some (escaped c, cs)
  | '"' :: _ => none
  | c :: cs => some (c, cs)
  | [] => none

theorem unspell_append (q : Quoting) (c : Char) (rest : List Char) :
    unspell (q.spell c ++ rest) = some (c, rest) := by
  unfold spell
  split_ifs with hn hr ht hbackslash hquote hnull
  · rw [hn]; rfl
  · rw [hr]; rfl
  · rw [ht]; rfl
  · rw [hbackslash]; rfl
  · rw [hquote]; rfl
  · have hzero : c.toNat = 0 := by simpa using (Bool.and_eq_true_iff.mp hnull).2
    rw [← Char.ofNat_toNat c, hzero]
    rfl
  · have hdigits : ∀ d ∈ hexDigits q.width c.toNat, decide (d ≠ '\x7d') := by
      intro d hd
      obtain ⟨n, hn, rfl⟩ := exists_digitChar_of_mem_hexDigits hd
      exact decide_eq_true (prints_digitChar hn).2
    have htake : (hexDigits q.width c.toNat ++ '\x7d' :: rest).takeWhile (· ≠ '\x7d') =
        hexDigits q.width c.toNat := by
      rw [List.takeWhile_append_of_pos hdigits, List.takeWhile_cons_of_neg (by simp),
        List.append_nil]
    have hdrop : (hexDigits q.width c.toNat ++ '\x7d' :: rest).dropWhile (· ≠ '\x7d') =
        '\x7d' :: rest := by
      rw [List.dropWhile_append_of_pos hdigits, List.dropWhile_cons_of_neg (by simp)]
    simp only [List.append_assoc, List.cons_append, List.nil_append, unspell, htake, hdrop,
      hexValue_hexDigits, Char.ofNat_toNat, List.tail_cons]
  · simp [unspell, hbackslash]

theorem flatMap_spell_append_inj {q : Quoting} {cs ds rest rest' : List Char}
    (h : cs.flatMap q.spell ++ '"' :: rest = ds.flatMap q.spell ++ '"' :: rest') :
    cs = ds ∧ rest = rest' := by
  have closing {c : Char} {ds rest : List Char} : '"' :: rest ≠ q.spell c ++ ds := fun h => by
    have hread := congrArg unspell h
    rw [unspell_append] at hread
    cases hread
  induction cs generalizing ds with
  | nil =>
      cases ds with
      | nil => exact ⟨rfl, (List.cons.inj h).2⟩
      | cons d ds =>
          rw [List.flatMap_cons, List.append_assoc] at h
          exact absurd h closing
  | cons c cs ih =>
      cases ds with
      | nil =>
          rw [List.flatMap_cons, List.append_assoc] at h
          exact absurd h.symm closing
      | cons d ds =>
          rw [List.flatMap_cons, List.flatMap_cons, List.append_assoc, List.append_assoc] at h
          have hread := congrArg unspell h
          rw [unspell_append, unspell_append] at hread
          obtain ⟨rfl, hrest⟩ := Prod.mk.inj (Option.some.inj hread)
          obtain ⟨rfl, hafter⟩ := ih hrest
          exact ⟨rfl, hafter⟩

/-- A quoted text gives back the text and what comes after the closing quote. -/
theorem quote_append_inj {q : Quoting} {s t : String} {rest rest' : List Char}
    (h : (q.quote s).toList ++ rest = (q.quote t).toList ++ rest') : s = t ∧ rest = rest' := by
  simp only [quote, String.toList_ofList, List.append_assoc, List.singleton_append] at h
  obtain ⟨hlist, hrest⟩ := flatMap_spell_append_inj (List.cons.inj h).2
  exact ⟨String.toList_inj.mp hlist, hrest⟩

theorem quote_injective (q : Quoting) : Function.Injective q.quote := by
  intro s t h
  have happend : (q.quote s).toList ++ [] = (q.quote t).toList ++ [] := by rw [h]
  exact (quote_append_inj happend).1

end Nesting.Quoting
