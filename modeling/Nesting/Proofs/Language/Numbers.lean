import Nesting.Language.Numbers
import Nesting.Proofs.Lexer.Longest

/-! # Numbers are as long as they can be

A number is a word of one of the patterns that `Numbers.pattern` puts into a choice
(`Numbers.components`), read without preference.  The choice takes its first branch that matches,
and each branch its preferred match; `exists_longest_number` is that this is the longest number
there is wherever the pattern is tried, and that the pattern matches wherever a number stands. -/

namespace Nesting

/-- The expression that a list of characters writes. -/
def Regex.parseChars (cs : List Char) : Except PatternFault Regex :=
  match (Parser.whole cs.length).run { rest := cs } with
  | none => .error .malformed
  | some (r, _) => if r.size ≤ sizeLimit then .ok r else .error .tooLarge

theorem Regex.parse_eq (text : String) : Regex.parse text = Regex.parseChars text.toList := rfl

namespace Numbers

open Regex

/-! ### The expressions of numbers -/

/-- A character of a set, perhaps behind an underscore. -/
def underscored (r : Regex) : Regex := .seq (.opt (.text ['_'])) r

/-- A decimal digit. -/
def digitExpr : Regex := .one (.range '0' '9')

/-- Digits behind the first one. -/
def moreDigits : Regex := .star (underscored digitExpr)

/-- Digits with single underscores between them. -/
def digitsExpr : Regex := .seq digitExpr moreDigits

/-- A decimal with digits behind its point. -/
def pointed : Regex := .seq (.opt digitsExpr) (.seq (.text ['.']) digitsExpr)

/-- A decimal that ends with its point. -/
def pointLast : Regex := .seq digitExpr (.seq moreDigits (.text ['.']))

/-- The exponent of a decimal. -/
def exponent : Regex :=
  .seq (.one ⟨[(69, 69), (101, 101)]⟩) (.seq (.opt (.one ⟨[(43, 43), (45, 45)]⟩)) digitsExpr)

/-- A decimal with an exponent. -/
def exponential : Regex := .seq (.alt digitsExpr (.alt pointed pointLast)) exponent

/-- Digits of a set behind a zero and a letter. -/
def letteredExpr (letters digits : CharSet) : Regex :=
  .seq (.text ['0']) (.seq (.one letters) (.plus (underscored (.one digits))))

def hexadecimal : Regex :=
  letteredExpr ⟨[(88, 88), (120, 120)]⟩ ⟨[(48, 57), (65, 70), (97, 102)]⟩

def octal : Regex := letteredExpr ⟨[(79, 79), (111, 111)]⟩ (.range '0' '7')

def binaryExpr : Regex := letteredExpr ⟨[(66, 66), (98, 98)]⟩ (.range '0' '1')

/-- A decimal integer that is not zero. -/
def positive : Regex := .seq (.one (.range '1' '9')) moreDigits

/-- Zeros. -/
def zeros : Regex := .seq (.plus (.text ['0'])) (.star (underscored (.text ['0'])))

/-- The branches of the choice. -/
def branches (binary : Bool) : List Regex :=
  [exponential, pointed, pointLast, hexadecimal, octal] ++
    (if binary then [binaryExpr] else []) ++ [positive, zeros]

/-! ### The patterns that write them -/

/-- The pattern of decimal integers. -/
def decimal : String :=
  group ("[1-9]" ++ group ("_?" ++ digit) ++ "*|0+" ++ group "_?0" ++ "*")

/-- The patterns of the kinds of numbers. -/
def components (binary : Bool) : List String :=
  [exponentFloat, pointFloat, lettered "[xX]" "[0-9a-fA-F]", lettered "[oO]" "[0-7]"] ++
    (if binary then [lettered "[bB]" "[01]"] else []) ++ [decimal]

theorem pattern_eq (binary : Bool) :
    pattern binary = group ("|".intercalate (components binary)) := by
  cases binary <;>
  simp only [pattern, integer, components, decimal, if_true, if_false, Bool.false_eq_true,
    List.cons_append, List.nil_append, String.intercalate_cons_cons, String.intercalate_singleton,
    String.append_assoc, String.empty_append, -String.reduceAppend]

/-- The words of these patterns, read without preference. -/
def numbers (binary : Bool) : Language Char :=
  {w | ∃ text ∈ components binary, ∃ r, Regex.parse text = .ok r ∧ w ∈ r.language}

theorem toList_group (s : String) : (group s).toList = ['(', '?', ':'] ++ s.toList ++ [')'] := by
  rw [group, String.toList_append, String.toList_append]
  rfl

theorem parse_pattern (binary : Bool) :
    Regex.parse (pattern binary) = .ok (alts (branches binary)) := by
  rw [Regex.parse_eq]
  cases binary <;>
  · simp only [pattern, exponentFloat, pointFloat, fraction, digits, integer, lettered, digit,
      toList_group, String.toList_append, if_true, Bool.false_eq_true, if_false,
      -String.reduceAppend]
    decide +kernel

theorem parse_exponentFloat : Regex.parse exponentFloat = .ok exponential := by
  rw [Regex.parse_eq]
  simp only [exponentFloat, pointFloat, fraction, digits, digit, toList_group, String.toList_append,
    -String.reduceAppend]
  decide +kernel

theorem parse_pointFloat : Regex.parse pointFloat = .ok (.alt pointed pointLast) := by
  rw [Regex.parse_eq]
  simp only [pointFloat, fraction, digits, digit, toList_group, String.toList_append,
    -String.reduceAppend]
  decide +kernel

theorem parse_decimal : Regex.parse decimal = .ok (.alt positive zeros) := by
  rw [Regex.parse_eq]
  simp only [decimal, digit, toList_group, String.toList_append, -String.reduceAppend]
  decide +kernel

theorem parse_hexadecimal : Regex.parse (lettered "[xX]" "[0-9a-fA-F]") = .ok hexadecimal := by
  decide +kernel

theorem parse_octal : Regex.parse (lettered "[oO]" "[0-7]") = .ok octal := by
  decide +kernel

theorem parse_binary : Regex.parse (lettered "[bB]" "[01]") = .ok binaryExpr := by
  decide +kernel

/-- The numbers are the words of the branches. -/
theorem numbers_eq (binary : Bool) : numbers binary = (alts (branches binary)).language := by
  ext w
  have hcomponent {text : String} {r : Regex} (h : Regex.parse text = .ok r) :
      (∃ r, Regex.parse text = .ok r ∧ w ∈ r.language) ↔ w ∈ r.language := by
    simp [h]
  cases binary <;>
  · show (∃ text ∈ components _, ∃ r, Regex.parse text = .ok r ∧ w ∈ r.language) ↔ _
    simp only [components, branches, List.cons_append, List.nil_append, if_true,
      Bool.false_eq_true, if_false, List.exists_mem_cons_iff, List.not_mem_nil, false_and,
      exists_const, or_false, hcomponent parse_exponentFloat, hcomponent parse_pointFloat,
      hcomponent parse_hexadecimal, hcomponent parse_octal, hcomponent parse_binary,
      hcomponent parse_decimal, alts, mem_language_alt, or_assoc]

/-! ### Each kind of number -/

/-- Where a character of a set stands, perhaps behind an underscore, it does so in one way. -/
theorem functional_underscored {r : Regex} (cs : List Char) (h : r.Functional)
    (hplain : r.isPlain = true) (havoids : (Regex.opt (.text ['_'])).avoids cs = true)
    (hopens : r.opens cs = true) (hnullable : r.isNullable = false) :
    (underscored r).Functional :=
  .seq (pivot_of_avoids cs rfl hplain havoids hopens hnullable) h

theorem functional_underscored_digit : (underscored digitExpr).Functional :=
  functional_underscored "0123456789".toList (functional_one _) rfl (by decide) (by decide) rfl

theorem longest_moreDigits : moreDigits.Longest := .star rfl rfl functional_underscored_digit

theorem longest_digitsExpr : digitsExpr.Longest :=
  .seq ((functional_one _).pivot _) longest_moreDigits

/-- The point of a decimal is the first one there is. -/
theorem longest_pointed : pointed.Longest :=
  .seq (pivot_of_avoids ['.'] rfl rfl (by decide) (by decide) rfl)
    (.seq ((functional_text _).pivot _) longest_digitsExpr)

theorem longest_pointLast : pointLast.Longest :=
  .seq ((functional_one _).pivot _)
    (.seq (pivot_of_avoids ['.'] rfl rfl (by decide) (by decide) rfl)
      (functional_text _).longest)

theorem longest_exponent : exponent.Longest :=
  .seq ((functional_one _).pivot _)
    (.seq (pivot_of_avoids "0123456789".toList rfl rfl (by decide) (by decide) rfl)
      longest_digitsExpr)

/-- The exponent begins at the first letter there is, so it does not matter which of the decimals
before it is preferred. -/
theorem longest_exponential : exponential.Longest :=
  .seq (pivot_of_avoids ['e', 'E'] rfl rfl (by decide) (by decide) rfl) longest_exponent

theorem longest_letteredExpr (letters : CharSet) {digits : CharSet} (cs : List Char)
    (havoids : (Regex.opt (.text ['_'])).avoids cs = true) (hwithin : digits.within cs = true) :
    (letteredExpr letters digits).Longest :=
  .seq ((functional_text _).pivot _) (.seq ((functional_one _).pivot _)
    (.plus rfl rfl (functional_underscored cs (functional_one _) rfl havoids hwithin rfl)))

theorem longest_positive : positive.Longest :=
  .seq ((functional_one _).pivot _) longest_moreDigits

theorem longest_zeros : zeros.Longest := by
  refine .plus_star rfl rfl rfl rfl (functional_text _) ?_ fun a b hb => ?_
  · exact functional_underscored ['0'] (functional_text _) rfl (by decide) (by decide) rfl
  · rw [mem_ends_iff rfl] at hb ⊢
    obtain ⟨w, hw, hskip⟩ := hb
    refine ⟨w, mem_language_seq.mpr ⟨[], ?_, w, hw, rfl⟩, hskip⟩
    exact ⟨0, Nat.le_refl 0, fun _ _ => Nat.zero_le _, (Language.mem_one _).mpr rfl⟩

theorem longest_branches (binary : Bool) :
    ∀ r ∈ branches binary, r.isPlain = true ∧ r.Longest := by
  have hhexadecimal : hexadecimal.Longest :=
    longest_letteredExpr _ "0123456789abcdefABCDEF".toList (by decide) (by decide)
  have hoctal : octal.Longest :=
    longest_letteredExpr _ "01234567".toList (by decide) (by decide)
  have hbinary : binaryExpr.Longest :=
    longest_letteredExpr _ "01".toList (by decide) (by decide)
  cases binary <;>
  · simp only [branches, List.cons_append, List.nil_append, if_true, Bool.false_eq_true, if_false,
      List.forall_mem_cons]
    simp only [longest_exponential, longest_pointed, longest_pointLast, hhexadecimal, hoctal,
      hbinary, longest_positive, longest_zeros, List.not_mem_nil, false_implies, implies_true,
      and_true]
    decide

/-! ### One kind against another -/

/-- What has an exponent ends behind a letter that a hexadecimal number has no room for. -/
theorem apart_exponential_hexadecimal : exponential.Apart hexadecimal := by
  intro u hu v hv hpre
  obtain ⟨e, he, hmem⟩ := exists_mem_of_needs ['e', 'E'] (by decide) hu
  obtain ⟨z, rfl, w, hw, rfl⟩ := mem_language_seq.mp hv
  obtain ⟨x, ⟨c, hc, rfl⟩, t, -, rfl⟩ := mem_language_seq.mp hw
  have hletter : c ∈ ['x', 'X'] := CharSet.mem_of_within (by decide) hc
  have havoids : exponential.avoids ['x', 'X'] = true := by decide
  have hnone : c ∉ u := not_mem_of_avoids havoids hu hletter
  cases u with
  | nil => cases hmem
  | cons a u =>
      obtain ⟨rfl, hrest⟩ := List.cons_prefix_cons.mp hpre
      cases u with
      | nil =>
          rw [List.mem_singleton.mp hmem] at he
          revert he
          decide
      | cons a u =>
          obtain ⟨rfl, -⟩ := List.cons_prefix_cons.mp hrest
          exact hnone (List.mem_cons_of_mem _ List.mem_cons_self)

/-- Behind its point, a decimal that ends with it has no digit. -/
theorem apart_pointed_pointLast : pointed.Apart pointLast := by
  intro u hu v hv hpre
  obtain ⟨a, ha, w, hw, rfl⟩ := mem_language_seq.mp hu
  obtain ⟨_, rfl, d, hd, rfl⟩ := mem_language_seq.mp hw
  obtain ⟨x, hx, w', hw', rfl⟩ := mem_language_seq.mp hv
  obtain ⟨y, hy, _, rfl, rfl⟩ := mem_language_seq.mp hw'
  have avoids_point {r : Regex} {w : List Char} (h : r.avoids ['.'] = true)
      (hw : w ∈ r.language) : '.' ∉ w := not_mem_of_avoids h hw List.mem_cons_self
  have hxy : '.' ∉ x ++ y := by
    rw [List.mem_append, not_or]
    exact ⟨avoids_point (by decide) hx, avoids_point (by decide) hy⟩
  obtain ⟨t, ht⟩ := hpre
  rw [List.append_assoc, ← List.append_assoc x y] at ht
  obtain ⟨hsame, -⟩ := append_cons_inj (avoids_point (by decide) ha) hxy ht
  rw [hsame] at ht
  obtain ⟨rfl, -⟩ := List.append_eq_nil_iff.mp (List.cons.inj (List.append_cancel_left ht)).2
  exact absurd (isNullable_of_nil_mem hd) (by decide)

theorem forall_apart (cs : List Char) {r : Regex} {rs : List Regex} (hneeds : r.needs cs = true)
    (havoids : rs.all (Regex.avoids cs) = true) : ∀ s ∈ rs, r.Apart s :=
  fun s hs => apart_of_needs cs hneeds (List.all_eq_true.mp havoids s hs)

theorem pairwise_branches (binary : Bool) : (branches binary).Pairwise Apart := by
  cases binary
  all_goals
    refine .cons (List.forall_mem_cons.mpr ⟨?_, List.forall_mem_cons.mpr ⟨?_,
      List.forall_mem_cons.mpr ⟨apart_exponential_hexadecimal, ?_⟩⟩⟩) ?_
    · exact apart_of_needs ['e', 'E'] (by decide) (by decide)
    · exact apart_of_needs ['e', 'E'] (by decide) (by decide)
    · exact forall_apart ['e', 'E'] (by decide) (by decide)
    refine .cons (List.forall_mem_cons.mpr ⟨apart_pointed_pointLast, ?_⟩) ?_
    · exact forall_apart ['.'] (by decide) (by decide)
    refine .cons (forall_apart ['.'] (by decide) (by decide)) ?_
    refine .cons (forall_apart ['x', 'X'] (by decide) (by decide)) ?_
    refine .cons (forall_apart ['o', 'O'] (by decide) (by decide)) ?_
  · refine .cons (forall_apart "123456789".toList (by decide) (by decide)) ?_
    exact .cons (fun _ h => absurd h List.not_mem_nil) .nil
  · refine .cons (forall_apart ['b', 'B'] (by decide) (by decide)) ?_
    refine .cons (forall_apart "123456789".toList (by decide) (by decide)) ?_
    exact .cons (fun _ h => absurd h List.not_mem_nil) .nil

/-! ### The longest number -/

theorem isPlain_branches (binary : Bool) : (alts (branches binary)).isPlain = true :=
  isPlain_alts fun r hr => (longest_branches binary r hr).1

/-- **The pattern of numbers takes the longest number.**  At every place of every text, its
preferred match is the longest number that stands there, it matches whenever a number stands there,
and as numbers are not empty, a rule with this pattern matches in the same way. -/
theorem exists_longest_number (binary : Bool) :
    ∃ r, Regex.parse (pattern binary) = .ok r ∧ ∀ p : Place,
      (∀ q, r.firstEnd? p = some q ↔
        ∃ w, IsLongestPrefix (numbers binary) p.after w ∧ p.skip? w = some q) ∧
      (r.firstEnd? p = none ↔ ∀ w ∈ numbers binary, ¬ w <+: p.after) ∧
      ∀ (α : Type) (rule : Rule α), rule.recognizer = .pattern r → rule.end? p = r.firstEnd? p := by
  refine ⟨_, parse_pattern binary, fun p => ⟨fun q => ?_, ?_, fun α rule hrule => ?_⟩⟩
  · rw [numbers_eq]
    exact (longest_alts (longest_branches binary) (pairwise_branches binary)).firstEnd?_eq_some_iff
      (isPlain_branches binary) p q
  · rw [numbers_eq]
    exact firstEnd?_eq_none_iff (isPlain_branches binary) p
  · exact Rule.end?_eq_firstEnd? (isPlain_branches binary) (by cases binary <;> decide) hrule p

/-- A decimal with an exponent behind its point, and what does not belong to it. -/
theorem exists_longest_number_decimal :
    ∃ r, Regex.parse (pattern false) = .ok r ∧ ∃ q, r.firstEnd? (.start "1.e5_x".toList) = some q ∧
      IsLongestPrefix (numbers false) "1.e5_x".toList "1.e5".toList := by
  obtain ⟨r, hr, h⟩ := exists_longest_number false
  obtain rfl : alts (branches false) = r := by
    rw [parse_pattern] at hr
    exact Except.ok.inj hr
  obtain ⟨q, hq⟩ : ∃ q, (Place.start "1.e5_x".toList).skip? "1.e5".toList = some q := ⟨_, rfl⟩
  have hfirst : (alts (branches false)).firstEnd? (.start "1.e5_x".toList) =
      (Place.start "1.e5_x".toList).skip? "1.e5".toList := by decide +kernel
  obtain ⟨w, hw, hskip⟩ := ((h (.start "1.e5_x".toList)).1 q).mp (hfirst.trans hq)
  have hsame : w = "1.e5".toList := (Place.textUntil_eq hskip).symm.trans (Place.textUntil_eq hq)
  exact ⟨_, hr, q, hfirst.trans hq, hsame ▸ hw⟩

end Numbers

end Nesting
