import Nesting.Proofs.Text.Quoted
import Nesting.Proofs.Text.Words
import Nesting.Text.Palette

/-! # Colours are decoration

`Palette.erase` deletes the escape sequences of a terminal from a text.  `Palette.Decorates` says
that a text becomes another one when they are deleted, whatever comes after it; such texts can be
put one after the other.  A text without the escape character decorates itself, and every quoted
text is one. -/

namespace Nesting

/-! ### Texts without the escape character -/

/-- A text that no escape sequence begins in. -/
def Unescaped (s : String) : Prop := '\x1b' ∉ s.toList

instance (s : String) : Decidable (Unescaped s) := inferInstanceAs (Decidable (¬ _))

theorem Unescaped.append {s t : String} (hs : Unescaped s) (ht : Unescaped t) :
    Unescaped (s ++ t) := by
  rw [Unescaped, String.toList_append, List.mem_append]
  exact not_or.mpr ⟨hs, ht⟩

theorem unescaped_toString (n : ℕ) : Unescaped (toString n) := not_mem_toString_nat rfl n

theorem unescaped_blanks (n : ℕ) : Unescaped (String.ofList (List.replicate n ' ')) := by
  rw [Unescaped, String.toList_ofList]
  exact fun h => absurd (List.eq_of_mem_replicate h) (by decide)

namespace Quoting

theorem unescaped_quote {q : Quoting} (hq : q.isSpelled '\x1b') (s : String) :
    Unescaped (q.quote s) := by
  intro h
  rcases prints_of_mem_quote h with h | h
  · exact absurd h (by decide)
  · exact absurd (hq.symm.trans h) nofun

theorem unescaped_plain (s : String) : Unescaped (plain.quote s) := unescaped_quote rfl s

theorem unescaped_full (s : String) : Unescaped (full.quote s) :=
  unescaped_quote (by decide +kernel) s

end Quoting

/-! ### Deleting escape sequences -/

namespace Palette

/-- The texts that a palette writes around others. -/
def codes (p : Palette) : List String := [p.blue, p.green, p.dim, p.reset]

/-- Deletes from left to right what begins with one of the codes.  The number says how many
characters of a code are still to be dropped. -/
def eraseFrom (codes : List (List Char)) : ℕ → List Char → List Char
  | _, [] => []
  | skip + 1, _ :: cs => eraseFrom codes skip cs
  | 0, c :: cs =>
    match codes.find? (·.isPrefixOf (c :: cs)) with
    | some code => eraseFrom codes (code.length - 1) cs
    | none => c :: eraseFrom codes 0 cs

/-- The characters that are left without the escape sequences of a terminal. -/
def eraseList (cs : List Char) : List Char := eraseFrom (on.codes.map String.toList) 0 cs

/-- A text without the escape sequences of a terminal. -/
def erase (s : String) : String := String.ofList (eraseList s.toList)

theorem head?_of_mem_codes : ∀ code ∈ on.codes, code.toList.head? = some '\x1b' := by decide

theorem eraseList_cons_of_ne {c : Char} (h : c ≠ '\x1b') (cs : List Char) :
    eraseList (c :: cs) = c :: eraseList cs := by
  have hfind : (on.codes.map String.toList).find? (·.isPrefixOf (c :: cs)) = none := by
    refine List.find?_eq_none.mpr fun cs hcs => ?_
    obtain ⟨code, hcode, rfl⟩ := List.mem_map.mp hcs
    obtain ⟨rest, hrest⟩ := List.head?_eq_some_iff.mp (head?_of_mem_codes code hcode)
    simp [hrest, List.isPrefixOf, h.symm]
  rw [eraseList, eraseFrom, hfind]
  rfl

theorem eraseList_append_of_unescaped {cs : List Char} (h : '\x1b' ∉ cs) (rest : List Char) :
    eraseList (cs ++ rest) = cs ++ eraseList rest := by
  induction cs with
  | nil => rfl
  | cons c cs ih =>
      obtain ⟨hc, hcs⟩ := not_or.mp (List.mem_cons.not.mp h)
      rw [List.cons_append, eraseList_cons_of_ne (Ne.symm hc), ih hcs, List.cons_append]

theorem eraseList_code_append {code : String} (h : code ∈ on.codes) (rest : List Char) :
    eraseList (code.toList ++ rest) = eraseList rest := by
  simp only [codes, on, List.mem_cons, List.not_mem_nil, or_false] at h
  rcases h with rfl | rfl | rfl | rfl <;> rfl

/-- The first text becomes the second one when the escape sequences are deleted, whatever comes
after it. -/
def Decorates (s t : String) : Prop :=
  ∀ rest, eraseList (s.toList ++ rest) = t.toList ++ eraseList rest

namespace Decorates

variable {s t s' t' : String}

theorem erase_eq (h : Decorates s t) : erase s = t := by
  have hnil := h []
  rw [List.append_nil] at hnil
  rw [erase, hnil]
  exact (congrArg String.ofList (List.append_nil _)).trans (String.ofList_toList ..)

theorem append (h : Decorates s t) (h' : Decorates s' t') : Decorates (s ++ s') (t ++ t') := by
  intro rest
  rw [String.toList_append, String.toList_append, List.append_assoc, h, h', List.append_assoc]

theorem nil : Decorates "" "" := fun _ => rfl

theorem of_unescaped (h : Unescaped s) : Decorates s s :=
  fun rest => eraseList_append_of_unescaped h rest

theorem code (h : s ∈ on.codes) : Decorates s "" := fun rest => eraseList_code_append h rest

theorem join {ss ts : List String} (h : List.Forall₂ Decorates ss ts) :
    Decorates (String.join ss) (String.join ts) := by
  induction h with
  | nil => exact nil
  | cons h _ ih =>
      rw [String.join_cons, String.join_cons]
      exact h.append ih

theorem paint {text code : String} (hcode : code ∈ on.codes) (h : Unescaped text) :
    Decorates (on.paint code text) (off.paint "" text) := by
  have hisEmpty : ∀ code ∈ on.codes, code.isEmpty = false := by decide
  rw [show off.paint "" text = text from rfl, Palette.paint, hisEmpty code hcode]
  have hpainted := ((Decorates.code hcode).append (of_unescaped h)).append
    (Decorates.code (s := on.reset) (by decide))
  simpa using hpainted

theorem kind {text : String} (h : Unescaped text) : Decorates (on.kind text) (off.kind text) :=
  paint (by decide) h

theorem text {text : String} (h : Unescaped text) : Decorates (on.text text) (off.text text) :=
  paint (by decide) h

theorem detail {text : String} (h : Unescaped text) :
    Decorates (on.detail text) (off.detail text) := paint (by decide) h

end Decorates

end Palette

end Nesting
