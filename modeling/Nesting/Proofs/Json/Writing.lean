import Nesting.Proofs.Json.Spelling

/-! # Written values

What `Json.compact` and `Json.pretty` write is read back as it was, whatever its texts and keys
hold, as long as nothing in it is broken and all its numbers are whole numbers of 64 bits
(`Json.IsWhole`). -/

namespace Nesting.Json

open Reader

/-- A value without a fault whose numbers are whole numbers of 64 bits. -/
inductive IsWhole : Json → Prop
  | null : IsWhole .null
  | bool (b : Bool) : IsWhole (.bool b)
  | natural {n : Nat} : n ≤ greatestNatural → IsWhole (.number (.natural n))
  | negative {n : Nat} : 0 < n → n ≤ Nat.pow 2 63 → IsWhole (.number (.negative n))
  | string (s : String) : IsWhole (.string s)
  | list {items : List Json} : (∀ j ∈ items, IsWhole j) → IsWhole (.list items)
  | record {members : List (String × Json)} :
      (∀ m ∈ members, IsWhole m.2) → IsWhole (.record members)

/-! ### Faults -/

theorem faultAll?_eq_none {js : List Json} (h : ∀ j ∈ js, j.fault? = none) :
    faultAll? js = none := by
  induction js with
  | nil => rfl
  | cons j js ih =>
      rw [faultAll?, h j List.mem_cons_self, ih fun k hk => h k (List.mem_cons_of_mem _ hk)]
      rfl

theorem faultMembers?_eq_none {ms : List (String × Json)} (h : ∀ m ∈ ms, m.2.fault? = none) :
    faultMembers? ms = none := by
  induction ms with
  | nil => rfl
  | cons m ms ih =>
      rw [faultMembers?, h m List.mem_cons_self, ih fun k hk => h k (List.mem_cons_of_mem _ hk)]
      rfl

theorem IsWhole.fault?_eq_none {j : Json} (h : IsWhole j) : j.fault? = none := by
  induction h with
  | null | bool | natural | negative | string => rfl
  | list _ ih => rw [Json.list, fault?, faultAll?_eq_none ih, Option.none_or]
  | record _ ih => rw [Json.record, fault?, faultMembers?_eq_none ih, Option.none_or]

/-! ### On one line -/

theorem endsNumber_bracket (after : List Char) : EndsNumber (']' :: after) := by
  rintro _ ⟨⟩
  decide

theorem endsNumber_brace (after : List Char) : EndsNumber ('\x7d' :: after) := by
  rintro _ ⟨⟩
  decide

theorem IsWhole.spells_compactBefore {j : Json} (h : IsWhole j) {after : List Char}
    (hafter : EndsNumber after) : Spells (compactBefore j after) j after := by
  induction h generalizing after with
  | null => exact .word_null after
  | bool b =>
      cases b with
      | true => exact .word_true after
      | false => exact .word_false after
  | natural hn => exact .natural hn hafter
  | negative hpos hn => exact .negative hpos hn hafter
  | string s => exact .string s after
  | @list js _ ih =>
      cases js with
      | nil => exact .array (spellsParts_items_nil [] rfl true after)
      | cons j js =>
          exact .array (spellsParts_of_writer compactBefore compactItems ([] ++ ']' :: ·)
            (fun _ _ => rfl) (fun _ _ _ _ => rfl) endsNumber_bracket
            (spellsParts_items_nil [] rfl false) (fun k hk _ hmid => (ih k hk hmid).item) true
            after)
  | @record ms _ ih =>
      cases ms with
      | nil => exact .object (spellsParts_members_nil [] rfl true after)
      | cons m ms =>
          exact .object (spellsParts_of_writer
            (fun m after => quote m.1 ++ ':' :: compactBefore m.2 after) compactMembers
            ([] ++ '\x7d' :: ·) (fun _ _ => rfl) (fun _ _ _ _ => rfl) endsNumber_brace
            (spellsParts_members_nil [] rfl false)
            (fun k hk _ hmid => (ih k hk hmid).member [] rfl k.1) true after)

/-! ### Over several lines -/

theorem skipBlanks_newLine (level : Nat) :
    skipBlanks ('\n' :: List.replicate (2 * level) ' ') = [] := by
  rw [skipBlanks, List.dropWhile_eq_nil_iff]
  intro c hc
  rcases List.mem_cons.mp hc with rfl | hc
  · rfl
  · rw [List.eq_of_mem_replicate hc]
    rfl

theorem IsWhole.spells_prettyBefore {j : Json} (h : IsWhole j) (level : Nat) {after : List Char}
    (hafter : EndsNumber after) : Spells (prettyBefore level j after) j after := by
  induction h generalizing level after with
  | null => exact .word_null after
  | bool b =>
      cases b with
      | true => exact .word_true after
      | false => exact .word_false after
  | natural hn => exact .natural hn hafter
  | negative hpos hn => exact .negative hpos hn hafter
  | string s => exact .string s after
  | @list js _ ih =>
      cases js with
      | nil => exact .array (spellsParts_items_nil [] rfl true after)
      | cons j js =>
          refine .array (spellsParts_of_writer
            (fun j after => newLine (level + 1) (prettyBefore (level + 1) j after))
            (prettyItems level) (newLine level <| ']' :: ·) (fun _ _ => rfl)
            (fun _ _ _ _ => rfl) ?_ ?_ ?_ true after)
          · exact fun after => endsNumber_append (skipBlanks_newLine level)
              (endsNumber_bracket after)
          · exact spellsParts_items_nil _ (skipBlanks_newLine level) false
          · intro k hk mid hmid
            exact ((ih k hk (level + 1) hmid).blanks _ (skipBlanks_newLine (level + 1))).item
  | @record ms _ ih =>
      cases ms with
      | nil => exact .object (spellsParts_members_nil [] rfl true after)
      | cons m ms =>
          refine .object (spellsParts_of_writer
            (fun m after => newLine (level + 1) <| quote m.1 ++ ':' :: ' ' ::
              prettyBefore (level + 1) m.2 after)
            (prettyMembers level) (newLine level <| '\x7d' :: ·) (fun _ _ => by rw [prettyMembers])
            (fun _ _ _ _ => by rw [prettyMembers]; nofun) ?_ ?_ ?_ true after)
          · exact fun after => endsNumber_append (skipBlanks_newLine level)
              (endsNumber_brace after)
          · exact spellsParts_members_nil _ (skipBlanks_newLine level) false
          · intro k hk mid hmid
            have hvalue : Spells (' ' :: prettyBefore (level + 1) k.2 mid) k.2 mid :=
              (ih k hk (level + 1) hmid).blanks [' '] rfl
            exact hvalue.member _ (skipBlanks_newLine (level + 1)) k.1

/-! ### Whole texts -/

theorem read_of_spells {s : String} {j : Json} (h : Spells s.toList j []) :
    read s = (j, none) := by
  rw [read, h.value_eq _ (Nat.le_add_right _ _)]
  rfl

theorem IsWhole.read_compact {j : Json} (h : IsWhole j) : read (compact j) = (j, none) := by
  apply read_of_spells
  rw [compact, String.toList_ofList]
  exact h.spells_compactBefore endsNumber_nil

theorem IsWhole.read_pretty {j : Json} (h : IsWhole j) : read (pretty j) = (j, none) := by
  apply read_of_spells
  rw [pretty, String.toList_ofList]
  exact h.spells_prettyBefore 0 endsNumber_nil

end Nesting.Json
