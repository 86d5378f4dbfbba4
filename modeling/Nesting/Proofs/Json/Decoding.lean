import Mathlib.Data.List.Nodup
import Nesting.Json.Decode
import Nesting.Proofs.Except
import Nesting.Proofs.Json.Writing

/-! # Decoded values

`Decoder.Reads d j x` says that a decoder makes a value of a JSON value that can be written
without a loss, so that it makes the same of the written text (`Reads.run_compact`,
`Reads.run_pretty`).  There is one lemma for each decoder.

A record is read if its members fill its fields one after the other (`Fills`).  The members of a
tagged record fill the fields of the variant that the tag names, wherever the tag stands among
them. -/

namespace Nesting.Decoder

variable {α β : Type}

/-- A decoder makes a value of a JSON value that can be written without a loss. -/
structure Reads (d : Decoder α) (j : Json) (x : α) : Prop where
  isWhole : j.IsWhole
  decode_eq : d j = .ok x

/-! ### Whole texts -/

theorem Reads.run_of_read {d : Decoder α} {j : Json} {x : α} (h : Reads d j x) {s : String}
    (hs : Json.read s = (j, none)) : run d s = .ok x := by
  rw [run, hs]
  exact bind_eq_ok_iff.mpr ⟨x, h.decode_eq, rfl⟩

theorem Reads.run_compact {d : Decoder α} {j : Json} {x : α} (h : Reads d j x) :
    run d j.compact = .ok x :=
  h.run_of_read h.isWhole.read_compact

theorem Reads.run_pretty {d : Decoder α} {j : Json} {x : α} (h : Reads d j x) :
    run d j.pretty = .ok x :=
  h.run_of_read h.isWhole.read_pretty

/-! ### Simple values and lists -/

theorem reads_text (s : String) : Reads text (.string s) s := ⟨.string s, rfl⟩

theorem reads_boolean (b : Bool) : Reads boolean (.bool b) b := ⟨.bool b, rfl⟩

theorem reads_count {n : Nat} (h : n ≤ Json.Reader.greatestNatural) : Reads count (.nat n) n :=
  ⟨.natural h, rfl⟩

theorem reads_optional (s : Option String) : Reads (optional text) (.optional s) s := by
  cases s with
  | none => exact ⟨.null, rfl⟩
  | some s => exact ⟨.string s, rfl⟩

theorem reads_list {d : Decoder α} {encode : α → Json} (h : ∀ x, Reads d (encode x) x)
    (xs : List α) : Reads (list d) (.list (xs.map encode)) xs := by
  refine ⟨.list ?_, bind_eq_ok_iff.mpr ⟨xs, ?_, rfl⟩⟩
  · intro j hj
    obtain ⟨x, -, rfl⟩ := List.mem_map.mp hj
    exact (h x).isWhole
  · rw [mapM_eq_ok_iff, List.forall₂_map_left_iff, List.forall₂_same]
    exact fun x _ => (h x).decode_eq

theorem reads_strings (ss : List String) : Reads (list text) (.strings ss) ss :=
  reads_list reads_text ss

theorem depth_strings (ss : List String) : (Json.strings ss).depth = 1 := by
  have hall : Json.depthAll (ss.map .string) = 0 := by
    induction ss with
    | nil => rfl
    | cons s ss ih =>
        rw [List.map_cons, Json.depthAll, ih]
        rfl
  rw [Json.strings, Json.list, Json.depth, hall]

/-! ### Records -/

/-- Members give a record its fields, in their order. -/
inductive Fills : α → List (RecordField α) → List (String × Json) → α → Prop
  | nil (a : α) : Fills a [] [] a
  | cons {a a' b : α} {field : RecordField α} {fields : List (RecordField α)} {j : Json}
      {members : List (String × Json)} : j.IsWhole → field.read a j = .ok a' →
      Fills a' fields members b → Fills a (field :: fields) ((field.name, j) :: members) b

namespace Fills

variable {a b : α} {fields : List (RecordField α)} {members : List (String × Json)}

theorem required {d : Decoder β} {j : Json} {x : β} {name : String} {set : α → β → α}
    (hx : Reads d j x) (h : Fills (set a x) fields members b) :
    Fills a (Decoder.required name d set :: fields) ((name, j) :: members) b :=
  .cons hx.isWhole (map_eq_ok_iff.mpr ⟨x, hx.decode_eq, rfl⟩) h

theorem defaulted {d : Decoder β} {j : Json} {x : β} {name : String} {set : α → β → α}
    (hx : Reads d j x) (h : Fills (set a x) fields members b) :
    Fills a (Decoder.defaulted name d set :: fields) ((name, j) :: members) b :=
  .cons hx.isWhole (map_eq_ok_iff.mpr ⟨x, hx.decode_eq, rfl⟩) h

theorem isWhole (h : Fills a fields members b) : ∀ m ∈ members, m.2.IsWhole := by
  induction h with
  | nil a =>
      intro m hm
      cases hm
  | cons hj _ _ ih => exact List.forall_mem_cons.mpr ⟨hj, ih⟩

theorem map_fst (h : Fills a fields members b) :
    members.map Prod.fst = fields.map RecordField.name := by
  induction h with
  | nil a => rfl
  | cons _ _ _ ih => rw [List.map_cons, List.map_cons, ih]

end Fills

/-- A field is found by its name. -/
theorem find?_name {fields : List (RecordField α)} (hnames : (fields.map RecordField.name).Nodup)
    {field : RecordField α} (h : field ∈ fields) :
    fields.find? (·.name == field.name) = some field := by
  obtain ⟨before, after, rfl⟩ := List.append_of_mem h
  rw [List.find?_eq_some_iff_append]
  refine ⟨beq_self_eq_true _, before, after, rfl, fun other hother => ?_⟩
  rw [List.map_append, List.map_cons, List.nodup_middle, List.nodup_cons] at hnames
  have hne : other.name ≠ field.name := fun heq =>
    hnames.1 (List.mem_append_left _ (heq ▸ List.mem_map_of_mem hother))
  rw [beq_eq_false_iff_ne.mpr hne]
  rfl

/-- The members that fill the last fields of a record are read if the earlier ones have been. -/
theorem membersFrom_of_fills {all fields : List (RecordField α)}
    (hnames : (all.map RecordField.name).Nodup) {seen : List String} {a b : α}
    {members : List (String × Json)} (h : Fills a fields members b) (hall : fields <:+ all)
    (hseen : (seen ++ fields.map RecordField.name).Nodup) :
    membersFrom all seen a members = .ok ((fields.map RecordField.name).reverse ++ seen, b) := by
  induction h generalizing seen with
  | nil a => rfl
  | @cons a a' b field fields j members _ hread _ ih =>
      rw [List.map_cons, List.nodup_middle, List.nodup_cons] at hseen
      obtain ⟨hnew, hseen'⟩ := hseen
      have hfind := find?_name hnames (hall.subset List.mem_cons_self)
      have hcontains : seen.contains field.name = false := by
        rw [List.contains_eq_mem, decide_eq_false_iff_not]
        exact fun hmem => hnew (List.mem_append_left _ hmem)
      have hrest := ih ((List.suffix_cons field fields).trans hall)
        (show (field.name :: seen ++ fields.map RecordField.name).Nodup from
          List.nodup_cons.mpr ⟨hnew, hseen'⟩)
      rw [membersFrom, hfind]
      dsimp only
      rw [hcontains, if_neg Bool.false_ne_true, hread, List.map_cons, List.reverse_cons,
        List.append_assoc]
      exact hrest

theorem ofMembers_of_fills {fields : List (RecordField α)} {start b : α}
    {members : List (String × Json)} (h : Fills start fields members b)
    (hnames : (fields.map RecordField.name).Nodup) :
    ofMembers fields start members none = .ok b := by
  have hmembers : membersFrom fields [] start members =
      .ok ((fields.map RecordField.name).reverse ++ [], b) :=
    membersFrom_of_fills hnames h (List.suffix_refl _) hnames
  have hmissing : (fields.find? fun field : RecordField α => field.required &&
      !((fields.map RecordField.name).reverse ++ []).contains field.name) = none := by
    rw [List.find?_eq_none]
    intro field hfield
    have hname : ((fields.map RecordField.name).reverse ++ []).contains field.name := by
      rw [List.append_nil, List.contains_iff_mem, List.mem_reverse]
      exact List.mem_map_of_mem hfield
    rw [hname, Bool.not_true, Bool.and_false]
    exact Bool.false_ne_true
  refine bind_eq_ok_iff.mpr ⟨_, hmembers, unit_bind_eq_ok_iff.mpr ⟨rfl, ?_⟩⟩
  rw [hmissing]
  rfl

theorem reads_record {fields : List (RecordField α)} {start b : α}
    {members : List (String × Json)} (h : Fills start fields members b)
    (hnames : (fields.map RecordField.name).Nodup) (name : String) :
    Reads (record name fields start) (.record members) b :=
  ⟨.record h.isWhole, ofMembers_of_fills h hnames⟩

/-! ### Tagged records -/

theorem keep_of_isWhole {j : Json} (h : j.IsWhole) {room : Nat} (hdepth : j.depth ≤ room) :
    keep room j = .ok () := by
  rw [keep, if_neg (Nat.not_lt.mpr hdepth), h.fault?_eq_none]
  rfl

/-- Members that are no tag are kept, in front of what is kept behind them. -/
theorem taggedMembers_append {variants : List (Variant α)} {room : Nat}
    {variant variant' : Option (Variant α)} {before after kept : List (String × Json)}
    (hbefore : ∀ m ∈ before, m.1 ≠ tagField ∧ keep room m.2 = .ok ())
    (hafter : taggedMembers variants room variant after = .ok (variant', kept)) :
    taggedMembers variants room variant (before ++ after) = .ok (variant', before ++ kept) := by
  induction before with
  | nil => exact hafter
  | cons m before ih =>
      obtain ⟨⟨hm, hkeep⟩, hbefore⟩ := List.forall_mem_cons.mp hbefore
      rw [List.cons_append, taggedMembers, if_neg hm, unit_bind_eq_ok_iff]
      exact ⟨hkeep, bind_eq_ok_iff.mpr ⟨_, ih hbefore, rfl⟩⟩

/-- The tag is found among the other members, which are kept in their order. -/
theorem taggedMembers_of_tag {variants : List (Variant α)} {room : Nat} {v : Variant α}
    {name : String} (hfind : variants.find? (·.name == name) = some v)
    {before after : List (String × Json)}
    (hmembers : ∀ m ∈ before ++ after, m.1 ≠ tagField ∧ keep room m.2 = .ok ()) :
    taggedMembers variants room none (before ++ (tagField, .string name) :: after) =
      .ok (some v, before ++ after) := by
  rw [List.forall_mem_append] at hmembers
  obtain ⟨hbefore, hafter⟩ := hmembers
  have hrest : taggedMembers variants room (some v) after = .ok (some v, after) := by
    have hnil : taggedMembers variants room (some v) [] = .ok (some v, []) := rfl
    simpa only [List.append_nil] using taggedMembers_append hafter hnil
  have htag : tag variants (.string name) = .ok v := by rw [tag, hfind]
  refine taggedMembers_append hbefore ?_
  rw [taggedMembers, if_pos rfl, htag]
  exact hrest

/-- A tagged record is read if the members around its tag fill the fields of its variant and are
no deeper than there is room for. -/
theorem reads_tagged {variants : List (Variant α)} {room : Nat} {v : Variant α} {name : String}
    (hfind : variants.find? (·.name == name) = some v) (before : List (String × Json))
    {after : List (String × Json)} {b : α} (h : Fills v.start v.fields (before ++ after) b)
    (hnames : (tagField :: v.fields.map RecordField.name).Nodup)
    (hdepth : ∀ m ∈ before ++ after, m.2.depth ≤ room) (owner : String) :
    Reads (tagged owner room variants) (.record (before ++ (tagField, .string name) :: after))
      b := by
  rw [List.nodup_cons] at hnames
  have hkeep : ∀ m ∈ before ++ after, m.1 ≠ tagField ∧ keep room m.2 = .ok () := by
    intro m hm
    refine ⟨fun heq => hnames.1 ?_, keep_of_isWhole (h.isWhole m hm) (hdepth m hm)⟩
    rw [← h.map_fst, ← heq]
    exact List.mem_map_of_mem hm
  constructor
  · refine .record fun m hm => ?_
    rcases List.mem_append.mp hm with hm | hm
    · exact h.isWhole m (List.mem_append_left _ hm)
    rcases List.mem_cons.mp hm with rfl | hm
    · exact .string name
    · exact h.isWhole m (List.mem_append_right _ hm)
  · exact bind_eq_ok_iff.mpr ⟨_, taggedMembers_of_tag hfind hkeep, ofMembers_of_fills h hnames.2⟩

end Nesting.Decoder
