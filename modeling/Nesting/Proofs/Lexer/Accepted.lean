import Mathlib.Data.List.Nodup
import Nesting.Lexer.Table
import Nesting.Proofs.Except

/-! # Accepted lexicons

What the checks of a lexicon amount to: no delimiter is empty, no two brackets or strings open
with the same text, no template opens with the text that ends its string, and a reference joins
its symbols by operators of the lexicon (`Lexicon.check_eq_ok_iff`). -/

namespace Nesting

/-! ### What is accepted -/

/-- A comment whose delimiters are not empty. -/
structure CommentForm.Accepted (c : CommentForm) : Prop where
  opening_ne : c.opening ≠ ""
  closing_ne : ∀ o e, c = .multiline o e → e ≠ ""

/-- A template that a string with the given ending may have. -/
structure TemplateForm.Accepted (l : Lexicon) (ending : String) (t : TemplateForm) : Prop where
  opening_ne : t.opening ≠ ""
  opening_ne_ending : t.opening ≠ ending
  closing_ne : ∀ o e, t = .code o e → e ≠ ""
  declared : ∀ o ss ops, t = .reference o ss ops → ∀ op ∈ ops, op ∈ l.operators

/-- A string that a lexicon may have. -/
structure StringForm.Accepted (l : Lexicon) (s : StringForm) : Prop where
  opening_ne : s.opening ≠ ""
  ending_ne : s.ending ≠ ""
  escape_ne : ∀ e, s.escape = some e → e ≠ ""
  templates : ∀ t ∈ s.templates, t.Accepted l s.ending

namespace Lexicon

/-- The texts that open brackets and strings. -/
def openings (l : Lexicon) : List String :=
  l.brackets.map BracketForm.opening ++ l.strings.map StringForm.opening

/-- A lexicon without a fault in its delimiters. -/
structure Accepted (l : Lexicon) : Prop where
  lineJoin_ne : ∀ marker, l.lineJoin = some marker → marker ≠ ""
  comments : ∀ c ∈ l.comments, c.Accepted
  operators_ne : ∀ op ∈ l.operators, op ≠ ""
  brackets_ne : ∀ b ∈ l.brackets, b.opening ≠ "" ∧ b.closing ≠ ""
  strings : ∀ s ∈ l.strings, s.Accepted l
  openings_nodup : l.openings.Nodup

/-! ### The checks -/

theorem checkDelimiter_eq_ok_iff {part : GrammarPart} {text : String} :
    checkDelimiter part text = .ok () ↔ text ≠ "" := by
  rw [checkDelimiter]
  split
  · next h => exact ⟨nofun, fun hne => absurd (String.isEmpty_iff.mp h) hne⟩
  · next h => exact ⟨fun _ he => h (String.isEmpty_iff.mpr he), fun _ => rfl⟩

theorem checkNew_eq_ok_iff {openings : List String} {text : String} :
    checkNew openings text = .ok () ↔ text ∉ openings := by
  rw [checkNew]
  split
  · next h => exact ⟨nofun, fun hnew => absurd (List.contains_iff_mem.mp h) hnew⟩
  · next h => exact ⟨fun _ hm => h (List.contains_iff_mem.mpr hm), fun _ => rfl⟩

theorem checkComment_eq_ok_iff {c : CommentForm} : checkComment c = .ok () ↔ c.Accepted := by
  cases c with
  | line o =>
      rw [checkComment, unit_bind_eq_ok_iff, checkDelimiter_eq_ok_iff]
      exact ⟨fun h => ⟨h.1, nofun⟩, fun h => ⟨h.opening_ne, rfl⟩⟩
  | multiline o e =>
      rw [checkComment, unit_bind_eq_ok_iff, checkDelimiter_eq_ok_iff, checkDelimiter_eq_ok_iff]
      constructor
      · rintro ⟨ho, he⟩
        refine ⟨ho, ?_⟩
        rintro _ _ ⟨⟩
        exact he
      · exact fun h => ⟨h.opening_ne, h.closing_ne o e rfl⟩

/-- The checks of brackets read the openings that came before in reverse. -/
theorem checkBrackets_eq_ok_iff {bs : List BracketForm} {openings result : List String} :
    checkBrackets bs openings = .ok result ↔
      (∀ b ∈ bs, b.opening ≠ "" ∧ b.closing ≠ "") ∧
      (bs.map BracketForm.opening).Nodup ∧
      (∀ text ∈ bs.map BracketForm.opening, text ∉ openings) ∧
      result = (bs.map BracketForm.opening).reverse ++ openings := by
  induction bs generalizing openings with
  | nil =>
      rw [checkBrackets]
      constructor
      · rintro ⟨⟩
        exact ⟨nofun, List.nodup_nil, nofun, rfl⟩
      · rintro ⟨-, -, -, rfl⟩
        rfl
  | cons b bs ih =>
      rw [checkBrackets, unit_bind_eq_ok_iff, unit_bind_eq_ok_iff, unit_bind_eq_ok_iff,
        checkDelimiter_eq_ok_iff, checkDelimiter_eq_ok_iff, checkNew_eq_ok_iff, ih,
        List.forall_mem_cons, List.map_cons, List.nodup_cons, List.forall_mem_cons,
        List.reverse_cons, List.append_assoc, List.singleton_append]
      simp only [List.mem_cons, not_or]
      constructor
      · rintro ⟨ho, hc, hnew, hne, hnodup, hout, rfl⟩
        exact ⟨⟨⟨ho, hc⟩, hne⟩, ⟨fun h => (hout _ h).1 rfl, hnodup⟩,
          ⟨hnew, fun t ht => (hout t ht).2⟩, rfl⟩
      · rintro ⟨⟨⟨ho, hc⟩, hne⟩, ⟨hb, hnodup⟩, ⟨hnew, hout⟩, rfl⟩
        refine ⟨ho, hc, hnew, hne, hnodup, fun t ht => ⟨?_, hout t ht⟩, rfl⟩
        rintro rfl
        exact hb ht

theorem checkTemplate_eq_ok_iff {l : Lexicon} {ending : String} {t : TemplateForm} :
    checkTemplate l ending t = .ok () ↔ t.Accepted l ending := by
  unfold checkTemplate
  rw [unit_bind_eq_ok_iff, checkDelimiter_eq_ok_iff]
  by_cases he : t.opening = ending
  · rw [if_pos he]
    exact ⟨fun h => (nomatch h.2), fun h => absurd he h.opening_ne_ending⟩
  · rw [if_neg he]
    cases t with
    | code o e =>
        show _ ∧ checkDelimiter .template e = .ok () ↔ _
        rw [checkDelimiter_eq_ok_iff]
        constructor
        · rintro ⟨ho, hc⟩
          refine ⟨ho, he, ?_, nofun⟩
          rintro _ _ ⟨⟩
          exact hc
        · exact fun h => ⟨h.opening_ne, h.closing_ne o e rfl⟩
    | reference o ss ops =>
        constructor
        · rintro ⟨ho, h⟩
          refine ⟨ho, he, nofun, ?_⟩
          rintro _ _ _ ⟨⟩ op hop
          dsimp only at h
          split at h
          · cases h
          · next hfind =>
            have := List.find?_eq_none.mp hfind op hop
            simpa using this
        · intro h
          have hfind : ops.find? (!l.operators.contains ·) = none := by
            rw [List.find?_eq_none]
            intro op hop
            simp [h.declared o ss ops rfl op hop]
          refine ⟨h.opening_ne, ?_⟩
          dsimp only
          rw [hfind]
          rfl

theorem checkStrings_eq_ok_iff {l : Lexicon} {ss : List StringForm} {openings : List String} :
    checkStrings l ss openings = .ok () ↔
      (∀ s ∈ ss, s.Accepted l) ∧ (ss.map StringForm.opening).Nodup ∧
      ∀ text ∈ ss.map StringForm.opening, text ∉ openings := by
  induction ss generalizing openings with
  | nil => simp [checkStrings]
  | cons s ss ih =>
      have body :
          checkStrings l (s :: ss) openings = .ok () ↔
            s.opening ≠ "" ∧ s.ending ≠ "" ∧ (∀ e, s.escape = some e → e ≠ "") ∧
            checkNew openings s.opening = .ok () ∧
            s.templates.forM (l.checkTemplate s.ending) = .ok () ∧
            checkStrings l ss (s.opening :: openings) = .ok () := by
        rw [checkStrings, unit_bind_eq_ok_iff, unit_bind_eq_ok_iff, checkDelimiter_eq_ok_iff,
          checkDelimiter_eq_ok_iff]
        cases s.escape with
        | none =>
            dsimp only
            rw [unit_bind_eq_ok_iff, unit_bind_eq_ok_iff]
            simp
        | some e =>
            dsimp only
            rw [unit_bind_eq_ok_iff, unit_bind_eq_ok_iff, unit_bind_eq_ok_iff,
              checkDelimiter_eq_ok_iff]
            simp
      rw [body, checkNew_eq_ok_iff, forM_eq_ok_iff, ih, List.forall_mem_cons, List.map_cons,
        List.nodup_cons, List.forall_mem_cons]
      simp only [checkTemplate_eq_ok_iff, List.mem_cons, not_or]
      constructor
      · rintro ⟨ho, hc, hesc, hnew, ht, hss, hnodup, hout⟩
        exact ⟨⟨⟨ho, hc, hesc, ht⟩, hss⟩, ⟨fun h => (hout _ h).1 rfl, hnodup⟩, hnew,
          fun t ht => (hout t ht).2⟩
      · rintro ⟨⟨⟨ho, hc, hesc, ht⟩, hss⟩, ⟨hs, hnodup⟩, hnew, hout⟩
        refine ⟨ho, hc, hesc, hnew, ht, hss, hnodup, fun t ht => ⟨?_, hout t ht⟩⟩
        rintro rfl
        exact hs ht

/-- The checks pass on exactly the accepted lexicons. -/
theorem check_eq_ok_iff {l : Lexicon} : l.check = .ok () ↔ l.Accepted := by
  have body :
      l.check = .ok () ↔
        (∀ marker, l.lineJoin = some marker → marker ≠ "") ∧
        l.comments.forM checkComment = .ok () ∧
        l.operators.forM (checkDelimiter .operator) = .ok () ∧
        ∃ openings, checkBrackets l.brackets [] = .ok openings ∧
          checkStrings l l.strings openings = .ok () := by
    rw [check]
    cases l.lineJoin with
    | none =>
        dsimp only
        rw [unit_bind_eq_ok_iff, unit_bind_eq_ok_iff, bind_eq_ok_iff]
        simp
    | some marker =>
        dsimp only
        rw [unit_bind_eq_ok_iff, unit_bind_eq_ok_iff, unit_bind_eq_ok_iff, bind_eq_ok_iff,
          checkDelimiter_eq_ok_iff]
        simp
  rw [body, forM_eq_ok_iff, forM_eq_ok_iff]
  simp only [checkComment_eq_ok_iff, checkDelimiter_eq_ok_iff, checkBrackets_eq_ok_iff,
    checkStrings_eq_ok_iff]
  constructor
  · rintro ⟨hj, hc, hop, _, ⟨hb, hbn, -, rfl⟩, hs, hsn, hout⟩
    refine ⟨hj, hc, hop, hb, hs, List.nodup_append.mpr ⟨hbn, hsn, ?_⟩⟩
    rintro text hb' _ hs' rfl
    exact hout text hs' (by simpa using hb')
  · rintro ⟨hj, hc, hop, hb, hs, hn⟩
    obtain ⟨hbn, hsn, hdis⟩ := List.nodup_append.mp hn
    refine ⟨hj, hc, hop, _, ⟨hb, hbn, fun _ _ => List.not_mem_nil, rfl⟩, hs, hsn, ?_⟩
    intro text hs' hb'
    exact hdis text (by simpa using hb') text hs' rfl

end Lexicon

end Nesting
