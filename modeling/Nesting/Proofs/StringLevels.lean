import Nesting.Proofs.Lexer.Strings
import Nesting.Proofs.Tree.Trees

/-! # Levels under strings

The lexer and the builder both keep a stack.  As long as the strings that are open for the lexer
are clean, the innermost levels of the builder are theirs: `InCode` and `InText` say which, by the
number of brackets that are open.  A string that leaves a bracket open stays among the levels, and
from then on the strings around it have lost their place (`Lost`): it lies above them until they
end.

Every token keeps to this, one lemma for each: `InCode.read` for the code of a template,
`InText.plain` for the content of a string, and `InText.stringEnd` for its end, which ends the
string's own level exactly when the brackets in the string balance. -/

namespace Nesting

open Builder RuleTable

/-! ### Levels and open strings -/

/-- The openings of open strings, as they stand in levels. -/
def OpenString.openings (strings : List OpenString) : List (Option Token) :=
  strings.map fun s => some s.opening

/-- Strings above which the builder has a string that the lexer has left. -/
structure Lost (strings : List OpenString) (levels : List (TreeKind × Option Token)) : Prop where
  unclean : ∀ s ∈ strings, s.isClean = false
  below : strings ≠ [] → ∃ opening outer, openStrings levels = opening :: outer ∧
    (OpenString.openings strings).Sublist outer

/-- The levels of the builder where the lexer reads code: above a template of the innermost
string, only its open brackets. -/
inductive InCode : List OpenString → List (TreeKind × Option Token) → Prop
  | lost {strings levels} : Lost strings levels → InCode strings levels
  | template {s strings brackets opening levels} : s.isClean →
      (∀ b ∈ brackets, b.1 = TreeKind.wrapped) → brackets.length = s.depth →
      InCode strings levels →
      InCode (s :: strings)
        (brackets ++ (.template, opening) :: (.string, some s.opening) :: levels)

/-- The levels of the builder where the lexer reads the content of a string: the string itself,
unless a template in it has left brackets open. -/
inductive InText : List OpenString → List (TreeKind × Option Token) → Prop
  | lost {strings levels} : Lost strings levels → InText strings levels
  | string {s strings levels} : s.isClean → s.depth = 0 → InCode strings levels →
      InText (s :: strings) ((.string, some s.opening) :: levels)
  | brackets {s strings bracket brackets opening levels} : s.isClean →
      (∀ b ∈ bracket :: brackets, b.1 = TreeKind.wrapped) →
      (bracket :: brackets).length = s.depth → InCode strings levels →
      InText (s :: strings)
        (bracket :: brackets ++ (.template, opening) :: (.string, some s.opening) :: levels)

/-- How a token changes the levels: it is placed, wherever a string is open. -/
structure Follows (t : Token) (levels levels' : List (TreeKind × Option Token)) : Prop where
  openStrings_eq : openStrings levels' = openStrings (placeLevels t levels)
  eq_placeLevels : openStrings levels ≠ [] → levels' = placeLevels t levels
  exists_start : t.kind = .stringStart → ∃ outer, levels' = (.string, some t) :: outer

theorem follows_of_step {b b' : Builder} {t : Token} (h : Builder.Step t b b') (hb : b.Shaped) :
    Follows t b.signature b'.signature where
  openStrings_eq := h.openStrings_eq hb
  eq_placeLevels hopen := h.signature_eq fun hn => hopen (hb.openStrings_eq_nil hn)
  exists_start := h.signature_start

/-! ### Lost strings -/

theorem Lost.nil (levels : List (TreeKind × Option Token)) : Lost [] levels :=
  ⟨nofun, fun h => absurd rfl h⟩

theorem Lost.of_openStrings_eq {strings : List OpenString}
    {levels levels' : List (TreeKind × Option Token)} (h : Lost strings levels)
    (ho : openStrings levels' = openStrings levels) : Lost strings levels' :=
  ⟨h.unclean, ho ▸ h.below⟩

/-- What a string reads does not bring it back. -/
theorem Lost.read {s : OpenString} {strings : List OpenString}
    {levels : List (TreeKind × Option Token)} (h : Lost (s :: strings) levels) (t : Token) :
    Lost (s.read t :: strings) levels := by
  refine ⟨?_, fun _ => ?_⟩
  · rw [List.forall_mem_cons, OpenString.isClean_read]
    exact List.forall_mem_cons.mp h.unclean
  · obtain ⟨opening, outer, houter, hsub⟩ := h.below (List.cons_ne_nil _ _)
    refine ⟨opening, outer, houter, ?_⟩
    rw [OpenString.openings, List.map_cons, OpenString.opening_read]
    exact hsub

theorem openStrings_brackets {brackets : List (TreeKind × Option Token)}
    (h : ∀ b ∈ brackets, b.1 = TreeKind.wrapped) (levels : List (TreeKind × Option Token)) :
    openStrings (brackets ++ levels) = openStrings levels := by
  have hnone : brackets.filter (fun level => level.1 = .string) = [] := by
    rw [List.filter_eq_nil_iff]
    intro b hb
    simp [h b hb]
  rw [openStrings, List.filter_append, hnone, List.nil_append, openStrings]

/-- The open strings of the lexer are among those of the builder. -/
theorem InCode.sublist {strings : List OpenString} {levels : List (TreeKind × Option Token)}
    (h : InCode strings levels) :
    (OpenString.openings strings).Sublist (openStrings levels) := by
  induction h with
  | @lost strings levels h =>
      cases strings with
      | nil => exact List.nil_sublist _
      | cons s strings =>
          obtain ⟨opening, outer, houter, hsub⟩ := h.below (List.cons_ne_nil _ _)
          exact houter ▸ hsub.cons opening
  | template _ hwrapped _ _ ih =>
      rw [openStrings_brackets hwrapped, openStrings_cons_of_ne (by decide), openStrings_string]
      exact ih.cons_cons _

theorem openStrings_template_ne_nil {brackets : List (TreeKind × Option Token)}
    (h : ∀ b ∈ brackets, b.1 = TreeKind.wrapped) (opening opening' : Option Token)
    (levels : List (TreeKind × Option Token)) :
    openStrings (brackets ++ (.template, opening) :: (.string, opening') :: levels) ≠ [] := by
  rw [openStrings_brackets h, openStrings_cons_of_ne (by decide), openStrings_string]
  exact List.cons_ne_nil _ _

/-! ### Tokens of code -/

section code

variable {s : OpenString} {strings : List OpenString} {t : Token}
  {levels levels' : List (TreeKind × Option Token)}

theorem Lost.of_follows (h : Lost strings levels) (hf : Follows t levels levels')
    (hstart : t.kind ≠ .stringStart) (hend : t.kind ≠ .stringEnd) : Lost strings levels' :=
  h.of_openStrings_eq (hf.openStrings_eq.trans (openStrings_placeLevels_of_ne hstart hend levels))

theorem wrapped_cons {bracket : TreeKind × Option Token}
    {brackets : List (TreeKind × Option Token)} (h : ∀ b ∈ bracket :: brackets, b.1 = .wrapped) :
    ∃ opening, bracket = (.wrapped, opening) :=
  ⟨bracket.2, Prod.ext (h bracket List.mem_cons_self) rfl⟩

/-- Code other than brackets changes no level. -/
theorem InCode.plain (h : InCode strings levels) (hf : Follows t levels levels')
    (hopens : t.kind.opens? = none) (hcloses : t.kind.closes? = none)
    (hleaves : t.kind.leavesTemplate = false) : InCode strings levels' := by
  cases h with
  | lost h =>
      refine .lost (h.of_follows hf ?_ ?_) <;> intro ht
      · simp [ht, TokenKind.opens?] at hopens
      · simp [ht, TokenKind.closes?] at hcloses
  | template hclean hwrapped hdepth hcode =>
      rw [hf.eq_placeLevels (openStrings_template_ne_nil hwrapped _ _ _),
        placeLevels_of_plain hopens hcloses hleaves]
      exact .template hclean hwrapped hdepth hcode

theorem InCode.bracketLeft (h : InCode (s :: strings) levels) (hf : Follows t levels levels')
    (ht : t.kind = .bracketLeft) : InCode (s.read t :: strings) levels' := by
  cases h with
  | lost h => exact .lost ((h.of_follows hf (by simp [ht]) (by simp [ht])).read t)
  | template hclean hwrapped hdepth hcode =>
      have hread : s.read t = { s with depth := s.depth + 1 } := by rw [OpenString.read, ht]
      rw [hf.eq_placeLevels (openStrings_template_ne_nil hwrapped _ _ _), placeLevels,
        settleLevels_of_ne (by rw [ht]; rfl), ht, hread]
      refine @InCode.template _ _ ((.wrapped, some t) :: _) _ _ hclean
        (List.forall_mem_cons.mpr ⟨rfl, hwrapped⟩) ?_ hcode
      rw [List.length_cons, hdepth]

theorem InCode.bracketRight (h : InCode (s :: strings) levels) (hf : Follows t levels levels')
    (ht : t.kind = .bracketRight) : InCode (s.read t :: strings) levels' := by
  cases h with
  | lost h => exact .lost ((h.of_follows hf (by simp [ht]) (by simp [ht])).read t)
  | @template _ _ brackets opening levels hclean hwrapped hdepth hcode =>
      have hread : s.read t = { s with depth := s.depth - 1 } := by rw [OpenString.read, ht]
      rw [hf.eq_placeLevels (openStrings_template_ne_nil hwrapped _ _ _), placeLevels,
        settleLevels_of_ne (by rw [ht]; rfl), ht, hread]
      cases brackets with
      | nil =>
          refine @InCode.template { s with depth := s.depth - 1 } _ [] _ _ hclean
            (List.forall_mem_nil _) ?_ hcode
          show 0 = s.depth - 1
          rw [← hdepth]
          rfl
      | cons bracket brackets =>
          obtain ⟨_, rfl⟩ := wrapped_cons hwrapped
          refine .template hclean (List.forall_mem_cons.mp hwrapped).2 ?_ hcode
          show brackets.length = s.depth - 1
          rw [← hdepth, List.length_cons, Nat.add_sub_cancel]

/-- A token of code leaves the lexer and the builder in the code of the same strings. -/
theorem InCode.read (h : InCode strings levels) (hf : Follows t levels levels')
    (ht : t.kind.isCode) : InCode (readAll [t] strings) levels' := by
  have plain (hleft : t.kind ≠ .bracketLeft) (hright : t.kind ≠ .bracketRight) :
      InCode (readAll [t] strings) levels' := by
    rw [readAll_of_ne (by simp [hleft, hright])]
    refine h.plain hf ?_ ?_ ?_ <;> cases hk : t.kind <;> simp_all [TokenKind.isCode,
      TokenKind.opens?, TokenKind.closes?, TokenKind.leavesTemplate]
  by_cases hleft : t.kind = .bracketLeft
  · cases strings with
    | nil => exact .lost (.nil levels')
    | cons s strings => exact h.bracketLeft hf hleft
  · by_cases hright : t.kind = .bracketRight
    · cases strings with
      | nil => exact .lost (.nil levels')
      | cons s strings => exact h.bracketRight hf hright
    · exact plain hleft hright

/-! ### Tokens of strings -/

/-- The content of a string changes no level. -/
theorem InText.plain (h : InText strings levels) (hf : Follows t levels levels')
    (hopens : t.kind.opens? = none) (hcloses : t.kind.closes? = none) : InText strings levels' := by
  cases h with
  | lost h =>
      refine .lost (h.of_follows hf ?_ ?_) <;> intro ht
      · simp [ht, TokenKind.opens?] at hopens
      · simp [ht, TokenKind.closes?] at hcloses
  | string hclean hdepth hcode =>
      rw [hf.eq_placeLevels (List.cons_ne_nil _ _),
        placeLevels_of_content hopens hcloses (by decide)]
      exact .string hclean hdepth hcode
  | brackets hclean hwrapped hdepth hcode =>
      obtain ⟨opening, rfl⟩ := wrapped_cons hwrapped
      rw [hf.eq_placeLevels (openStrings_template_ne_nil hwrapped _ _ _), List.cons_append,
        placeLevels_of_content hopens hcloses (by decide)]
      exact .brackets hclean hwrapped hdepth hcode

/-- The end of a template closes it, unless a bracket in it is open. -/
theorem InCode.templateEnd (h : InCode (s :: strings) levels) (hf : Follows t levels levels')
    (ht : t.kind = .templateEnd) : InText (s :: strings) levels' := by
  cases h with
  | lost h => exact .lost (h.of_follows hf (by simp [ht]) (by simp [ht]))
  | @template _ _ brackets opening levels hclean hwrapped hdepth hcode =>
      rw [hf.eq_placeLevels (openStrings_template_ne_nil hwrapped _ _ _), placeLevels,
        settleLevels_of_ne (by rw [ht]; rfl), ht]
      cases brackets with
      | nil => exact .string hclean hdepth.symm hcode
      | cons bracket brackets =>
          obtain ⟨_, rfl⟩ := wrapped_cons hwrapped
          exact .brackets hclean hwrapped hdepth hcode

/-- Where a template was left, its end is nothing. -/
theorem InText.templateEnd (h : InText strings levels) (hf : Follows t levels levels')
    (ht : t.kind = .templateEnd) : InText strings levels' := by
  have settles (levels : List (TreeKind × Option Token)) : settleLevels t levels = levels :=
    settleLevels_of_ne (by rw [ht]; rfl) levels
  cases h with
  | lost h => exact .lost (h.of_follows hf (by simp [ht]) (by simp [ht]))
  | string hclean hdepth hcode =>
      rw [hf.eq_placeLevels (List.cons_ne_nil _ _), placeLevels, settles, ht]
      exact .string hclean hdepth hcode
  | brackets hclean hwrapped hdepth hcode =>
      rw [hf.eq_placeLevels (openStrings_template_ne_nil hwrapped _ _ _), placeLevels, settles, ht]
      obtain ⟨_, rfl⟩ := wrapped_cons hwrapped
      exact .brackets hclean hwrapped hdepth hcode

/-- A template opens in its string, or, where brackets are open, goes on in the template that
they are in. -/
theorem InText.templateStart (h : InText strings levels) (hf : Follows t levels levels')
    (ht : t.kind = .templateStart) : InCode strings levels' := by
  cases h with
  | lost h => exact .lost (h.of_follows hf (by simp [ht]) (by simp [ht]))
  | string hclean hdepth hcode =>
      rw [hf.eq_placeLevels (List.cons_ne_nil _ _), placeLevels, ht]
      exact @InCode.template _ _ [] _ _ hclean (List.forall_mem_nil _) hdepth.symm hcode
  | brackets hclean hwrapped hdepth hcode =>
      rw [hf.eq_placeLevels (openStrings_template_ne_nil hwrapped _ _ _), placeLevels, ht]
      obtain ⟨_, rfl⟩ := wrapped_cons hwrapped
      exact .template hclean hwrapped hdepth hcode

/-- A template that starts in a template takes its place, unless a bracket in it is open. -/
theorem InCode.templateStart (h : InCode (s :: strings) levels) (hf : Follows t levels levels')
    (ht : t.kind = .templateStart) : InCode (s :: strings) levels' := by
  cases h with
  | lost h => exact .lost (h.of_follows hf (by simp [ht]) (by simp [ht]))
  | @template _ _ brackets opening levels hclean hwrapped hdepth hcode =>
      rw [hf.eq_placeLevels (openStrings_template_ne_nil hwrapped _ _ _), placeLevels, ht]
      cases brackets with
      | nil =>
          rw [List.nil_append, settleLevels, if_pos (by rw [ht]; rfl)]
          exact @InCode.template _ _ [] _ _ hclean (List.forall_mem_nil _) hdepth hcode
      | cons bracket brackets =>
          obtain ⟨_, rfl⟩ := wrapped_cons hwrapped
          exact .template hclean hwrapped hdepth hcode

/-- A token of a reference keeps to the string that the reference is in. -/
theorem reference_step (h : InText (s :: strings) levels ∨ InCode (s :: strings) levels)
    (hf : Follows t levels levels') (ht : isReferenceKind t.kind) :
    InText (s :: strings) levels' ∨ InCode (s :: strings) levels' := by
  by_cases hstart : t.kind = .templateStart
  · exact .inr (h.elim (·.templateStart hf hstart) (·.templateStart hf hstart))
  · have hplain : t.kind.opens? = none ∧ t.kind.closes? = none ∧ t.kind.leavesTemplate = false := by
      cases hk : t.kind <;> simp_all [isReferenceKind, TokenKind.opens?, TokenKind.closes?,
        TokenKind.leavesTemplate]
    obtain ⟨hopens, hcloses, hleaves⟩ := hplain
    exact h.imp (·.plain hf hopens hcloses) (·.plain hf hopens hcloses hleaves)

/-- A new string is the innermost level, whatever the levels around it are. -/
theorem InCode.stringStart (h : InCode strings levels) (hf : Follows t levels levels')
    (ht : t.kind = .stringStart) : InText (.start t :: strings) levels' := by
  obtain ⟨outer, houter⟩ := hf.exists_start ht
  rw [houter]
  refine .string rfl rfl ?_
  by_cases hnil : openStrings levels = []
  · have hsub := h.sublist
    rw [hnil, List.sublist_nil] at hsub
    rw [List.map_eq_nil_iff.mp hsub]
    exact .lost (.nil outer)
  · have hplace : placeLevels t levels = (.string, some t) :: levels := by
      rw [placeLevels, settleLevels_of_ne (by rw [ht]; rfl), ht]
    have heq := houter.symm.trans ((hf.eq_placeLevels hnil).trans hplace)
    exact (List.cons.inj heq).2 ▸ h

/-! ### The end of a string -/

theorem around_of_isBalanced (hs : s.isBalanced) (strings : List OpenString) :
    strings.map (·.around s) = strings := by
  refine (List.map_congr_left fun outer _ => ?_).trans (List.map_id strings)
  rw [OpenString.around, hs, Bool.and_true]
  rfl

theorem isClean_of_mem_around (hs : s.isBalanced = false) {strings : List OpenString} :
    ∀ outer ∈ strings.map (·.around s), outer.isClean = false := by
  rw [List.forall_mem_map]
  intro outer _
  rw [OpenString.around, hs, Bool.and_false]

theorem openings_around (s : OpenString) (strings : List OpenString) :
    OpenString.openings (strings.map (·.around s)) = OpenString.openings strings := by
  rw [OpenString.openings, List.map_map]
  rfl

theorem Lost.around (hs : s.isBalanced = false) {opening : Option Token}
    {outer : List (Option Token)} (hopen : openStrings levels = opening :: outer)
    (hsub : (OpenString.openings strings).Sublist outer) :
    Lost (strings.map (·.around s)) levels := by
  refine ⟨isClean_of_mem_around hs, fun _ => ⟨opening, outer, hopen, ?_⟩⟩
  rw [openings_around]
  exact hsub

/-- The end of a lost string ends another string, or none. -/
theorem Lost.stringEnd (h : Lost (s :: strings) levels) (hf : Follows t levels levels')
    (ht : t.kind = .stringEnd) (hnodup : (openStrings levels).Nodup) :
    InCode (strings.map (·.around s)) levels' ∧
      openStrings levels ≠ some s.opening :: openStrings levels' := by
  have hs : s.isBalanced = false := by
    rw [OpenString.isBalanced, h.unclean s List.mem_cons_self, Bool.and_false]
  obtain ⟨opening, outer, hopen, hsub⟩ := h.below (List.cons_ne_nil _ _)
  rw [OpenString.openings, List.map_cons] at hsub
  have hsub_tail : (OpenString.openings strings).Sublist outer.tail := hsub.tail
  constructor
  · rcases openStrings_placeLevels_end ht levels with heq | ⟨opening', heq⟩
    · rw [← hf.openStrings_eq, hopen] at heq
      exact .lost (.around hs heq (hsub_tail.trans (List.tail_sublist outer)))
    · rw [← hf.openStrings_eq, hopen] at heq
      have houter : openStrings levels' = outer := (List.cons.inj heq).2.symm
      cases outer with
      | nil => cases hsub
      | cons opening outer => exact .lost (.around hs houter hsub_tail)
  · rw [hopen]
    intro heq
    rw [hopen, (List.cons.inj heq).1] at hnodup
    exact (List.nodup_cons.mp hnodup).1 (hsub.subset List.mem_cons_self)

/-- The end of a string ends its own level exactly when the brackets in it balance. -/
theorem InText.stringEnd (h : InText (s :: strings) levels) (hf : Follows t levels levels')
    (ht : t.kind = .stringEnd) (hnodup : (openStrings levels).Nodup) :
    InCode (strings.map (·.around s)) levels' ∧
      (s.isBalanced → ∃ outer, levels = (.string, some s.opening) :: outer) ∧
      (s.isBalanced = false → openStrings levels ≠ some s.opening :: openStrings levels') := by
  cases h with
  | lost h =>
      obtain ⟨hcode, hne⟩ := h.stringEnd hf ht hnodup
      refine ⟨hcode, fun hs => ?_, fun _ => hne⟩
      simp [OpenString.isBalanced, h.unclean s List.mem_cons_self] at hs
  | @string _ _ levels hclean hdepth hcode =>
      have hs : s.isBalanced := by simp [OpenString.isBalanced, hclean, hdepth]
      have hplace : placeLevels t ((.string, some s.opening) :: levels) = levels := by
        rw [placeLevels, ht]
        rfl
      rw [hf.eq_placeLevels (List.cons_ne_nil _ _), hplace, around_of_isBalanced hs]
      exact ⟨hcode, fun _ => ⟨levels, rfl⟩, fun hs' => by simp [hs] at hs'⟩
  | @brackets _ _ bracket brackets opening levels hclean hwrapped hdepth hcode =>
      have hs : s.isBalanced = false := by simp [OpenString.isBalanced, ← hdepth]
      have hopen := openStrings_brackets hwrapped
        ((.template, opening) :: (.string, some s.opening) :: levels)
      rw [openStrings_cons_of_ne (by decide), openStrings_string] at hopen
      have hplace : placeLevels t (bracket :: brackets ++ (.template, opening) ::
          (.string, some s.opening) :: levels) = bracket :: brackets ++ (.template, opening) ::
          (.string, some s.opening) :: levels := by
        obtain ⟨_, rfl⟩ := wrapped_cons hwrapped
        rw [placeLevels, ht]
        rfl
      rw [hf.eq_placeLevels (openStrings_template_ne_nil hwrapped _ _ _), hplace]
      refine ⟨.lost (.around hs hopen hcode.sublist), fun hs' => ?_, fun _ heq => ?_⟩
      · simp [hs] at hs'
      · have := congrArg List.length heq
        rw [List.length_cons] at this
        omega

end code

end Nesting
