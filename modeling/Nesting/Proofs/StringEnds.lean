import Nesting.Proofs.StringLevels

/-! # Where strings end

The lexer and the builder both keep a stack, and they need not agree on where a string ends: the
lexer ends a template at its closing text whatever brackets are open, and the builder ends it
only when no bracket in it is open.  They agree on a string exactly when the brackets in it
balance (`RuleTable.closes_iff_isBalanced`).

The proof follows both stacks along a run (`Synced`).  Strings are told apart by the positions of
their tokens, so the offset that the lexer has reached serves as a clock (`Dated`, `Grows`). -/

namespace Nesting

open Builder RuleTable

/-! ### The clock

Tokens are told apart by their positions: every step of the lexer moves on. -/

/-- What the builder has of strings comes from before an offset. -/
structure Dated (n : Nat) (b : Builder) : Prop where
  nodup : (openStrings b.signature).Nodup
  openings : ∀ opening ∈ openStrings b.signature, ∃ t, opening = some t ∧ t.pos.offset < n
  closings : ∀ x ∈ b.trees, x.kind = .string → ∀ t, x.closing = some t → t.pos.offset < n

/-- The trees of strings that are closed between two builders are closed by tokens that stand at
or behind an offset. -/
structure Grows (n : Nat) (trees trees' : List Tree) : Prop where
  subset : trees ⊆ trees'
  closing_of_mem : ∀ x ∈ trees', x.kind = .string →
    x ∈ trees ∨ x.closing = none ∨ ∃ t, x.closing = some t ∧ n ≤ t.pos.offset

/-- A tree of the string is among the trees: it has the opening and the closing of the string. -/
def LexedString.HasTree (s : LexedString) (trees : List Tree) : Prop :=
  ∃ x ∈ trees, x.kind = .string ∧ x.opening = some s.opening ∧ x.closing = some s.closing

theorem Grows.refl (n : Nat) (trees : List Tree) : Grows n trees trees :=
  ⟨List.Subset.refl trees, fun _ hx _ => .inl hx⟩

theorem Grows.trans {m n : Nat} {trees trees' trees'' : List Tree} (h : Grows m trees trees')
    (h' : Grows n trees' trees'') (hmn : m ≤ n) : Grows m trees trees'' := by
  refine ⟨List.Subset.trans h.subset h'.subset, fun x hx hk => ?_⟩
  rcases h'.closing_of_mem x hx hk with hx | hnone | ⟨t, ht, hpos⟩
  · exact h.closing_of_mem x hx hk
  · exact .inr (.inl hnone)
  · exact .inr (.inr ⟨t, ht, hmn.trans hpos⟩)

/-- What is closed later is not the tree of a string that ended before. -/
theorem Grows.hasTree_iff {n : Nat} {trees trees' : List Tree} (h : Grows n trees trees')
    {s : LexedString} (hs : s.closing.pos.offset < n) : s.HasTree trees' ↔ s.HasTree trees := by
  constructor
  · rintro ⟨x, hx, hk, hopening, hclosing⟩
    rcases h.closing_of_mem x hx hk with hx | hnone | ⟨t, ht, hpos⟩
    · exact ⟨x, hx, hk, hopening, hclosing⟩
    · rw [hclosing] at hnone
      cases hnone
    · rw [hclosing] at ht
      cases ht
      omega
  · rintro ⟨x, hx, hk, hopening, hclosing⟩
    exact ⟨x, h.subset hx, hk, hopening, hclosing⟩

theorem dated_start (layout : Layout) : Dated 0 (start layout) := by
  have hopen : openStrings (start layout).signature = [] :=
    (shaped_start layout).openStrings_eq_nil rfl
  have htrees : (start layout).trees = [] := rfl
  refine ⟨?_, ?_, ?_⟩
  · rw [hopen]
    exact List.nodup_nil
  · rw [hopen]
    exact List.forall_mem_nil _
  · rw [htrees]
    exact List.forall_mem_nil _

/-- A token that starts or ends a string does so at the time of the clock. -/
theorem Dated.step {m n : Nat} {b b' : Builder} {t : Token} (h : Dated m b) (hb : b.Shaped)
    (hstep : Builder.Step t b b') (hmn : m ≤ n)
    (hpos : t.kind = .stringStart ∨ t.kind = .stringEnd → m ≤ t.pos.offset ∧ t.pos.offset < n) :
    Dated n b' ∧ Grows m b.trees b'.trees := by
  have earlier : ∀ opening ∈ openStrings b.signature,
      ∃ t, opening = some t ∧ t.pos.offset < n := by
    intro opening hopening
    obtain ⟨u, hu, hlt⟩ := h.openings opening hopening
    exact ⟨u, hu, by omega⟩
  have hopen : (openStrings b'.signature).Nodup ∧
      ∀ opening ∈ openStrings b'.signature, ∃ t, opening = some t ∧ t.pos.offset < n := by
    rw [hstep.openStrings_eq hb]
    by_cases hstart : t.kind = .stringStart
    · obtain ⟨hge, hlt⟩ := hpos (.inl hstart)
      rw [openStrings_placeLevels_start hstart, List.nodup_cons, List.forall_mem_cons]
      refine ⟨⟨fun hmem => ?_, h.nodup⟩, ⟨t, rfl, hlt⟩, earlier⟩
      obtain ⟨u, hu, hlt⟩ := h.openings _ hmem
      cases hu
      omega
    · have hsub : (openStrings (placeLevels t b.signature)).Sublist (openStrings b.signature) := by
        by_cases hend : t.kind = .stringEnd
        · rcases openStrings_placeLevels_end hend b.signature with heq | ⟨opening, heq⟩
          · rw [heq]
          · rw [heq]
            exact List.sublist_cons_self _ _
        · rw [openStrings_placeLevels_of_ne hstart hend]
      exact ⟨h.nodup.sublist hsub, fun opening hopening => earlier opening (hsub.subset hopening)⟩
  refine ⟨⟨hopen.1, hopen.2, fun x hx hk u hu => ?_⟩, hstep.trees_subset, fun x hx hk => ?_⟩
  · rcases hstep.string_of_mem hx hk with hx | ⟨ht, hclosing, -⟩
    · have := h.closings x hx hk u hu
      omega
    · rw [hclosing] at hu
      cases hu
      exact (hpos (.inr ht)).2
  · rcases hstep.string_of_mem hx hk with hx | ⟨ht, hclosing, -⟩
    · exact .inl hx
    · exact .inr (.inr ⟨t, hclosing, (hpos (.inr ht)).1⟩)

/-! ### Both stacks -/

/-- The levels of the builder where the lexer is in the entered states. -/
def Aligned (entered : List LexState) (strings : List OpenString)
    (levels : List (TreeKind × Option Token)) : Prop :=
  match entered with
  | .string _ :: _ => InText strings levels
  | _ => InCode strings levels

theorem aligned_of_readsCode {entered : List LexState} (h : (entered.headD .root).readsCode)
    (strings : List OpenString) (levels : List (TreeKind × Option Token)) :
    Aligned entered strings levels ↔ InCode strings levels := by
  match entered with
  | [] => exact Iff.rfl
  | .root :: _ => exact Iff.rfl
  | .string _ :: _ => cases h
  | .template _ _ :: _ => exact Iff.rfl

/-- The lexer and the builder have taken the same tokens, up to an offset. -/
structure Synced (n : Nat) (entered : List LexState) (strings : List OpenString) (b : Builder) :
    Prop where
  shaped : b.Shaped
  nested : Entered entered strings.length
  aligned : Aligned entered strings b.signature
  dated : Dated n b

section sync

variable {m n : Nat} {entered entered' : List LexState} {strings strings' : List OpenString}
  {b b' : Builder} {t : Token}

theorem synced_start (layout : Layout) : Synced 0 [] [] (start layout) where
  shaped := shaped_start layout
  nested := .root
  aligned := .lost (.nil _)
  dated := dated_start layout

theorem Synced.token (h : Synced m entered strings b) (hstep : Builder.Step t b b') (hmn : m ≤ n)
    (hpos : t.kind = .stringStart ∨ t.kind = .stringEnd → m ≤ t.pos.offset ∧ t.pos.offset < n)
    (hnested : Entered entered' strings'.length)
    (haligned : Follows t b.signature b'.signature → Aligned entered' strings' b'.signature) :
    Synced n entered' strings' b' ∧ Grows m b.trees b'.trees := by
  obtain ⟨hdated, hgrows⟩ := h.dated.step h.shaped hstep hmn hpos
  exact ⟨⟨hstep.shaped h.shaped, hnested, haligned (follows_of_step hstep h.shaped), hdated⟩,
    hgrows⟩

/-- A builder among the tokens of a reference in a string, since it had some trees. -/
structure InReference (m : Nat) (trees : List Tree) (s : OpenString) (strings : List OpenString)
    (b : Builder) : Prop where
  shaped : b.Shaped
  dated : Dated m b
  grows : Grows m trees b.trees
  levels : InText (s :: strings) b.signature ∨ InCode (s :: strings) b.signature

/-- The tokens of a reference keep to the string that the reference is in. -/
theorem InReference.run {s : OpenString} {trees : List Tree} (h : InReference m trees s strings b)
    {ts : List Token} (hts : ∀ t ∈ ts, isReferenceKind t.kind) (hpush : ts.foldlM push b = .ok b') :
    InReference m trees s strings b' := by
  refine foldlM_induction (P := fun _ b => InReference m trees s strings b) h ?_ hpush
  intro _ t ht b b' hb hpush
  have hstep := step_of_push hb.shaped hpush
  have hk := hts t ht
  obtain ⟨hdated, hgrows⟩ := hb.dated.step hb.shaped hstep (le_refl m) fun hk' => by
    rcases hk' with hk' | hk' <;> simp [hk', isReferenceKind] at hk
  exact ⟨hstep.shaped hb.shaped, hdated, hb.grows.trans hgrows (le_refl m),
    reference_step hb.levels (follows_of_step hstep hb.shaped) hk⟩

theorem Synced.reference {i : Nat} {ts : List Token} {mark : Token}
    (h : Synced m (.string i :: entered) strings b) (hts : ∀ t ∈ ts, isReferenceKind t.kind)
    (hmark : mark.kind = .templateEnd) (hpush : (ts ++ [mark]).foldlM push b = .ok b')
    (hmn : m ≤ n) :
    Synced n (.string i :: entered) strings b' ∧ Grows m b.trees b'.trees := by
  cases strings with
  | nil => cases h.nested
  | cons s strings =>
      rw [List.foldlM_append] at hpush
      obtain ⟨b₁, h₁, hpush⟩ := bind_eq_ok_iff.mp hpush
      simp only [List.foldlM_cons, List.foldlM_nil, bind_pure] at hpush
      have start : InReference m b.trees s strings b :=
        ⟨h.shaped, h.dated, .refl m b.trees, .inl h.aligned⟩
      obtain ⟨hb₁, hdated₁, hgrows₁, hlevels₁⟩ := start.run hts h₁
      have hstep := step_of_push hb₁ hpush
      have hf := follows_of_step hstep hb₁
      obtain ⟨hdated', hgrows'⟩ := hdated₁.step hb₁ hstep hmn fun hk => by simp [hmark] at hk
      refine ⟨⟨hstep.shaped hb₁, h.nested, ?_, hdated'⟩, hgrows₁.trans hgrows' (le_refl m)⟩
      exact hlevels₁.elim (·.templateEnd hf hmark) (·.templateEnd hf hmark)

/-- The end of a string makes its tree exactly when the brackets in it balance. -/
theorem hasTree_close_iff {s : OpenString} (h : InText (s :: strings) b.signature)
    (hb : b.Shaped) (hdated : Dated m b) (hstep : Builder.Step t b b') (ht : t.kind = .stringEnd)
    (hpos : m ≤ t.pos.offset) : (s.close t).HasTree b'.trees ↔ s.isBalanced := by
  obtain ⟨-, hbalanced, hunbalanced⟩ := h.stringEnd (follows_of_step hstep hb) ht hdated.nodup
  constructor
  · rintro ⟨x, hx, hk, hopening, hclosing⟩
    by_contra hs
    rcases hstep.string_of_mem hx hk with hx | ⟨-, -, hopen⟩
    · have := hdated.closings x hx hk t hclosing
      omega
    · rw [hopening] at hopen
      exact hunbalanced (eq_false_of_ne_true hs) hopen
  · intro hs
    obtain ⟨outer, hsig⟩ := hbalanced hs
    exact hstep.exists_string hb ht hsig

/-- A turn of the lexer keeps the builder with it, and ends a string in its tree exactly when the
brackets in it balance. -/
theorem Synced.turn {ts : List Token} {closed : List LexedString}
    (h : Synced m entered strings b) (hturn : Turn entered strings ts entered' closed strings')
    (hpos : ∀ t ∈ ts, t.kind = .stringStart ∨ t.kind = .stringEnd → t.pos.offset = m) (hmn : m < n)
    (hpush : ts.foldlM push b = .ok b') :
    Synced n entered' strings' b' ∧ Grows m b.trees b'.trees ∧
      ∀ r ∈ closed, r.closing.pos.offset = m ∧ (r.HasTree b'.trees ↔ r.isBalanced) := by
  have hnested := hturn.entered h.nested
  have step {t : Token} (hts : ts = [t]) : Builder.Step t b b' := by
    rw [hts] at hpush
    simp only [List.foldlM_cons, List.foldlM_nil, bind_pure] at hpush
    exact step_of_push h.shaped hpush
  have token {t : Token} (hts : ts = [t])
      (haligned : Follows t b.signature b'.signature → Aligned entered' strings' b'.signature) :
      Synced n entered' strings' b' ∧ Grows m b.trees b'.trees := by
    refine h.token (step hts) hmn.le (fun hk => ?_) hnested haligned
    have := hpos t (by rw [hts]; exact List.mem_singleton_self t) hk
    omega
  have keeps (h' : Synced n entered' strings' b' ∧ Grows m b.trees b'.trees)
      (hclosed : closed = []) :
      Synced n entered' strings' b' ∧ Grows m b.trees b'.trees ∧
        ∀ r ∈ closed, r.closing.pos.offset = m ∧ (r.HasTree b'.trees ↔ r.isBalanced) :=
    ⟨h'.1, h'.2, hclosed ▸ List.forall_mem_nil _⟩
  have haligned := h.aligned
  cases hturn with
  | code hcode hk =>
      rw [aligned_of_readsCode hcode] at haligned
      exact keeps (token rfl fun hf =>
        (aligned_of_readsCode hcode _ _).mpr (haligned.read hf hk)) rfl
  | enterString hcode hk =>
      rw [aligned_of_readsCode hcode] at haligned
      exact keeps (token rfl fun hf => haligned.stringStart hf hk) rfl
  | leaveTemplate hk =>
      have hcode := (aligned_of_readsCode rfl _ _).mp haligned
      cases h.nested with
      | template hstring =>
          cases strings with
          | nil => cases hstring
          | cons s strings => exact keeps (token rfl fun hf => hcode.templateEnd hf hk) rfl
  | content hk =>
      refine keeps (token rfl fun hf => InText.plain haligned hf ?_ ?_) rfl <;>
        rcases hk with hk | hk <;> rw [hk] <;> rfl
  | enterTemplate hk => exact keeps (token rfl fun hf => InText.templateStart haligned hf hk) rfl
  | reference hparts hmark => exact keeps (h.reference hparts hmark hpush hmn.le) rfl
  | @leaveString entered inner outer t i hk =>
      have htext : InText (inner :: outer) b.signature := haligned
      have ht := hpos t (List.mem_singleton_self t) (.inr hk)
      cases h.nested with
      | string hcode _ =>
          obtain ⟨hsync, hgrows⟩ := token rfl fun hf =>
            (aligned_of_readsCode hcode _ _).mpr (htext.stringEnd hf hk h.dated.nodup).1
          refine ⟨hsync, hgrows, List.forall_mem_singleton.mpr ⟨ht, ?_⟩⟩
          exact hasTree_close_iff htext h.shaped h.dated (step rfl) hk ht.ge

end sync

theorem RuleTable.Reads.offset_lt {table : RuleTable} {s s' : Scan} {ts : List Token}
    (h : table.Reads s ts s') : s.pos.offset < s'.pos.offset := by
  obtain ⟨cs, hne, -, hpos⟩ := h.skip?
  rw [hpos, Position.advance_offset]
  have hsize : (String.ofList cs).utf8ByteSize ≠ 0 := by
    rw [Ne, String.utf8ByteSize_eq_zero_iff, String.ofList_eq_empty_iff]
    exact hne
  omega

/-- Along a run, the strings that the lexer leaves get their trees exactly when the brackets in
them balance. -/
theorem hasTree_iff_of_run {l : Lexicon} {table : RuleTable} (h : ofLexicon l = .ok table)
    (fuel : Nat) {s : Scan} {strings : List OpenString} {b b' : Builder}
    (hsync : Synced s.pos.offset s.entered strings b)
    (hpush : ((table.scanFrom fuel s).map (·.1)).foldlM push b = .ok b') :
    Grows s.pos.offset b.trees b'.trees ∧
      ∀ r ∈ table.stringsFrom fuel s strings, r.HasTree b'.trees ↔ r.isBalanced := by
  refine stringsFrom_induction h (P := fun s strings tokens closed =>
    ∀ b, Synced s.pos.offset s.entered strings b → tokens.foldlM push b = .ok b' →
      Grows s.pos.offset b.trees b'.trees ∧
        ∀ r ∈ closed, r.HasTree b'.trees ↔ r.isBalanced) ?_ ?_ fuel hsync.nested b hsync hpush
  · intro s strings b _ hpush
    cases hpush
    exact ⟨.refl _ _, List.forall_mem_nil _⟩
  · intro s s' ts strings tokens closed hreads hturn ih b hsync hpush
    rw [List.foldlM_append] at hpush
    obtain ⟨b₁, h₁, hpush⟩ := bind_eq_ok_iff.mp hpush
    have hlt := hreads.offset_lt
    obtain ⟨hsync₁, hgrows₁, hclosed⟩ := hsync.turn hturn.turn
      (fun t ht hk => congrArg Position.offset (hturn.pos_eq t ht hk)) hlt h₁
    obtain ⟨hgrows, hrest⟩ := ih b₁ hsync₁ hpush
    refine ⟨hgrows₁.trans hgrows hlt.le, List.forall_mem_append.mpr ⟨fun r hr => ?_, hrest⟩⟩
    obtain ⟨hclosing, hiff⟩ := hclosed r hr
    exact (hgrows.hasTree_iff (hclosing ▸ hlt)).trans hiff

namespace RuleTable

/-- The lexer and the builder agree on the end of a string exactly when the brackets in it
balance: every end of a string that the lexer makes leaves the state that the start of a string
entered, and the two are the delimiters of one tree unless the templates of the string, or a string
inside it, leave a bracket open. -/
theorem closes_iff_isBalanced {l : Lexicon} {table : RuleTable} (h : ofLexicon l = .ok table)
    {layout : Layout} {source : String} {tree : Tree}
    (htree : Tree.ofTokens layout (table.tokenize source) = .ok tree) :
    (table.strings source).map LexedString.closing =
        (table.tokenize source).filter (·.kind = .stringEnd) ∧
      (∀ s ∈ table.strings source, s.opening.kind = .stringStart) ∧
      ∀ s ∈ table.strings source, s.HasTree tree.toNode.trees ↔ s.isBalanced := by
  refine ⟨(closings_strings h source).1, (closings_strings h source).2, fun s hs => ?_⟩
  obtain ⟨b, hpush, hfinish⟩ := bind_eq_ok_iff.mp htree
  obtain ⟨hsubset, hnew⟩ := trees_of_finish hfinish
  obtain ⟨-, hrun⟩ := hasTree_iff_of_run h _ (synced_start layout) hpush
  -- The end of the tokens closes what is left without a closing token.
  have hend : s.HasTree tree.toNode.trees ↔ s.HasTree b.trees := by
    have hgrows : Grows (s.closing.pos.offset + 1) b.trees tree.toNode.trees :=
      ⟨hsubset, fun x hx _ => (hnew x hx).imp_right .inl⟩
    exact hgrows.hasTree_iff (Nat.lt_succ_self _)
  exact hend.trans (hrun s hs)

/-- A string whose template is closed, and one whose template leaves a brace open. -/
def bracedStrings : String := "\"\x7bb\x7d\"\"\x7b\x7bb\x7d\""

theorem closes_iff_isBalanced_bracedStrings :
    ∃ table tree, ofLexicon .interpolating = .ok table ∧
      Tree.ofTokens {} (table.tokenize bracedStrings) = .ok tree ∧
      (table.strings bracedStrings).map LexedString.isBalanced = [true, false] ∧
      ∀ s ∈ table.strings bracedStrings, s.HasTree tree.toNode.trees ↔ s.isBalanced := by
  have run :
      (fun table => ((table.strings bracedStrings).map LexedString.isBalanced,
        (Tree.ofTokens {} (table.tokenize bracedStrings)).isOk)) <$> ofLexicon .interpolating =
          .ok ([true, false], true) := by
    decide +kernel
  obtain ⟨table, h, hrun⟩ := map_eq_ok_iff.mp run
  obtain ⟨hbalanced, hok⟩ := Prod.ext_iff.mp hrun
  cases htree : Tree.ofTokens {} (table.tokenize bracedStrings) with
  | error _ =>
      rw [htree] at hok
      cases hok
  | ok tree => exact ⟨table, tree, h, htree, hbalanced, (closes_iff_isBalanced h htree).2.2⟩

end RuleTable

end Nesting
