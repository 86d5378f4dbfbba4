import Nesting.Proofs.Lexer.Step

/-! # Tokens tile the source

The tokens of a source are its text cut into pieces: their values in order are the source, and
each token stands where the text before it ends (`RuleTable.tokenize_tiles`).  `Tiles` states
this for the tokens between two positions, and it is kept when stretches of tokens are put one
after the other; the pieces of a reference are such a stretch. -/

namespace Nesting

/-- The tokens are the pieces of a text that starts at the position. -/
def Tiles : Position → List Token → List Char → Prop
  | _, [], cs => cs = []
  | pos, t :: ts, cs =>
    ∃ ds, cs = t.value.toList ++ ds ∧ t = .make t.kind t.value pos ∧
      Tiles (pos.advance t.value.toList) ts ds

namespace Tiles

theorem singleton (kind : TokenKind) (cs : List Char) (pos : Position) :
    Tiles pos [.make kind (String.ofList cs) pos] cs := by
  refine ⟨[], ?_, rfl, rfl⟩
  rw [Token.make, String.toList_ofList, List.append_nil]

theorem append {pos : Position} {ts us : List Token} {cs ds : List Char} (hts : Tiles pos ts cs)
    (hus : Tiles (pos.advance cs) us ds) : Tiles pos (ts ++ us) (cs ++ ds) := by
  induction ts generalizing pos cs with
  | nil =>
      cases hts
      exact hus
  | cons t ts ih =>
      obtain ⟨cs', rfl, ht, hts⟩ := hts
      rw [Position.advance_append] at hus
      exact ⟨cs' ++ ds, List.append_assoc _ _ _, ht, ih hts hus⟩

/-- Tokens that tile a text tile a beginning and the rest of it. -/
theorem exists_append {pos : Position} {ts us : List Token} {cs : List Char}
    (h : Tiles pos (ts ++ us) cs) :
    ∃ ds es, cs = ds ++ es ∧ Tiles pos ts ds ∧ Tiles (pos.advance ds) us es := by
  induction ts generalizing pos cs with
  | nil => exact ⟨[], cs, rfl, rfl, h⟩
  | cons t ts ih =>
      obtain ⟨ds, rfl, ht, hts⟩ := h
      obtain ⟨ds', es, rfl, hts, hus⟩ := ih hts
      refine ⟨t.value.toList ++ ds', es, (List.append_assoc _ _ _).symm, ⟨ds', rfl, ht, hts⟩, ?_⟩
      rw [Position.advance_append]
      exact hus

theorem join_eq {pos : Position} {ts : List Token} {cs : List Char} (h : Tiles pos ts cs) :
    String.join (ts.map Token.value) = String.ofList cs := by
  induction ts generalizing pos cs with
  | nil =>
      cases h
      rfl
  | cons t ts ih =>
      obtain ⟨ds, rfl, -, h⟩ := h
      rw [List.map_cons, String.join_cons, ih h, String.ofList_append, String.ofList_toList]

/-- Each token stands where the text before it ends. -/
theorem pos_eq {pos : Position} {earlier later : List Token} {t : Token} {cs : List Char}
    (h : Tiles pos (earlier ++ t :: later) cs) :
    t = .make t.kind t.value (pos.advance (String.join (earlier.map Token.value)).toList) := by
  induction earlier generalizing pos cs with
  | nil =>
      obtain ⟨_, -, ht, -⟩ := h
      exact ht
  | cons u earlier ih =>
      obtain ⟨ds, -, -, h⟩ := h
      have := ih h
      rwa [← Position.advance_append, ← String.toList_append, ← String.join_cons,
        ← List.map_cons] at this

end Tiles

/-! ### References -/

theorem cutParts_tiles {rules : List PartRule} (hrules : ∀ r ∈ rules, r.Advances) (fuel : Nat)
    (p : Place) (pos : Position) (hfuel : p.after.length ≤ fuel) :
    Tiles pos (cutParts rules fuel p pos) p.after := by
  induction fuel generalizing p pos with
  | zero => exact List.length_eq_zero_iff.mp (Nat.le_zero.mp hfuel)
  | succ fuel ih =>
      rw [cutParts]
      split
      · next hafter => exact List.isEmpty_iff.mp hafter
      · next hafter =>
        have hafter : p.after ≠ [] := fun he => hafter (List.isEmpty_iff.mpr he)
        split
        · next hnext => exact absurd hnext (Rule.next?_ne_none hafter pos)
        · next t q rule hnext =>
          obtain ⟨cs, hne, hcs, ht⟩ := Rule.next?_cases hrules hnext
          have ht : ∃ kind, t = .make kind (String.ofList cs) pos := by
            rcases ht with ⟨r, -, -, ht⟩ | ⟨-, ht⟩
            · exact ⟨r.kind, ht⟩
            · exact ⟨.unknown, ht⟩
          obtain ⟨kind, rfl⟩ := ht
          have hlength := List.length_pos_iff.mpr hne
          rw [Place.after_of_skip? hcs, List.length_append] at hfuel
          rw [Place.after_of_skip? hcs, Token.endPosition_make]
          exact (Tiles.singleton kind cs pos).append (ih q _ (by omega))

/-- The pieces of a reference and the mark of its end tile its text. -/
theorem Token.cut_tiles {rules : List PartRule} (hrules : ∀ r ∈ rules, r.Advances)
    (kind : TokenKind) (cs : List Char) (pos : Position) :
    Tiles pos ((Token.make kind (String.ofList cs) pos).cut rules) cs := by
  have hvalue : (Token.make kind (String.ofList cs) pos).value.toList = cs := by
    rw [make, String.toList_ofList]
  have parts := cutParts_tiles hrules cs.length (.start cs) pos (Nat.le_refl _)
  have mark : Tiles (pos.advance cs) [marker .templateEnd (pos.advance cs)] [] :=
    ⟨[], rfl, rfl, rfl⟩
  have tiles := parts.append mark
  rw [List.append_nil] at tiles
  rw [cut, hvalue, markerAfter, endPosition_make]
  exact tiles

/-! ### Sources -/

namespace RuleTable

variable {l : Lexicon} {table : RuleTable}

theorem tokens_tiles (h : ofLexicon l = .ok table) {state : LexState} {r : StateRule}
    (hr : r ∈ table.rulesOf state) (cs : List Char) (pos : Position) :
    Tiles pos (r.action.tokens (.make r.kind (String.ofList cs) pos)) cs := by
  cases hasRule_of_mem h hr with
  | code _ _ ha _ => rw [ha]; exact .singleton _ cs pos
  | content _ ha _ => rw [ha]; exact .singleton _ cs pos
  | enterString _ _ => exact .singleton _ cs pos
  | leaveTemplate _ => exact .singleton _ cs pos
  | enterTemplate _ => exact .singleton _ cs pos
  | leaveString _ => exact .singleton _ cs pos
  | reference hs ht _ _ ha =>
      have hl := accepted_of_ofLexicon h
      have ht := hl.template_of_getElem? hs ht
      have hops := fun op hop => hl.operators_ne op (ht.declared _ _ _ rfl op hop)
      rw [ha]
      exact Token.cut_tiles (fun _ => advances_of_mem_referenceRules ht.opening_ne hops) _ cs pos

theorem Reads.tiles (h : ofLexicon l = .ok table) {s s' : Scan} {ts : List Token}
    (hreads : table.Reads s ts s') :
    ∃ cs, s.place.after = cs ++ s'.place.after ∧ s'.pos = s.pos.advance cs ∧ Tiles s.pos ts cs := by
  cases hreads with
  | rule hr _ hcs => exact ⟨_, Place.after_of_skip? hcs, rfl, tokens_tiles h hr _ _⟩
  | unknown _ hcs => exact ⟨_, Place.after_of_skip? hcs, rfl, .singleton _ _ _⟩

theorem scan_tiles (h : ofLexicon l = .ok table) (source : String) :
    Tiles {} (table.tokenize source) source.toList := by
  refine scanFrom_induction h (P := fun s out => Tiles s.pos (out.map (·.1)) s.place.after)
    ?_ ?_ source.toList.length (.start source.toList) (Nat.le_refl _)
  · intro s hs
    exact hs
  · intro s ts s' rest hreads hrest
    obtain ⟨cs, hafter, hpos, hts⟩ := hreads.tiles h
    rw [hpos] at hrest
    rw [hafter, List.map_append, List.map_map]
    have : ts.map ((·.1) ∘ fun t => (t, s'.state)) = ts := List.map_id ts
    rw [this]
    exact hts.append hrest

/-- The tokens of a source are its text cut into pieces, each with the place where it stands. -/
theorem tokenize_tiles (h : ofLexicon l = .ok table) (source : String) :
    String.join ((table.tokenize source).map Token.value) = source ∧
    ∀ earlier t later, table.tokenize source = earlier ++ t :: later →
      let before := String.join (earlier.map Token.value)
      t.pos.offset = before.utf8ByteSize ∧
      t.pos.line = 1 + before.toList.count '\n' ∧
      t.pos.col = 1 + (before.toList.rtakeWhile (· ≠ '\n')).length ∧
      t.lineBreaks = t.value.toList.count '\n' := by
  have tiles := scan_tiles h source
  constructor
  · rw [tiles.join_eq, String.ofList_toList]
  · intro earlier t later hsplit before
    rw [hsplit] at tiles
    have ht := tiles.pos_eq
    rw [Position.advance_start, String.ofList_toList] at ht
    refine ⟨?_, ?_, ?_, ?_⟩ <;> rw [ht] <;> rfl

theorem tokenize_tiles_interpolating :
    ∃ table, ofLexicon .interpolating = .ok table ∧
      (table.tokenize "\"é\n$a.b\"").map Token.pos =
        [⟨0, 1, 1⟩, ⟨1, 1, 2⟩, ⟨3, 1, 3⟩, ⟨4, 2, 1⟩, ⟨5, 2, 2⟩, ⟨6, 2, 3⟩, ⟨7, 2, 4⟩, ⟨8, 2, 5⟩,
          ⟨8, 2, 5⟩] ∧
      String.join ((table.tokenize "\"é\n$a.b\"").map Token.value) = "\"é\n$a.b\"" ∧
      ∀ earlier t later, table.tokenize "\"é\n$a.b\"" = earlier ++ t :: later →
        let before := String.join (earlier.map Token.value)
        t.pos.offset = before.utf8ByteSize ∧
        t.pos.line = 1 + before.toList.count '\n' ∧
        t.pos.col = 1 + (before.toList.rtakeWhile (· ≠ '\n')).length ∧
        t.lineBreaks = t.value.toList.count '\n' := by
  have run :
      (fun table => (table.tokenize "\"é\n$a.b\"").map Token.pos) <$> ofLexicon .interpolating =
        .ok [⟨0, 1, 1⟩, ⟨1, 1, 2⟩, ⟨3, 1, 3⟩, ⟨4, 2, 1⟩, ⟨5, 2, 2⟩, ⟨6, 2, 3⟩, ⟨7, 2, 4⟩,
          ⟨8, 2, 5⟩, ⟨8, 2, 5⟩] := by
    decide +kernel
  obtain ⟨table, h, hpos⟩ := map_eq_ok_iff.mp run
  exact ⟨table, h, hpos, tokenize_tiles h "\"é\n$a.b\""⟩

end RuleTable

end Nesting
