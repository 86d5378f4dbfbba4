import Nesting.Proofs.Lexer.TemplateCode
import Nesting.Proofs.Regex.Preferred

/-! # References

A reference in a string is described twice.  One expression matches it as a whole: the opening text,
a symbol, and any number of operators with a symbol behind each of them (`Matched`).  Then the text
is cut by rules of its own, which know nothing of this order: at each place the longest of the
opening text and the operators wins, a symbol is read only where none of them stands, and what is
left over is unknown (`Takes`).

Both readings stand beside the functions that they describe.  A match of the expression has pieces
(`exists_matched`), and the tokens that a text is cut into have the pieces that the rules take one
after the other (`RuleTable.map_piece_cutParts_iff`). -/

namespace Nesting

/-- The kind and the text of a token. -/
def Token.piece (t : Token) : TokenKind × String := (t.kind, t.value)

/-! ### What the expression matches -/

section matching

variable {opening : String} {operators : List String} {symbol : Regex}

/-- The first operator, in the order in which they are declared, that stands at a place and has a
symbol behind it; the place between the two, and the one behind the symbol. -/
def joint? (operators : List String) (symbol : Regex) (p : Place) :
    Option (String × Place × Place) :=
  operators.findSome? fun op =>
    (p.skip? op.toList).bind fun m => (symbol.firstEnd? m).map fun n => (op, m, n)

/-- Operators and symbols in turn, as long as there is another pair. -/
inductive Joined (operators : List String) (symbol : Regex) :
    Place → List (TokenKind × String) → Place → Prop
  | done {p} : joint? operators symbol p = none → Joined operators symbol p [] p
  | more {p m n q op pieces} : joint? operators symbol p = some (op, m, n) →
      Joined operators symbol n pieces q →
      Joined operators symbol p
        ((.operator, op) :: (.symbol, String.ofList (m.textUntil n)) :: pieces) q

/-- The pieces of a reference, as its expression matches them. -/
inductive Matched (opening : String) (operators : List String) (symbol : Regex) (p : Place) :
    List (TokenKind × String) → Place → Prop
  | intro {m n q pieces} : p.skip? opening.toList = some m → symbol.firstEnd? m = some n →
      Joined operators symbol n pieces q →
      Matched opening operators symbol p
        ((.templateStart, opening) :: (.symbol, String.ofList (m.textUntil n)) :: pieces) q

theorem exists_of_mem_alts {texts : List String} {p q : Place}
    (h : q ∈ (Regex.alts (texts.map Regex.ofText)).ends p) :
    ∃ x ∈ texts, p.skip? x.toList = some q := by
  induction texts with
  | nil =>
      rw [List.map_nil, Regex.alts, Regex.ends] at h
      split at h
      · cases h
      · cases h
  | cons x texts ih =>
      cases texts with
      | nil => exact ⟨x, List.mem_cons_self, Option.mem_toList.mp h⟩
      | cons y texts =>
          rcases List.mem_append.mp (Regex.mem_of_mem_distinct h) with h | h
          · exact ⟨x, List.mem_cons_self, Option.mem_toList.mp h⟩
          · obtain ⟨z, hz, hskip⟩ := ih h
            exact ⟨z, List.mem_cons_of_mem x hz, hskip⟩

theorem isNullable_alts {texts : List String} (h : ∀ x ∈ texts, x ≠ "") :
    (Regex.alts (texts.map Regex.ofText)).isNullable = false := by
  have htext (x : String) (hx : x ≠ "") : (Regex.ofText x).isNullable = false := by
    simpa [Regex.ofText, Regex.isNullable] using hx
  induction texts with
  | nil => rfl
  | cons x texts ih =>
      obtain ⟨hx, htexts⟩ := List.forall_mem_cons.mp h
      cases texts with
      | nil => exact htext x hx
      | cons y texts => exact Bool.or_eq_false_iff.mpr ⟨htext x hx, ih htexts⟩

/-- An operator takes text, whether or not the symbol behind it does. -/
theorem index_lt_of_mem_pair (hops : ∀ op ∈ operators, op ≠ "") {p q : Place}
    (h : q ∈ ((Regex.alts (operators.map Regex.ofText)).seq symbol).ends p) :
    p.index < q.index := by
  obtain ⟨m, hm, hq⟩ := List.mem_flatMap.mp (Regex.mem_of_mem_distinct h)
  obtain ⟨op, hop, hskip⟩ := exists_of_mem_alts hm
  obtain ⟨cs, hcs⟩ := Regex.ahead_of_mem_ends symbol m q hq
  have hpos : 0 < op.toList.length :=
    List.length_pos_iff.mpr fun h => hops op hop (String.toList_eq_nil_iff.mp h)
  rw [Place.index_of_skip? hcs, Place.index_of_skip? hskip]
  omega

/-- One more operator and symbol. -/
theorem firstEnd?_pair (operators : List String) (symbol : Regex) (p : Place) :
    ((Regex.alts (operators.map Regex.ofText)).seq symbol).firstEnd? p =
      (joint? operators symbol p).map (·.2.2) := by
  rw [Regex.firstEnd?_seq, Regex.findSome?_alts, joint?, List.map_findSome?]
  congr 1
  funext op
  rw [Function.comp_apply]
  cases p.skip? op.toList with
  | none => rfl
  | some m => simp [Function.comp_def]

theorem joined_of_exhausted {p q : Place}
    (h : Regex.Exhausted ((Regex.alts (operators.map Regex.ofText)).seq symbol).ends p q) :
    ∃ pieces, Joined operators symbol p pieces q := by
  induction h with
  | @stops p hstops =>
      have hnone := firstEnd?_pair operators symbol p
      rw [Regex.firstEnd?, hstops] at hnone
      exact ⟨[], .done (Option.map_eq_none_iff.mp hnone.symm)⟩
  | goesOn hfirst _ ih =>
      obtain ⟨pieces, hpieces⟩ := ih
      have hsome := (firstEnd?_pair _ _ _).symm.trans hfirst
      obtain ⟨⟨op, m, n⟩, hjoint, rfl⟩ := Option.map_eq_some_iff.mp hsome
      exact ⟨_, .more hjoint hpieces⟩

/-- A match of the expression has pieces. -/
theorem exists_matched (hops : ∀ op ∈ operators, op ≠ "") {p q : Place}
    (h : (LexRegex.reference opening operators symbol).firstEnd? p = some q) :
    ∃ pieces, Matched opening operators symbol p pieces q := by
  rw [LexRegex.reference] at h
  split at h
  · next hnone =>
    rw [Regex.ofText, Regex.firstEnd?_seq_text] at h
    obtain ⟨m, hm, hn⟩ := Option.bind_eq_some_iff.mp h
    obtain rfl := List.isEmpty_iff.mp hnone
    exact ⟨_, .intro hm hn (.done rfl)⟩
  · rw [Regex.ofText, Regex.firstEnd?_seq_text] at h
    obtain ⟨m, hm, hrest⟩ := Option.bind_eq_some_iff.mp h
    have hforward : ∀ a, ∀ b ∈ ((Regex.alts (operators.map Regex.ofText)).seq symbol).ends a,
        a.index < b.index := fun _ _ => index_lt_of_mem_pair hops
    have hnull : ((Regex.alts (operators.map Regex.ofText)).seq symbol).isNullable = false := by
      rw [Regex.isNullable, isNullable_alts hops, Bool.false_and]
    have hloop := Regex.exists_exhausted_star hnull hforward
    rw [Regex.firstEnd?_seq_of_forall fun n => ?_] at hrest
    · obtain ⟨n, hn, hstar⟩ := Option.bind_eq_some_iff.mp hrest
      obtain ⟨q', hq', hexhausted⟩ := hloop n
      obtain rfl := Option.some.inj (hq'.symm.trans hstar)
      obtain ⟨pieces, hpieces⟩ := joined_of_exhausted hexhausted
      exact ⟨_, .intro hm hn hpieces⟩
    · obtain ⟨q', hq', -⟩ := hloop n
      exact Option.isSome_iff_exists.mpr ⟨q', hq'⟩

end matching

/-! ### What the rules take -/

/-- The longest of some texts that stand at a place. -/
structure Longest (texts : List String) (p : Place) (x : String) : Prop where
  mem : x ∈ texts
  begins : x.toList <+: p.after
  longest : ∀ y ∈ texts, y.toList <+: p.after → y.toList <+: x.toList

theorem Longest.eq {texts : List String} {p : Place} {x y : String} (hx : Longest texts p x)
    (hy : Longest texts p y) : x = y := by
  have hxy := hy.longest x hx.mem hx.begins
  have hyx := hx.longest y hy.mem hy.begins
  exact String.toList_inj.mp (hxy.eq_of_length_le hyx.length_le)

/-- What the rules that cut a reference take at a place: the kind of a token and its end. -/
inductive Takes (opening : String) (operators : List String) (symbol : Regex) (p : Place) :
    TokenKind → Place → Prop
  | opening {q} : Longest (opening :: operators) p opening → p.skip? opening.toList = some q →
      Takes opening operators symbol p .templateStart q
  | operator {op q} : Longest (opening :: operators) p op → op ≠ opening →
      p.skip? op.toList = some q → Takes opening operators symbol p .operator q
  | symbol {q} : (∀ x ∈ opening :: operators, ¬ x.toList <+: p.after) →
      symbol.firstEnd? p = some q → p.index < q.index → Takes opening operators symbol p .symbol q
  | unknown {c q} : (∀ x ∈ opening :: operators, ¬ x.toList <+: p.after) →
      (∀ m, symbol.firstEnd? p = some m → ¬ p.index < m.index) → p.next? = some (c, q) →
      Takes opening operators symbol p .unknown q

/-- The pieces that the rules take one after the other, from a place to the end of the text. -/
inductive CutAs (opening : String) (operators : List String) (symbol : Regex) :
    Place → List (TokenKind × String) → Prop
  | done {p} : p.after = [] → CutAs opening operators symbol p []
  | more {p q k pieces} : Takes opening operators symbol p k q →
      CutAs opening operators symbol q pieces →
      CutAs opening operators symbol p ((k, String.ofList (p.textUntil q)) :: pieces)

section taking

variable {opening : String} {operators : List String} {symbol : Regex} {p q : Place}

/-- At a place, the rules take one thing only. -/
theorem Takes.unique {k k' : TokenKind} {q' : Place} (h : Takes opening operators symbol p k q)
    (h' : Takes opening operators symbol p k' q') : k = k' ∧ q = q' := by
  cases h with
  | opening hx hq =>
      cases h' with
      | opening _ hq' => exact ⟨rfl, Option.some.inj (hq.symm.trans hq')⟩
      | operator hy hne _ => exact absurd (hy.eq hx) hne
      | symbol hnone _ _ => exact absurd hx.begins (hnone _ hx.mem)
      | unknown hnone _ _ => exact absurd hx.begins (hnone _ hx.mem)
  | operator hx hne hq =>
      cases h' with
      | opening hy _ => exact absurd (hx.eq hy) hne
      | operator hy _ hq' =>
          obtain rfl := hx.eq hy
          exact ⟨rfl, Option.some.inj (hq.symm.trans hq')⟩
      | symbol hnone _ _ => exact absurd hx.begins (hnone _ hx.mem)
      | unknown hnone _ _ => exact absurd hx.begins (hnone _ hx.mem)
  | symbol hnone hq hlt =>
      cases h' with
      | opening hy _ => exact absurd hy.begins (hnone _ hy.mem)
      | operator hy _ _ => exact absurd hy.begins (hnone _ hy.mem)
      | symbol _ hq' _ => exact ⟨rfl, Option.some.inj (hq.symm.trans hq')⟩
      | unknown _ hempty _ => exact absurd hlt (hempty _ hq)
  | unknown hnone hempty hq =>
      cases h' with
      | opening hy _ => exact absurd hy.begins (hnone _ hy.mem)
      | operator hy _ _ => exact absurd hy.begins (hnone _ hy.mem)
      | symbol _ hq' hlt => exact absurd hlt (hempty _ hq')
      | unknown _ _ hq' => exact ⟨rfl, (Prod.mk.inj (Option.some.inj (hq.symm.trans hq'))).2⟩

/-- Where there is no text, the rules take nothing. -/
theorem Takes.after_ne (ho : opening ≠ "") (hops : ∀ op ∈ operators, op ≠ "") {k : TokenKind}
    (h : Takes opening operators symbol p k q) : p.after ≠ [] := by
  have hbegins {x : String} (hx : Longest (opening :: operators) p x) : p.after ≠ [] := by
    intro hp
    have hnone := hx.begins
    rw [hp, List.prefix_nil, String.toList_eq_nil_iff] at hnone
    rcases List.mem_cons.mp hx.mem with rfl | hmem
    · exact ho hnone
    · exact hops x hmem hnone
  cases h with
  | opening hx _ => exact hbegins hx
  | operator hx _ _ => exact hbegins hx
  | symbol _ hq hlt =>
      obtain ⟨cs, hcs⟩ := Regex.ahead_of_firstEnd? hq
      have hindex := Place.index_of_skip? hcs
      rw [Place.after_of_skip? hcs]
      exact List.append_ne_nil_of_left_ne_nil (List.length_pos_iff.mp (by omega)) _
  | unknown _ _ hq =>
      rw [Place.after_of_skip? (Place.skip?_of_next? hq)]
      exact List.cons_ne_nil _ _

namespace RuleTable

theorem literal_mem_operatorRules {α : Type} {op : String} (h : op ∈ operators) (action : α) :
    ∃ name, .literal name .operator op action ∈ operatorRules operators action := by
  obtain ⟨i, hi, rfl⟩ := List.mem_iff_getElem.mp h
  exact ⟨_, List.mem_map.mpr ⟨(i, operators[i]), List.mem_mapIdx.mpr ⟨i, hi, rfl⟩, rfl⟩⟩

theorem exists_literal_of_mem (symbol : Regex) {x : String} (hx : x ∈ opening :: operators) :
    ∃ r ∈ referenceRules opening operators symbol, r.literalText? = some x ∧ r.chunk = some x := by
  rcases List.mem_cons.mp hx with rfl | hx
  · exact ⟨_, mem_referenceRules.mpr (.inl rfl), rfl, rfl⟩
  · obtain ⟨name, hmem⟩ := literal_mem_operatorRules hx ()
    exact ⟨_, mem_referenceRules.mpr (.inr (.inr (.inl hmem))), rfl, rfl⟩

theorem mem_of_chunk {r : PartRule} (hr : r ∈ referenceRules opening operators symbol) {x : String}
    (hx : r.chunk = some x) : x ∈ opening :: operators := by
  rcases mem_referenceRules.mp hr with rfl | rfl | hmem | rfl
  · obtain rfl : opening = x := Option.some.inj hx
    exact List.mem_cons_self
  · cases hx
  · obtain ⟨name, op, hop, rfl⟩ := mem_operatorRules hmem
    obtain rfl : op = x := Option.some.inj hx
    exact List.mem_cons_of_mem opening hop
  · cases hx

/-- The rule for the opening text is never behind one that could stand behind it. -/
theorem pairwise_referenceRules (ho : opening ≠ "") (hops : ∀ op ∈ operators, op ≠ "") :
    (referenceRules opening operators symbol).Pairwise fun r s =>
      s.Precedes r → s.kind ≠ .templateStart := by
  have hranked := (sorted_referenceRules symbol ho hops).sortable.ranked
  have hkinds : ∀ s ∈ .pattern "symbol" .symbol symbol () :: operatorRules operators () ++
      [.fallback "unknown" .unknown ()], s.kind ≠ .templateStart := by
    intro s hs
    rcases List.mem_append.mp hs with hs | hs
    · rcases List.mem_cons.mp hs with rfl | hs
      · nofun
      · obtain ⟨_, _, _, rfl⟩ := mem_operatorRules hs
        nofun
    · rw [List.mem_singleton.mp hs]
      nofun
  refine Rule.sort_stable (fun r hr => (hranked r (Rule.mem_sort.mpr hr)).number) ?_
  exact List.pairwise_cons.mpr
    ⟨hkinds, List.pairwise_of_forall_mem_list fun _ _ s hs => hkinds s hs⟩

/-- Where one of the texts stands, the chunk of the first rule that matches is the longest one. -/
theorem exists_longest_of_first? (ho : opening ≠ "") (hops : ∀ op ∈ operators, op ≠ "")
    {r : PartRule} (h : Rule.first? (referenceRules opening operators symbol) p = some (r, q))
    (hstands : ∃ x ∈ opening :: operators, x.toList <+: p.after) :
    ∃ x, r.chunk = some x ∧ Longest (opening :: operators) p x := by
  have hmatches {x : String} (hx : x ∈ opening :: operators) (hpre : x.toList <+: p.after) :
      ∃ s ∈ referenceRules opening operators symbol, s.chunk = some x ∧ (s.end? p).isSome := by
    obtain ⟨s, hs, htext, hchunk⟩ := exists_literal_of_mem symbol hx
    refine ⟨s, hs, hchunk, ?_⟩
    rw [Rule.end?_of_literalText? htext]
    exact Place.prefix_iff_isSome_skip?.mp hpre
  obtain ⟨x, hx, hpre⟩ := hstands
  obtain ⟨s, hs, hchunk, hmatch⟩ := hmatches hx hpre
  obtain ⟨r', q', hfirst, hlongest⟩ :=
    (sorted_referenceRules symbol ho hops).longestFirst (fun _ => formed_of_mem_referenceRules) p
      ⟨s, hs, by simp [hchunk], hmatch⟩
  cases hfirst.symm.trans h
  obtain ⟨hr, hend⟩ := Rule.mem_of_first? h
  rcases hlongest with hk | ⟨y, hy, hlongest⟩
  · have hkind := kind_of_mem_referenceRules hr
    rw [hk] at hkind
    cases hkind
  · refine ⟨y, hy, mem_of_chunk hr hy, (formed_of_mem_referenceRules hr).begins hy hend, ?_⟩
    intro z hz hpre
    obtain ⟨s, hs, hchunk, hmatch⟩ := hmatches hz hpre
    exact hlongest s hs z hchunk hmatch

/-- The first rule that matches takes the longest text, or a symbol where none stands. -/
theorem takes_of_first? (ho : opening ≠ "") (hops : ∀ op ∈ operators, op ≠ "") {r : PartRule}
    (h : Rule.first? (referenceRules opening operators symbol) p = some (r, q)) :
    Takes opening operators symbol p r.kind q := by
  obtain ⟨hr, hend⟩ := Rule.mem_of_first? h
  have hbegins {x : String} (hx : r.chunk = some x) : x.toList <+: p.after :=
    (formed_of_mem_referenceRules hr).begins hx hend
  by_cases hstands : ∃ x ∈ opening :: operators, x.toList <+: p.after
  · obtain ⟨x, hx, hlongest⟩ := exists_longest_of_first? ho hops h hstands
    rcases mem_referenceRules.mp hr with rfl | rfl | hmem | rfl
    · obtain rfl : opening = x := Option.some.inj hx
      exact .opening hlongest hend
    · cases hx
    · obtain ⟨name, op, hop, rfl⟩ := mem_operatorRules hmem
      obtain rfl : op = x := Option.some.inj hx
      refine .operator hlongest ?_ hend
      rintro rfl
      -- The rule for the opening text matches as well, and stands in front.
      have hfirst := Rule.eq_or_rel_of_first? (pairwise_referenceRules ho hops) h
        (mem_referenceRules.mpr (.inl rfl)) (Place.prefix_iff_isSome_skip?.mp (hbegins rfl))
      rcases hfirst with heq | hbefore
      · cases heq
      · exact hbefore (.inr ⟨rfl, le_rfl⟩) rfl
    · cases hx
  · have hnone : ∀ x ∈ opening :: operators, ¬ x.toList <+: p.after :=
      fun x hx hpre => hstands ⟨x, hx, hpre⟩
    have hchunk {x : String} (hx : r.chunk = some x) : Takes opening operators symbol p r.kind q :=
      absurd (hbegins hx) (hnone x (mem_of_chunk hr hx))
    rcases mem_referenceRules.mp hr with rfl | rfl | hmem | rfl
    · exact hchunk rfl
    · obtain ⟨hfirst, hlt⟩ := (Rule.end?_of_pattern rfl).mp hend
      exact .symbol hnone hfirst hlt
    · obtain ⟨name, op, hop, rfl⟩ := mem_operatorRules hmem
      exact hchunk rfl
    · obtain ⟨⟨c, q⟩, hq, rfl⟩ := Option.map_eq_some_iff.mp hend
      refine .unknown hnone (fun m hm hlt => ?_) hq
      -- The rule for symbols would match, and it precedes the fallback.
      have hsymbol := (Rule.end?_of_pattern
        (r := .pattern "symbol" .symbol symbol ()) rfl).mpr ⟨hm, hlt⟩
      have hfirst := Rule.eq_or_rel_of_first? (sorted_referenceRules symbol ho hops).pairwise h
        (mem_referenceRules.mpr (.inr (.inl rfl))) (by simp [hsymbol])
      rcases hfirst with heq | hbefore
      · nomatch congrArg Rule.kind heq
      · have hle : 3 ≤ 2 := hbefore.rank_le
        omega

/-- What is taken at a place is what the first rule that matches there reads. -/
theorem takes_iff (ho : opening ≠ "") (hops : ∀ op ∈ operators, op ≠ "") (hp : p.after ≠ [])
    {k : TokenKind} : Takes opening operators symbol p k q ↔
      ∃ r, Rule.first? (referenceRules opening operators symbol) p = some (r, q) ∧ r.kind = k := by
  constructor
  · intro h
    obtain ⟨r, -, q', hfirst⟩ := (sorted_referenceRules symbol ho hops).isComplete.exists_first? hp
    obtain ⟨rfl, rfl⟩ := h.unique (takes_of_first? ho hops hfirst)
    exact ⟨r, hfirst, rfl⟩
  · rintro ⟨r, hfirst, rfl⟩
    exact takes_of_first? ho hops hfirst

/-- The pieces of the tokens that the rules cut are those that they take. -/
theorem map_piece_cutParts_iff (ho : opening ≠ "") (hops : ∀ op ∈ operators, op ≠ "") (fuel : Nat)
    (pos : Position) {pieces : List (TokenKind × String)} (hfuel : p.after.length ≤ fuel) :
    (cutParts (referenceRules opening operators symbol) fuel p pos).map Token.piece = pieces ↔
      CutAs opening operators symbol p pieces := by
  have hend {p : Place} {pieces : List (TokenKind × String)} (hp : p.after = []) :
      [] = pieces ↔ CutAs opening operators symbol p pieces := by
    constructor
    · rintro rfl
      exact .done hp
    · intro h
      cases h with
      | done => rfl
      | more htakes _ => exact absurd hp (htakes.after_ne ho hops)
  induction fuel generalizing p pos pieces with
  | zero => exact hend (List.length_eq_zero_iff.mp (Nat.le_zero.mp hfuel))
  | succ fuel ih =>
      rw [cutParts]
      by_cases hp : p.after = []
      · rw [if_pos (List.isEmpty_iff.mpr hp)]
        exact hend hp
      · rw [if_neg fun he => hp (List.isEmpty_iff.mp he)]
        obtain ⟨r, hr, q, hfirst⟩ :=
          (sorted_referenceRules symbol ho hops).isComplete.exists_first? hp
        obtain ⟨cs, hne, hcs⟩ := Rule.skip?_of_end? (advances_of_mem_referenceRules ho hops hr)
          (Rule.mem_of_first? hfirst).2
        have hlength := List.length_pos_iff.mpr hne
        rw [Place.after_of_skip? hcs, List.length_append] at hfuel
        have hrest {pos : Position} {pieces : List (TokenKind × String)} :=
          @ih q pos pieces (by omega)
        rw [Rule.next?, hfirst]
        dsimp only
        rw [List.map_cons]
        constructor
        · rintro rfl
          exact .more ((takes_iff ho hops hp).mpr ⟨r, hfirst, rfl⟩) (hrest.mp rfl)
        · intro h
          cases h with
          | done hnone => exact absurd hnone hp
          | more htakes hpieces =>
              obtain ⟨r', hfirst', rfl⟩ := (takes_iff ho hops hp).mp htakes
              cases hfirst.symm.trans hfirst'
              rw [hrest.mpr hpieces]
              rfl

end RuleTable

end taking

end Nesting
