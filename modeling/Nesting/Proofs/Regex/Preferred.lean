import Nesting.Proofs.Regex.Ends

/-! # The preferred match

Of the ends of a match the first one is preferred.  A sequence prefers the first end of its first
part behind which its second part matches (`firstEnd?_seq`), and a choice between texts the first
one that stands there and has what follows behind it (`findSome?_alts`).  A greedy loop goes on with
the preferred end of each round until no round matches (`exists_exhausted_zeroOrMore`): it meets no
place twice, since every round goes forward, and what it finds first it found at the end of this
chain. -/

namespace Nesting

/-- Some text leads to one place only for each number of characters. -/
theorem Place.Ahead.eq_of_index {p q q' : Place} (hq : p.Ahead q) (hq' : p.Ahead q')
    (h : q.index = q'.index) : q = q' := by
  obtain ⟨cs, hcs⟩ := hq
  obtain ⟨ds, hds⟩ := hq'
  have hlength : cs.length = ds.length := by
    rw [index_of_skip? hcs, index_of_skip? hds] at h
    omega
  have hsame : cs = ds := by
    have hafter := (after_of_skip? hcs).symm.trans (after_of_skip? hds)
    exact (List.append_inj hafter hlength).1
  rw [hsame, hds] at hcs
  exact (Option.some.inj hcs).symm

namespace Regex

section distinct

variable {α β : Type} [At α]

theorem mem_of_insertFalling?_eq_none {n : Nat} {ms : List Nat} (h : insertFalling? n ms = none) :
    n ∈ ms := by
  induction ms with
  | nil => cases h
  | cons m ms ih =>
      rw [insertFalling?] at h
      split at h
      · cases h
      · split at h
        · next heq => exact heq ▸ List.mem_cons_self
        · exact List.mem_cons_of_mem m (ih (Option.map_eq_none_iff.mp h))

theorem mem_insertFalling? {n : Nat} {ms ms' : List Nat} (h : insertFalling? n ms = some ms')
    {k : Nat} : k ∈ ms' ↔ k = n ∨ k ∈ ms := by
  induction ms generalizing ms' with
  | nil =>
      cases h
      simp
  | cons m ms ih =>
      rw [insertFalling?] at h
      split at h
      · cases h
        simp
      · split at h
        · cases h
        · obtain ⟨ks, hks, rfl⟩ := Option.map_eq_some_iff.mp h
          rw [List.mem_cons, List.mem_cons, ih hks]
          exact or_left_comm

theorem head?_distinct (l : List α) : (distinct l).head? = l.head? := by
  unfold distinct
  split
  · rfl
  · cases l <;> rfl

/-- What is found first is found at the first mention of a place. -/
theorem findSome?_distinct {f : α → Option β} {l : List α}
    (h : ∀ a ∈ l, ∀ b ∈ l, index a = index b → a = b) :
    (distinct l).findSome? f = l.findSome? f := by
  have findSome?_go (seen : List Nat) (l : List α)
      (h : ∀ a ∈ l, ∀ b ∈ l, index a = index b → a = b)
      (hseen : ∀ a ∈ l, index a ∈ seen → f a = none) :
      (distinct.go seen l).findSome? f = l.findSome? f := by
    induction l generalizing seen with
    | nil => rfl
    | cons a l ih =>
        have hl : ∀ b ∈ l, ∀ c ∈ l, index b = index c → b = c := fun b hb c hc =>
          h b (List.mem_cons_of_mem a hb) c (List.mem_cons_of_mem a hc)
        rw [List.forall_mem_cons] at hseen
        rw [distinct.go, List.findSome?_cons]
        split
        · next hmem =>
          rw [hseen.1 (mem_of_insertFalling?_eq_none hmem)]
          exact ih seen hl hseen.2
        · next seen' hmem =>
          rw [List.findSome?_cons]
          cases hfa : f a with
          | some b => rfl
          | none =>
              refine ih seen' hl fun b hb hindex => ?_
              rcases (mem_insertFalling? hmem).mp hindex with hindex | hindex
              · rw [← h a List.mem_cons_self b (List.mem_cons_of_mem a hb) hindex.symm, hfa]
              · exact hseen.2 b hb hindex
  unfold distinct
  split
  · rfl
  · exact findSome?_go [] l h fun _ _ hmem => absurd hmem List.not_mem_nil

end distinct

/-! ### Greedy loops -/

section loops

variable {α : Type} {body : α → List α}

/-- The preferred rounds of a loop, one after the other, until there is none. -/
inductive Exhausted (body : α → List α) : α → α → Prop
  | stops {a} : body a = [] → Exhausted body a a
  | goesOn {a b e} : (body a).head? = some b → Exhausted body b e → Exhausted body a e

theorem getLast?_of_suffix {l l' : List α} (h : l <:+ l') {a : α} (ha : l.getLast? = some a) :
    l'.getLast? = some a := by
  obtain ⟨earlier, rfl⟩ := h
  rw [List.getLast?_append, ha]
  rfl

theorem foldl_ends_suffix {step : Loop α → α → Loop α}
    (hstep : ∀ found a, found.ends <:+ (step found a).ends) (found : Loop α) (l : List α) :
    found.ends <:+ (l.foldl step found).ends := by
  induction l generalizing found with
  | nil => exact List.suffix_rfl
  | cons a l ih => exact (hstep found a).trans (ih (step found a))

variable [At α]

theorem climb_ends_suffix (cross : α → Option α) (body : α → List α) (greedy : Bool)
    (ahead : List Char) (found : Loop α) (a : α) :
    found.ends <:+ (climb cross body greedy ahead found a).ends := by
  induction ahead generalizing found a with
  | nil =>
      rw [climb]
      split
      · exact List.suffix_cons _ _
      · exact List.suffix_rfl
  | cons c ahead ih =>
      rw [climb]
      split
      · next entered a' _ _ =>
        dsimp only
        split
        · exact (foldl_ends_suffix ih { found with entered } _).trans (List.suffix_cons a' _)
        · exact (List.suffix_cons a' _).trans
            (foldl_ends_suffix ih { entered, ends := a' :: found.ends } _)
      · exact List.suffix_rfl

/-- What a greedy loop finds first is the end of its preferred rounds. -/
theorem exists_exhausted_climb
    (hbody : ∀ a, ∀ b ∈ body a, index a < index b ∧
      (At.place b).after.length < (At.place a).after.length)
    {ahead : List Char} {found : Loop α} {a : α} (hahead : (At.place a).after.length ≤ ahead.length)
    (hentered : ∀ n ∈ found.entered, n < index a) (hends : found.ends = []) :
    ∃ e, (climb some body true ahead found a).ends.getLast? = some e ∧ Exhausted body a e := by
  induction ahead generalizing found a with
  | nil =>
      have hstops : body a = [] := List.eq_nil_iff_forall_not_mem.mpr fun b hb => by
        have hlt := (hbody a b hb).2
        rw [List.length_nil] at hahead
        omega
      rw [climb]
      cases hentry : insertFalling? (index a) found.entered with
      | none => exact absurd (hentered _ (mem_of_insertFalling?_eq_none hentry)) (Nat.lt_irrefl _)
      | some entered => exact ⟨a, by rw [hends]; rfl, .stops hstops⟩
  | cons c ahead ih =>
      rw [climb]
      cases hentry : insertFalling? (index a) found.entered with
      | none => exact absurd (hentered _ (mem_of_insertFalling?_eq_none hentry)) (Nat.lt_irrefl _)
      | some entered =>
          dsimp only
          rw [if_pos rfl]
          cases hrounds : body a with
          | nil => exact ⟨a, by rw [List.foldl_nil, hends]; rfl, .stops hrounds⟩
          | cons b bs =>
              obtain ⟨hindex, hlength⟩ := hbody a b (hrounds ▸ List.mem_cons_self)
              obtain ⟨e, hlast, hchain⟩ := @ih { found with entered } b
                (by rw [List.length_cons] at hahead; omega)
                (fun n hn => by
                  rcases (mem_insertFalling? hentry).mp hn with rfl | hn
                  · exact hindex
                  · exact Nat.lt_trans (hentered n hn) hindex)
                hends
              refine ⟨e, ?_, .goesOn (by rw [hrounds]; rfl) hchain⟩
              have hrest := foldl_ends_suffix (climb_ends_suffix some body true ahead)
                (climb some body true ahead { found with entered } b) bs
              exact getLast?_of_suffix (hrest.trans (List.suffix_cons _ _)) hlast

theorem exists_exhausted_zeroOrMore
    (hbody : ∀ a, ∀ b ∈ body a, index a < index b ∧
      (At.place b).after.length < (At.place a).after.length) (a : α) :
    ∃ e, (zeroOrMore some body true a).head? = some e ∧ Exhausted body a e := by
  rw [zeroOrMore, List.head?_reverse]
  exact exists_exhausted_climb hbody (Nat.le_refl _) (fun _ h => absurd h List.not_mem_nil) rfl

end loops

/-! ### Sequences and choices -/

theorem firstEnd?_seq (r s : Regex) (p : Place) :
    (r.seq s).firstEnd? p = (r.ends p).findSome? s.firstEnd? := by
  rw [firstEnd?, ends, head?_distinct, List.head?_flatMap]
  rfl

theorem firstEnd?_seq_text (cs : List Char) (s : Regex) (p : Place) :
    ((text cs).seq s).firstEnd? p = (p.skip? cs).bind s.firstEnd? := by
  rw [firstEnd?_seq, ends]
  cases p.skip? cs with
  | none => rfl
  | some m => simp

/-- In front of a part that matches everywhere, a match is not given up. -/
theorem firstEnd?_seq_of_forall {s : Regex} (h : ∀ p, (s.firstEnd? p).isSome) (r : Regex)
    (p : Place) : (r.seq s).firstEnd? p = (r.firstEnd? p).bind s.firstEnd? := by
  rw [firstEnd?_seq, firstEnd?]
  cases r.ends p with
  | nil => rfl
  | cons m ms =>
      obtain ⟨q, hq⟩ := Option.isSome_iff_exists.mp (h m)
      simp [hq]

/-- A greedy loop whose rounds are never empty. -/
theorem exists_exhausted_star {r : Regex} (hr : r.isNullable = false)
    (hforward : ∀ a, ∀ b ∈ r.ends a, a.index < b.index) (p : Place) :
    ∃ q, r.star.firstEnd? p = some q ∧ Exhausted r.ends p q := by
  rw [star, firstEnd?, ends, if_neg (by simp [hr])]
  refine exists_exhausted_zeroOrMore (fun a b hb => ⟨hforward a b hb, ?_⟩) p
  obtain ⟨cs, hcs⟩ := ahead_of_mem_ends r a b hb
  have hindex := Place.index_of_skip? hcs
  have hlength := congrArg List.length (Place.after_of_skip? hcs)
  rw [List.length_append] at hlength
  have hlt := hforward a b hb
  show b.after.length < a.after.length
  omega

/-- A choice between texts, with what follows. -/
theorem findSome?_alts {β : Type} (texts : List String) (f : Place → Option β) (p : Place) :
    ((alts (texts.map ofText)).ends p).findSome? f =
      texts.findSome? fun x => (p.skip? x.toList).bind f := by
  have findSome?_text (x : String) : ((ofText x).ends p).findSome? f =
      (p.skip? x.toList).bind f := by
    rw [ofText, ends]
    cases p.skip? x.toList <;> simp
  induction texts with
  | nil =>
      rw [List.map_nil, alts, ends]
      cases p.next? with
      | none => rfl
      | some next => rfl
  | cons x texts ih =>
      cases texts with
      | nil => simp [alts, findSome?_text]
      | cons y texts =>
          have hends : ∀ a ∈ (ofText x).ends p ++ (alts ((y :: texts).map ofText)).ends p,
              p.Ahead a := by
            intro a ha
            rcases List.mem_append.mp ha with ha | ha
            · exact ahead_of_mem_ends _ p a ha
            · exact ahead_of_mem_ends _ p a ha
          have hchoice : alts ((x :: y :: texts).map ofText) =
              .alt (ofText x) (alts ((y :: texts).map ofText)) := rfl
          rw [hchoice, ends, findSome?_distinct, List.findSome?_append, findSome?_text, ih,
            List.findSome?_cons (a := x)]
          · cases (p.skip? x.toList).bind f <;> rfl
          · exact fun a ha b hb => (hends a ha).eq_of_index (hends b hb)

/-! ### Words -/

theorem ahead_of_firstEnd? {r : Regex} {p q : Place} (h : r.firstEnd? p = some q) : p.Ahead q :=
  ahead_of_mem_ends r p q (List.mem_of_head? h)


/-- A greedy loop over the characters of a set takes all of them that there are. -/
theorem skip?_of_exhausted {t : CharSet} {p q : Place} (h : Exhausted (one t).ends p q) :
    p.skip? (p.after.takeWhile t.mem) = some q := by
  induction h with
  | @stops p hstops =>
      rw [ends, Place.next?] at hstops
      cases hafter : p.after with
      | nil => rfl
      | cons c cs =>
          have hmem : t.mem c = false := by simpa [hafter] using hstops
          simp [hmem, Place.skip?]
  | @goesOn p m q hfirst _ ih =>
      rw [ends, Place.next?] at hfirst
      cases hafter : p.after with
      | nil => simp [hafter] at hfirst
      | cons c cs =>
          by_cases hmem : t.mem c = true
          · obtain rfl : { index := p.index + 1, before := some c, after := cs } = m := by
              simpa [hafter, hmem] using hfirst
            simpa [hmem, Place.skip?, hafter] using ih
          · simp [hafter, hmem] at hfirst

theorem firstEnd?_star_one (t : CharSet) (p : Place) :
    (one t).star.firstEnd? p = p.skip? (p.after.takeWhile t.mem) := by
  obtain ⟨q, hq, hexhausted⟩ := exists_exhausted_star (r := one t) rfl (fun a b hb => by
    rw [ends] at hb
    split at hb
    · next c q' hq' =>
      split at hb
      · rw [List.mem_singleton.mp hb, Place.index_of_skip? (Place.skip?_of_next? hq')]
        exact Nat.lt_add_one _
      · cases hb
    · cases hb) p
  rw [hq, skip?_of_exhausted hexhausted]

/-- A word is a character of one set and all the characters of another one behind it. -/
theorem firstEnd?_word {s t : CharSet} {p q : Place} :
    ((one s).seq (one t).star).firstEnd? p = some q ↔ ∃ c cs, p.after = c :: cs ∧ s.mem c = true ∧
      p.skip? (c :: cs.takeWhile t.mem) = some q := by
  have hstar (m : Place) : ((one t).star.firstEnd? m).isSome := by
    rw [firstEnd?_star_one, ← Place.prefix_iff_isSome_skip?]
    exact List.takeWhile_prefix _
  rw [firstEnd?_seq_of_forall hstar, firstEnd?, ends, Place.next?]
  cases hafter : p.after with
  | nil => simp
  | cons c cs =>
      by_cases hmem : s.mem c = true
      · simp only [hmem, if_true, List.head?_cons, Option.bind_some, firstEnd?_star_one,
          List.cons.injEq, Place.skip?, hafter]
        constructor
        · exact fun h => ⟨c, cs, ⟨rfl, rfl⟩, hmem, by simpa using h⟩
        · rintro ⟨_, _, ⟨rfl, rfl⟩, -, h⟩
          simpa using h
      · simp [hmem]

/-- A beginning of a list that covers what `takeWhile` takes makes it take the same. -/
theorem takeWhile_of_between {α : Type} {f : α → Bool} {l l' : List α}
    (h : l.takeWhile f <+: l') (h' : l' <+: l) : l'.takeWhile f = l.takeWhile f := by
  induction l generalizing l' with
  | nil => rw [List.prefix_nil.mp h']
  | cons a l ih =>
      cases l' with
      | nil => exact (List.prefix_nil.mp h).symm
      | cons b l' =>
          obtain ⟨rfl, htail⟩ := List.cons_prefix_cons.mp h'
          by_cases hb : f b = true
          · rw [List.takeWhile_cons_of_pos hb, List.cons_prefix_cons] at h
            rw [List.takeWhile_cons_of_pos hb, List.takeWhile_cons_of_pos hb, ih h.2 htail]
          · rw [List.takeWhile_cons_of_neg hb, List.takeWhile_cons_of_neg hb]

/-- An expression whose matches begin with characters of a kind, and that looks at nothing but the
text that it takes. -/
structure Local (r : Regex) (first : Char → Bool) : Prop where
  begins : ∀ p q, r.firstEnd? p = some q → ∃ c cs, p.textUntil q = c :: cs ∧ first c = true
  again : ∀ p q p', r.firstEnd? p = some q → p.textUntil q <+: p'.after → p'.after <+: p.after →
    r.firstEnd? p' = p'.skip? (p.textUntil q)

/-- Words are symbols of this kind. -/
theorem local_word (s t : CharSet) : ((one s).seq (one t).star).Local s.mem where
  begins p q h := by
    obtain ⟨c, cs, -, hmem, hskip⟩ := firstEnd?_word.mp h
    exact ⟨c, _, Place.textUntil_eq hskip, hmem⟩
  again p q p' h hpre hpre' := by
    obtain ⟨c, cs, hafter, hmem, hskip⟩ := firstEnd?_word.mp h
    rw [Place.textUntil_eq hskip] at hpre ⊢
    obtain ⟨q', hq'⟩ := Option.isSome_iff_exists.mp (Place.prefix_iff_isSome_skip?.mp hpre)
    obtain ⟨ds, hds⟩ := hpre
    rw [hafter, ← hds, List.cons_append, List.cons_prefix_cons] at hpre'
    rw [hq']
    refine firstEnd?_word.mpr ⟨c, cs.takeWhile t.mem ++ ds, hds.symm, hmem, ?_⟩
    rw [takeWhile_of_between (List.prefix_append _ _) hpre'.2, hq']

end Regex

end Nesting
