import Nesting.Proofs.Regex.LongestMatch
import Nesting.Proofs.Text.LineEndings

/-! # Matches in either spelling of line endings

An expression without characters of line endings matches in both spellings of a text alike
(`Regex.ends_respelled`): it takes the same words, by the same preference.  No part of a match looks
at a place but for the order of places and for the text up to the end of the line, and both are the
same for all places of one line. -/

namespace Nesting.Regex

/-! ### Places that are moved along -/

section moved

variable {f : Place → Place} {d : Nat}

theorem insertFalling?_map_add (n : Nat) (ms : List Nat) :
    insertFalling? (n + d) (ms.map (· + d)) = (insertFalling? n ms).map (List.map (· + d)) := by
  induction ms with
  | nil => rfl
  | cons m ms ih =>
      simp only [List.map_cons, insertFalling?, Nat.add_lt_add_iff_right, Nat.add_right_cancel_iff,
        ih]
      split
      · rfl
      · split
        · rfl
        · cases insertFalling? n ms <;> rfl

variable (hf : ∀ a, (f a).index = a.index + d)
include hf

theorem isFalling_map (l : List Place) : isFalling (l.map f) = isFalling l := by
  have hindex (a : Place) : index (f a) = index a + d := hf a
  induction l with
  | nil => rfl
  | cons a l ih =>
      cases l with
      | nil => rfl
      | cons b l =>
          simp only [List.map_cons, isFalling, hindex, Nat.add_lt_add_iff_right] at ih ⊢
          rw [ih]

theorem distinct_map (l : List Place) : distinct (l.map f) = (distinct l).map f := by
  have hindex (a : Place) : index (f a) = index a + d := hf a
  have go_map (seen : List Nat) (l : List Place) :
      distinct.go (seen.map (· + d)) (l.map f) = (distinct.go seen l).map f := by
    induction l generalizing seen with
    | nil => rfl
    | cons a l ih =>
        rw [List.map_cons, distinct.go, distinct.go, hindex, insertFalling?_map_add]
        cases insertFalling? (index a) seen with
        | none => exact ih seen
        | some seen => exact congrArg (f a :: ·) (ih seen)
  rw [distinct, distinct, isFalling_map hf]
  split
  · rfl
  · exact go_map [] l

variable {body : Place → List Place} (hbody : ∀ a, body (f a) = (body a).map f)
include hbody

omit hf in
theorem flatMap_map_comm (l : List Place) :
    (l.map f).flatMap body = (l.flatMap body).map f := by
  rw [List.flatMap_map, List.map_flatMap]
  exact List.flatMap_congr fun a _ => hbody a

theorem rounds_map (n : Nat) (l : List Place) :
    rounds (fun _ => body) n (l.map f) = (rounds (fun _ => body) n l).map f := by
  induction n generalizing l with
  | zero => rfl
  | succ n ih =>
      cases l with
      | nil => rfl
      | cons a l =>
          have hnext := congrArg distinct (flatMap_map_comm hbody (a :: l))
          rw [distinct_map hf] at hnext
          exact (congrArg (rounds (fun _ => body) n) hnext).trans (ih _)

/-! ### Loops -/

/-- What a loop has met, moved along. -/
def Loop.map (f : Place → Place) (d : Nat) (found : Loop Place) : Loop Place where
  entered := found.entered.map (· + d)
  ends := found.ends.map f

omit hf hbody in
theorem foldl_map_comm {σ : Type} {g : σ → σ} {step step' : σ → Place → σ} {l : List Place}
    (h : ∀ s, ∀ a ∈ l, step' (g s) (f a) = g (step s a)) (s : σ) :
    (l.map f).foldl step' (g s) = g (l.foldl step s) := by
  induction l generalizing s with
  | nil => rfl
  | cons a l ih =>
      rw [List.map_cons, List.foldl_cons, List.foldl_cons, h s a List.mem_cons_self]
      exact ih (fun s b hb => h s b (List.mem_cons_of_mem a hb)) (step s a)

omit hf hbody in
/-- Where no round is left, it does not matter how many the loop is allowed. -/
theorem climb_of_nil {a : Place} (h : body a = []) (greedy : Bool) (ahead : List Char)
    (found : Loop Place) :
    climb some body greedy ahead found a =
      match insertFalling? (index a) found.entered with
      | some entered => { entered, ends := a :: found.ends }
      | none => found := by
  cases ahead with
  | nil =>
      rw [climb]
      cases insertFalling? (index a) found.entered <;> rfl
  | cons c ahead =>
      rw [climb]
      cases insertFalling? (index a) found.entered with
      | none => rfl
      | some entered =>
          dsimp only
          rw [h]
          cases greedy <;> rfl

theorem climb_map_of_nil {a : Place} (hnil : body a = []) (greedy : Bool)
    (ahead ahead' : List Char) (found : Loop Place) :
    climb some body greedy ahead' (found.map f d) (f a) =
      (climb some body greedy ahead found a).map f d := by
  have hindex : index (f a) = index a + d := hf a
  have hnil' : body (f a) = [] := by rw [hbody, hnil, List.map_nil]
  rw [climb_of_nil hnil, climb_of_nil hnil', Loop.map, hindex, insertFalling?_map_add]
  cases insertFalling? (index a) found.entered <;> rfl

/-- A loop does the same from the places that are moved along, if it is allowed enough rounds. -/
theorem climb_map (hforward : ∀ a, ∀ b ∈ body a, b.after.length < a.after.length) (greedy : Bool)
    {ahead ahead' : List Char} (found : Loop Place) {a : Place}
    (h : a.after.length ≤ ahead.length) (h' : a.after.length ≤ ahead'.length) :
    climb some body greedy ahead' (found.map f d) (f a) =
      (climb some body greedy ahead found a).map f d := by
  have hindex (a : Place) : index (f a) = index a + d := hf a
  induction ahead generalizing ahead' found a with
  | nil =>
      refine climb_map_of_nil hf hbody (List.eq_nil_iff_forall_not_mem.mpr fun b hb => ?_) _ _ _ _
      have := hforward a b hb
      rw [List.length_nil] at h
      omega
  | cons c ahead ih =>
      cases ahead' with
      | nil =>
          refine climb_map_of_nil hf hbody
            (List.eq_nil_iff_forall_not_mem.mpr fun b hb => ?_) _ _ _ _
          have := hforward a b hb
          rw [List.length_nil] at h'
          omega
      | cons c' ahead' =>
          rw [List.length_cons] at h h'
          have hrounds (found : Loop Place) :
              (body (f a)).foldl (climb some body greedy ahead') (found.map f d) =
                ((body a).foldl (climb some body greedy ahead) found).map f d := by
            rw [hbody]
            refine foldl_map_comm (fun found b hb => ?_) found
            have := hforward a b hb
            exact ih found (by omega) (by omega)
          rw [climb, climb]
          have hentered : (found.map f d).entered = found.entered.map (· + d) := rfl
          rw [hindex, hentered, insertFalling?_map_add]
          cases insertFalling? (index a) found.entered with
          | none => rfl
          | some entered =>
              cases greedy with
              | true =>
                  have hgreedy := hrounds { found with entered }
                  exact congrArg (fun l : Loop Place => { l with ends := f a :: l.ends }) hgreedy
              | false => exact hrounds { entered, ends := a :: found.ends }

/-- What a bounded loop has met, moved along. -/
def BoundedLoop.map (f : Place → Place) (d : Nat) (found : BoundedLoop Place) :
    BoundedLoop Place where
  entered := found.entered.map fun x => (x.1 + d, x.2)
  ends := found.ends.map f

omit hbody in
theorem stop_map (found : BoundedLoop Place) (a : Place) :
    (found.map f d).stop (f a) = (found.stop a).map f d := by
  have hindex (a : Place) : index (f a) = index a + d := hf a
  have hany : (found.map f d).ends.any (fun b => index b == index (f a)) =
      found.ends.any fun b => index b == index a := by
    have hsame (b : Place) : (index b + d == index a + d) = (index b == index a) := by
      rw [Bool.eq_iff_iff, beq_iff_eq, beq_iff_eq, Nat.add_right_cancel_iff]
    simp only [BoundedLoop.map, List.any_map, Function.comp_def, hindex, hsame]
  rw [BoundedLoop.stop, BoundedLoop.stop, hany]
  split <;> rfl

theorem climbBounded_map (greedy : Bool) (left : Nat) (found : BoundedLoop Place) (a : Place) :
    climbBounded (fun _ => some) (fun _ => body) greedy left (found.map f d) (f a) =
      (climbBounded (fun _ => some) (fun _ => body) greedy left found a).map f d := by
  have hindex (a : Place) : index (f a) = index a + d := hf a
  induction left generalizing found a with
  | zero => exact stop_map hf found a
  | succ left ih =>
      have hrounds (found : BoundedLoop Place) :
          (body (f a)).foldl (climbBounded (fun _ => some) (fun _ => body) greedy left)
              (found.map f d) =
            ((body a).foldl (climbBounded (fun _ => some) (fun _ => body) greedy left)
              found).map f d := by
        rw [hbody]
        exact foldl_map_comm (fun found b _ => ih found b) found
      have hcontains : (found.map f d).entered.contains (index (f a), left) =
          found.entered.contains (index a, left) := by
        rw [Bool.eq_iff_iff, List.contains_iff_mem, List.contains_iff_mem, hindex]
        simp [BoundedLoop.map]
      rw [climbBounded, climbBounded, hcontains]
      split
      · rfl
      · have henter : ({ found.map f d with
            entered := (index (f a), left) :: (found.map f d).entered } : BoundedLoop Place) =
            BoundedLoop.map f d { found with entered := (index a, left) :: found.entered } := by
          simp [BoundedLoop.map, hindex]
        dsimp only
        rw [henter]
        cases greedy with
        | true =>
            rw [if_pos rfl, if_pos rfl, hrounds, stop_map hf]
        | false =>
            rw [if_neg Bool.false_ne_true, if_neg Bool.false_ne_true, stop_map hf, hrounds]

theorem zeroOrMore_map (hforward : ∀ a, ∀ b ∈ body a, b.after.length < a.after.length)
    (hlength : ∀ a, a.after.length ≤ (f a).after.length) (greedy : Bool) (a : Place) :
    zeroOrMore some body greedy (f a) = (zeroOrMore some body greedy a).map f := by
  have hclimb := climb_map hf hbody hforward greedy {} (Nat.le_refl _) (hlength a)
  rw [zeroOrMore, zeroOrMore, List.map_reverse]
  exact congrArg (fun found : Loop Place => found.ends.reverse) hclimb

theorem oneOrMore_map (hforward : ∀ a, ∀ b ∈ body a, b.after.length < a.after.length)
    (hlength : ∀ a, a.after.length ≤ (f a).after.length) (greedy : Bool) (a : Place) :
    oneOrMore some body greedy (f a) = (oneOrMore some body greedy a).map f := by
  have hclimb : (body (f a)).foldl (climb some body greedy (f a).after) {} =
      ((body a).foldl (climb some body greedy a.after) {}).map f d := by
    rw [hbody]
    refine foldl_map_comm (g := Loop.map f d) (fun found b hb => ?_) {}
    have hlt := hforward a b hb
    exact climb_map hf hbody hforward greedy found hlt.le (hlt.le.trans (hlength a))
  rw [oneOrMore, oneOrMore, List.map_reverse]
  exact congrArg (fun found : Loop Place => found.ends.reverse) hclimb

theorem atMost_map (greedy : Bool) (most : Nat) (a : Place) :
    atMost (fun _ => some) (fun _ => body) greedy most (f a) =
      (atMost (fun _ => some) (fun _ => body) greedy most a).map f := by
  have hclimb := climbBounded_map hf hbody greedy most {} a
  rw [atMost, atMost, List.map_reverse]
  exact congrArg (fun found : BoundedLoop Place => found.ends.reverse) hclimb

/-- Rounds, and then a loop from where they end. -/
theorem distinct_rounds_map {loop : Place → List Place} (hloop : ∀ a, loop (f a) = (loop a).map f)
    (n : Nat) (a : Place) :
    distinct ((rounds (fun _ => body) n [f a]).flatMap loop) =
      (distinct ((rounds (fun _ => body) n [a]).flatMap loop)).map f := by
  have hrounds := rounds_map hf hbody n [a]
  rw [List.map_singleton] at hrounds
  rw [hrounds, flatMap_map_comm hloop, distinct_map hf]

end moved

/-! ### Expressions of one line -/

/-- An expression for texts of one line. -/
structure OnLine (r : Regex) : Prop where
  isPlain : r.isPlain = true
  avoids : r.avoids ['\r', '\n'] = true

instance (r : Regex) : Decidable r.OnLine :=
  decidable_of_iff (r.isPlain = true ∧ r.avoids ['\r', '\n'] = true)
    ⟨fun h => ⟨h.1, h.2⟩, fun h => ⟨h.isPlain, h.avoids⟩⟩

theorem OnLine.mentions_eq {r : Regex} (h : r.OnLine) :
    r.mentions '\r' = false ∧ r.mentions '\n' = false := by
  have havoids := List.all_eq_true.mp h.avoids
  exact ⟨by simpa using havoids '\r' (by simp), by simpa using havoids '\n' (by simp)⟩

theorem OnLine.of_mentions {r : Regex} (hplain : r.isPlain = true)
    (h : r.mentions '\r' = false ∧ r.mentions '\n' = false) : r.OnLine :=
  ⟨hplain, by simp [Regex.avoids, h.1, h.2]⟩

theorem OnLine.exists_skip? {r : Regex} (h : r.OnLine) {p q : Place} (hq : q ∈ r.ends p) :
    ∃ w, OnOneLine w ∧ p.skip? w = some q := by
  obtain ⟨w, hw, hskip⟩ := (mem_ends_iff h.isPlain p q).mp hq
  exact ⟨w, ⟨not_mem_of_avoids h.avoids hw (by simp), not_mem_of_avoids h.avoids hw (by simp)⟩,
    hskip⟩

/-- An expression of one line has the same matches in the other spelling. -/
theorem ends_respelled {r : Regex} (h : r.OnLine) (d : Nat) :
    ∀ p, r.ends (p.respelled d) = (r.ends p).map (Place.respelled d) := by
  have hindex (a : Place) : (a.respelled d).index = a.index + d := rfl
  obtain ⟨hreturn, hnewline⟩ := h.mentions_eq
  replace h := h.isPlain
  induction r with
  | text cs =>
      intro p
      have hcs : OnOneLine cs :=
        ⟨by simpa [mentions] using hreturn, by simpa [mentions] using hnewline⟩
      rw [ends, ends, Place.skip?_respelled hcs]
      cases p.skip? cs <;> rfl
  | one s =>
      intro p
      rw [mentions] at hreturn hnewline
      rw [ends, ends]
      cases hafter : p.after with
      | nil => simp [Place.next?, Place.respelled, hafter]
      | cons c rest =>
          by_cases hc : c = '\n'
          · subst hc
            simp [Place.next?, Place.respelled, hafter, hreturn, hnewline]
          · have hafter' : (p.respelled d).after = c :: crlf rest := by
              rw [Place.respelled, hafter, crlf_cons_of_ne hc]
            rw [Place.next?_of_after hafter, Place.next?_of_after hafter']
            dsimp only
            split
            · simp [Place.respelled, Nat.add_right_comm]
            · rfl
  | anchor a => cases h
  | group n r ih => exact ih hreturn hnewline h
  | seq r s ihr ihs =>
      intro p
      simp only [mentions, isPlain, Bool.or_eq_false_iff, Bool.and_eq_true] at hreturn hnewline h
      rw [ends, ends, ihr hreturn.1 hnewline.1 h.1,
        flatMap_map_comm (ihs hreturn.2 hnewline.2 h.2), distinct_map hindex]
  | alt r s ihr ihs =>
      intro p
      simp only [mentions, isPlain, Bool.or_eq_false_iff, Bool.and_eq_true] at hreturn hnewline h
      rw [ends, ends, ihr hreturn.1 hnewline.1 h.1, ihs hreturn.2 hnewline.2 h.2, ← List.map_append,
        distinct_map hindex]
  | repeated r least most greedy ih =>
      intro p
      cases most with
      | some most =>
          rw [isPlain, Bool.and_eq_true] at h
          have hbody := ih hreturn hnewline h.1
          rw [ends, ends]
          exact distinct_rounds_map hindex hbody (atMost_map hindex hbody greedy _) least p
      | none =>
          rw [isPlain, Bool.and_eq_true, Bool.not_eq_true'] at h
          have hbody := ih hreturn hnewline h.1
          have hforward (a b : Place) (hb : b ∈ r.ends a) : b.after.length < a.after.length :=
            length_after_lt (ahead_of_mem_ends r a b hb) (index_lt_of_mem_ends h.1 h.2 a b hb)
          have hlength (a : Place) : a.after.length ≤ (a.respelled d).after.length :=
            length_le_crlf a.after
          have hgreedy : ¬ r.isNullable = true := by simp [h.2]
          cases least with
          | zero =>
              rw [ends, ends, if_neg hgreedy, if_neg hgreedy]
              exact zeroOrMore_map hindex hbody hforward hlength greedy p
          | succ least =>
              rw [ends, ends, if_neg hgreedy, if_neg hgreedy]
              exact distinct_rounds_map hindex hbody
                (oneOrMore_map hindex hbody hforward hlength greedy) least p

theorem OnLine.firstEnd?_withReturns {r : Regex} (h : r.OnLine) (n : Nat) (p : Place) :
    r.firstEnd? (p.withReturns n) = (r.firstEnd? p).map (Place.withReturns n) := by
  rw [firstEnd?, firstEnd?, Place.withReturns, ends_respelled h, List.head?_map]
  cases hfirst : (r.ends p).head? with
  | none => rfl
  | some q =>
      obtain ⟨w, hw, hskip⟩ := h.exists_skip? (List.mem_of_head? hfirst)
      exact congrArg some (Place.withReturns_of_skip? hw hskip).symm

end Nesting.Regex
