import Nesting.Proofs.Regex.Preferred

/-! # What loops reach

A loop enters no place twice.  It still finds every place that some number of rounds leads to, since
the rounds from a place it has met before were run when it met that place first: what it enters is
closed under rounds (`Explored`, `ExploredBounded`).  So, without regard to preference, the ends of
a loop are the places that the allowed numbers of rounds lead to: `mem_zeroOrMore_iff`,
`mem_oneOrMore_iff`, `mem_rounds_iff` and `mem_atMost_iff`. -/

namespace Nesting.Regex

/-- So many rounds of a body, one behind the other. -/
inductive Rounds (body : Place → List Place) : Nat → Place → Place → Prop
  | zero (a : Place) : Rounds body 0 a a
  | succ {n : Nat} {a b c : Place} : b ∈ body a → Rounds body n b c → Rounds body (n + 1) a c

section

variable {body : Place → List Place} {p q : Place}

theorem Rounds.concat {n : Nat} {a b c : Place} (h : Rounds body n a b) (hc : c ∈ body b) :
    Rounds body (n + 1) a c := by
  induction h with
  | zero a => exact .succ hc (.zero c)
  | succ hb _ ih => exact .succ hb (ih hc)

theorem Rounds.trans {n m : Nat} {a b c : Place} (h : Rounds body n a b)
    (h' : Rounds body m b c) : Rounds body (n + m) a c := by
  induction h with
  | zero a => rwa [Nat.zero_add]
  | @succ n a b c hb _ ih =>
      rw [Nat.add_right_comm]
      exact .succ hb (ih h')

theorem Rounds.split {n m : Nat} {a c : Place} (h : Rounds body (n + m) a c) :
    ∃ b, Rounds body n a b ∧ Rounds body m b c := by
  induction n generalizing a with
  | zero => exact ⟨a, .zero a, by rwa [Nat.zero_add] at h⟩
  | succ n ih =>
      rw [Nat.add_right_comm] at h
      cases h with
      | succ hb h =>
          obtain ⟨b, hb', h⟩ := ih h
          exact ⟨b, .succ hb hb', h⟩

theorem Rounds.map {body' : Place → List Place} (h : ∀ a, ∀ b ∈ body a, b ∈ body' a) {n : Nat}
    {a b : Place} (hrun : Rounds body n a b) : Rounds body' n a b := by
  induction hrun with
  | zero a => exact .zero a
  | succ hb _ ih => exact .succ (h _ _ hb) ih

theorem Rounds.ahead (hbody : ∀ a, ∀ b ∈ body a, a.Ahead b) {n : Nat} {a b : Place}
    (h : Rounds body n a b) : a.Ahead b := by
  induction h with
  | zero a => exact .refl a
  | succ hb _ ih => exact (hbody _ _ hb).trans ih

/-! ### A fixed number of rounds -/

/-- Of places ahead of one place, none is left out. -/
theorem mem_distinct_iff {l : List Place} (h : ∀ a ∈ l, p.Ahead a) {a : Place} :
    a ∈ distinct l ↔ a ∈ l := by
  refine ⟨mem_of_mem_distinct, fun ha => ?_⟩
  have hinj : ∀ b ∈ l, ∀ c ∈ l, index b = index c → b = c :=
    fun b hb c hc => (h b hb).eq_of_index (h c hc)
  -- The search for `a` finds it in both lists.
  have hfind := findSome?_distinct (f := fun b => if b = a then some b else none) hinj
  obtain ⟨b, hb⟩ : ∃ b, l.findSome? (fun b => if b = a then some b else none) = some b := by
    rw [← Option.isSome_iff_exists, List.findSome?_isSome_iff]
    exact ⟨a, ha, by simp⟩
  rw [hb] at hfind
  obtain ⟨c, hc, hca⟩ := List.exists_of_findSome?_eq_some hfind
  split at hca
  · next heq => exact heq ▸ hc
  · cases hca

theorem mem_rounds_iff (hbody : ∀ a, ∀ b ∈ body a, a.Ahead b) (n : Nat) {l : List Place}
    (hl : ∀ a ∈ l, p.Ahead a) : q ∈ rounds (fun _ => body) n l ↔ ∃ a ∈ l, Rounds body n a q := by
  induction n generalizing l with
  | zero =>
      constructor
      · exact fun hq => ⟨q, hq, .zero q⟩
      · rintro ⟨_, ha, ⟨⟩⟩
        exact ha
  | succ n ih =>
      have hnext : ∀ b ∈ l.flatMap body, p.Ahead b := by
        intro b hb
        obtain ⟨a, ha, hb⟩ := List.mem_flatMap.mp hb
        exact (hl a ha).trans (hbody a b hb)
      have hrounds : rounds (fun _ => body) (n + 1) l =
          rounds (fun _ => body) n (distinct (l.flatMap body)) := by
        cases l with
        | nil => cases n <;> rfl
        | cons a l => rfl
      rw [hrounds, ih fun b hb => hnext b (mem_of_mem_distinct hb)]
      constructor
      · rintro ⟨b, hb, hrun⟩
        obtain ⟨a, ha, hb⟩ := List.mem_flatMap.mp (mem_of_mem_distinct hb)
        exact ⟨a, ha, .succ hb hrun⟩
      · rintro ⟨a, ha, hrun⟩
        cases hrun with
        | succ hb hrun =>
            exact ⟨_, (mem_distinct_iff hnext).mpr (List.mem_flatMap.mpr ⟨a, ha, hb⟩), hrun⟩

/-! ### Unbounded loops -/

/-- What a loop has met between two moments: it forgets nothing, and from every place it has entered
it has stopped there and entered the places behind one more round. -/
structure Explored (p : Place) (body : Place → List Place) (found found' : Loop Place) : Prop where
  entered : ∀ i ∈ found.entered, i ∈ found'.entered
  ends : ∀ b ∈ found.ends, b ∈ found'.ends
  closed : ∀ i ∈ found'.entered, i ∈ found.entered ∨
    ∃ b ∈ found'.ends, p.Ahead b ∧ b.index = i ∧ ∀ c ∈ body b, c.index ∈ found'.entered

namespace Explored

variable {found found' found'' : Loop Place} {a : Place}

theorem refl (p : Place) (body : Place → List Place) (found : Loop Place) :
    Explored p body found found :=
  ⟨fun _ h => h, fun _ h => h, fun _ h => .inl h⟩

theorem trans (h : Explored p body found found') (h' : Explored p body found' found'') :
    Explored p body found found'' where
  entered i hi := h'.entered i (h.entered i hi)
  ends b hb := h'.ends b (h.ends b hb)
  closed i hi := by
    rcases h'.closed i hi with hi | hnew
    · rcases h.closed i hi with hi | ⟨b, hb, hahead, hindex, hrounds⟩
      · exact .inl hi
      · exact .inr ⟨b, h'.ends b hb, hahead, hindex, fun c hc => h'.entered _ (hrounds c hc)⟩
    · exact .inr hnew

/-- A place that the loop enters, with the places behind one more round. -/
theorem enter {entered : List Nat} (hentry : insertFalling? a.index found.entered = some entered)
    (hentered : found'.entered = entered) (hends : ∀ b ∈ found.ends, b ∈ found'.ends)
    (h : Explored p body found' found'') (hahead : p.Ahead a) (ha : a ∈ found''.ends)
    (hrounds : ∀ c ∈ body a, c.index ∈ found''.entered) : Explored p body found found'' where
  entered i hi :=
    h.entered i (hentered ▸ (mem_insertFalling? hentry).mpr (.inr hi))
  ends b hb := h.ends b (hends b hb)
  closed i hi := by
    rcases h.closed i hi with hi | hnew
    · rw [hentered, mem_insertFalling? hentry] at hi
      rcases hi with rfl | hi
      · exact .inr ⟨a, ha, hahead, rfl, hrounds⟩
      · exact .inl hi
    · exact .inr hnew

theorem stop (h : Explored p body found found') (a : Place) :
    Explored p body found { found' with ends := a :: found'.ends } where
  entered := h.entered
  ends b hb := List.mem_cons_of_mem a (h.ends b hb)
  closed i hi := by
    rcases h.closed i hi with hi | ⟨b, hb, hnew⟩
    · exact .inl hi
    · exact .inr ⟨b, List.mem_cons_of_mem a hb, hnew⟩

theorem foldl {step : Loop Place → Place → Loop Place} {l : List Place}
    (hstep : ∀ found, ∀ b ∈ l, Explored p body found (step found b) ∧
      b.index ∈ (step found b).entered) (found : Loop Place) :
    Explored p body found (l.foldl step found) ∧
      ∀ b ∈ l, b.index ∈ (l.foldl step found).entered := by
  induction l generalizing found with
  | nil => exact ⟨refl p body found, fun _ hb => absurd hb List.not_mem_nil⟩
  | cons a l ih =>
      have ha := hstep found a List.mem_cons_self
      have hl := ih (fun found b hb => hstep found b (List.mem_cons_of_mem a hb)) (step found a)
      exact ⟨ha.1.trans hl.1, List.forall_mem_cons.mpr ⟨hl.1.entered _ ha.2, hl.2⟩⟩

/-- What the loop has entered it has found, and what more rounds lead to from there. -/
theorem mem_ends (hbody : ∀ a, ∀ b ∈ body a, a.Ahead b) (h : Explored p body {} found) {n : Nat}
    (hrun : Rounds body n a q) (hahead : p.Ahead a) (ha : a.index ∈ found.entered) :
    q ∈ found.ends := by
  have found_of {a : Place} (hahead : p.Ahead a) (ha : a.index ∈ found.entered) :
      a ∈ found.ends ∧ ∀ c ∈ body a, c.index ∈ found.entered := by
    rcases h.closed _ ha with ha | ⟨b, hb, hahead', hindex, hrounds⟩
    · exact absurd ha List.not_mem_nil
    · rw [hahead'.eq_of_index hahead hindex] at hb hrounds
      exact ⟨hb, hrounds⟩
  induction hrun with
  | zero a => exact (found_of hahead ha).1
  | succ hb _ ih => exact ih (hahead.trans (hbody _ _ hb)) ((found_of hahead ha).2 _ hb)

end Explored

theorem length_after_lt {a b : Place} (h : a.Ahead b) (hlt : a.index < b.index) :
    b.after.length < a.after.length := by
  obtain ⟨cs, hcs⟩ := h
  have hindex := Place.index_of_skip? hcs
  have hlength := congrArg List.length (Place.after_of_skip? hcs)
  rw [List.length_append] at hlength
  omega

section unbounded

variable (hbody : ∀ a, ∀ b ∈ body a, a.Ahead b) (hforward : ∀ a, ∀ b ∈ body a, a.index < b.index)
include hbody hforward

theorem explored_climb (greedy : Bool) (ahead : List Char) (found : Loop Place) {a : Place}
    (hahead : p.Ahead a) (hlength : a.after.length ≤ ahead.length) :
    Explored p body found (climb some body greedy ahead found a) ∧
      a.index ∈ (climb some body greedy ahead found a).entered := by
  induction ahead generalizing found a with
  | nil =>
      rw [climb]
      cases hentry : insertFalling? (index a) found.entered with
      | none => exact ⟨.refl p body found, mem_of_insertFalling?_eq_none hentry⟩
      | some entered =>
          refine ⟨.enter hentry rfl (fun b hb => List.mem_cons_of_mem a hb) (.refl p body _) hahead
            List.mem_cons_self fun c hc => ?_, (mem_insertFalling? hentry).mpr (.inl rfl)⟩
          have hlt := length_after_lt (hbody a c hc) (hforward a c hc)
          rw [List.length_nil] at hlength
          omega
  | cons d ahead ih =>
      rw [climb]
      cases hentry : insertFalling? (index a) found.entered with
      | none => exact ⟨.refl p body found, mem_of_insertFalling?_eq_none hentry⟩
      | some entered =>
          have hrounds (found : Loop Place) :
              Explored p body found ((body a).foldl (climb some body greedy ahead) found) ∧
                ∀ b ∈ body a,
                  b.index ∈ ((body a).foldl (climb some body greedy ahead) found).entered := by
            refine Explored.foldl (fun found b hb => ?_) found
            refine ih found (hahead.trans (hbody a b hb)) ?_
            have hlt := length_after_lt (hbody a b hb) (hforward a b hb)
            rw [List.length_cons] at hlength
            omega
          have hself : a.index ∈ entered := (mem_insertFalling? hentry).mpr (.inl rfl)
          dsimp only
          split
          · obtain ⟨hrun, hnext⟩ := hrounds { found with entered }
            have hentered : ({ found with entered } : Loop Place).entered = entered := rfl
            exact ⟨.enter hentry hentered (fun b hb => hb) (hrun.stop a) hahead List.mem_cons_self
              hnext, hrun.entered _ hself⟩
          · obtain ⟨hrun, hnext⟩ := hrounds { entered, ends := a :: found.ends }
            exact ⟨.enter hentry rfl (fun b hb => List.mem_cons_of_mem a hb) hrun hahead
              (hrun.ends a List.mem_cons_self) hnext, hrun.entered _ hself⟩

theorem mem_zeroOrMore_iff (greedy : Bool) :
    q ∈ zeroOrMore some body greedy p ↔ ∃ n, Rounds body n p q := by
  constructor
  · refine forall_zeroOrMore (P := fun b => ∃ n, Rounds body n p b)
      (fun a b h ha => Option.some.inj h ▸ ha) (fun a ha b hb => ?_) greedy ⟨0, .zero p⟩ q
    obtain ⟨n, ha⟩ := ha
    exact ⟨n + 1, ha.concat hb⟩
  · rintro ⟨n, hrun⟩
    obtain ⟨hexplored, hself⟩ := explored_climb hbody hforward greedy p.after {} (.refl p)
      (Nat.le_refl _)
    exact List.mem_reverse.mpr (hexplored.mem_ends hbody hrun (.refl p) hself)

theorem mem_oneOrMore_iff (greedy : Bool) :
    q ∈ oneOrMore some body greedy p ↔ ∃ n, Rounds body (n + 1) p q := by
  constructor
  · rw [oneOrMore, List.mem_reverse]
    refine foldl_keeps (P := fun b => b ∈ body p)
      (Q := fun found : Loop Place => ∀ q ∈ found.ends, ∃ n, Rounds body (n + 1) p q) ?_
      (fun b hb => hb) ?_ q
    · intro found b hfound hb
      refine climb_keeps (P := fun c => ∃ n, Rounds body (n + 1) p c)
        (fun a b h ha => Option.some.inj h ▸ ha) (fun a ha c hc => ?_) greedy _ hfound
        ⟨0, .succ hb (.zero b)⟩
      obtain ⟨n, ha⟩ := ha
      exact ⟨n + 1, ha.concat hc⟩
    · exact fun _ h => absurd h List.not_mem_nil
  · rintro ⟨n, hrun⟩
    have hstep (found : Loop Place) (b : Place) (hb : b ∈ body p) :=
      explored_climb hbody hforward greedy p.after found (hbody p b hb)
        (Nat.le_of_lt (length_after_lt (hbody p b hb) (hforward p b hb)))
    obtain ⟨hexplored, hentered⟩ := Explored.foldl hstep {}
    cases hrun with
    | succ hb hrun =>
        exact List.mem_reverse.mpr
          (hexplored.mem_ends hbody hrun (hbody p _ hb) (hentered _ hb))

end unbounded

/-! ### Bounded loops -/

/-- Whether a bounded loop has been at a place with so many rounds left. -/
def BoundedLoop.Met (found : BoundedLoop Place) : Nat → Place → Prop
  | 0, a => ∃ e ∈ found.ends, e.index = a.index
  | left + 1, a => (a.index, left) ∈ found.entered

/-- What a bounded loop has met between two moments. -/
structure ExploredBounded (p : Place) (body : Place → List Place)
    (found found' : BoundedLoop Place) : Prop where
  entered : ∀ x ∈ found.entered, x ∈ found'.entered
  ends : ∀ b ∈ found.ends, b ∈ found'.ends
  closed : ∀ x ∈ found'.entered, x ∈ found.entered ∨
    ∃ b, p.Ahead b ∧ b.index = x.1 ∧ found'.Met 0 b ∧ ∀ c ∈ body b, found'.Met x.2 c

namespace ExploredBounded

variable {found found' found'' : BoundedLoop Place} {a : Place}

theorem met (h : ExploredBounded p body found found') {left : Nat} (ha : found.Met left a) :
    found'.Met left a := by
  cases left with
  | zero =>
      obtain ⟨e, he, hindex⟩ := ha
      exact ⟨e, h.ends e he, hindex⟩
  | succ left => exact h.entered _ ha

theorem refl (p : Place) (body : Place → List Place) (found : BoundedLoop Place) :
    ExploredBounded p body found found :=
  ⟨fun _ h => h, fun _ h => h, fun _ h => .inl h⟩

theorem trans (h : ExploredBounded p body found found')
    (h' : ExploredBounded p body found' found'') : ExploredBounded p body found found'' where
  entered x hx := h'.entered x (h.entered x hx)
  ends b hb := h'.ends b (h.ends b hb)
  closed x hx := by
    rcases h'.closed x hx with hx | hnew
    · rcases h.closed x hx with hx | ⟨b, hahead, hindex, hmet, hrounds⟩
      · exact .inl hx
      · exact .inr ⟨b, hahead, hindex, h'.met hmet, fun c hc => h'.met (hrounds c hc)⟩
    · exact .inr hnew

theorem stop (p : Place) (body : Place → List Place) (found : BoundedLoop Place) (a : Place) :
    ExploredBounded p body found (found.stop a) ∧ (found.stop a).Met 0 a := by
  unfold BoundedLoop.stop
  split
  · next hany =>
    obtain ⟨e, he, hindex⟩ := List.any_eq_true.mp hany
    exact ⟨refl p body found, e, he, eq_of_beq hindex⟩
  · exact ⟨⟨fun _ h => h, fun _ h => List.mem_cons_of_mem a h, fun _ h => .inl h⟩,
      a, List.mem_cons_self, rfl⟩

theorem foldl {step : BoundedLoop Place → Place → BoundedLoop Place} {l : List Place} {left : Nat}
    (hstep : ∀ found, ∀ b ∈ l, ExploredBounded p body found (step found b) ∧
      (step found b).Met left b) (found : BoundedLoop Place) :
    ExploredBounded p body found (l.foldl step found) ∧
      ∀ b ∈ l, (l.foldl step found).Met left b := by
  induction l generalizing found with
  | nil => exact ⟨refl p body found, fun _ hb => absurd hb List.not_mem_nil⟩
  | cons a l ih =>
      have ha := hstep found a List.mem_cons_self
      have hl := ih (fun found b hb => hstep found b (List.mem_cons_of_mem a hb)) (step found a)
      exact ⟨ha.1.trans hl.1, List.forall_mem_cons.mpr ⟨hl.1.met ha.2, hl.2⟩⟩

/-- A place that the loop enters, with the places behind one more round. -/
theorem enter {left : Nat} (hahead : p.Ahead a)
    (h : ExploredBounded p body { found with entered := (a.index, left) :: found.entered } found')
    (hself : found'.Met 0 a) (hrounds : ∀ c ∈ body a, found'.Met left c) :
    ExploredBounded p body found found' ∧ found'.Met (left + 1) a := by
  refine ⟨⟨fun x hx => h.entered x (List.mem_cons_of_mem _ hx), h.ends, fun x hx => ?_⟩,
    h.entered _ List.mem_cons_self⟩
  rcases h.closed x hx with hx | hnew
  · rcases List.mem_cons.mp hx with rfl | hx
    · exact .inr ⟨a, hahead, rfl, hself, hrounds⟩
    · exact .inl hx
  · exact .inr hnew

/-- From a place that the loop has met, it has found what no more than the rounds left lead to. -/
theorem met_zero (hbody : ∀ a, ∀ b ∈ body a, a.Ahead b) (h : ExploredBounded p body {} found)
    {n left : Nat} (hn : n ≤ left) (hrun : Rounds body n a q) (hahead : p.Ahead a)
    (ha : found.Met left a) : found.Met 0 q := by
  have met_of {left : Nat} {a : Place} (hahead : p.Ahead a) (ha : found.Met (left + 1) a) :
      found.Met 0 a ∧ ∀ c ∈ body a, found.Met left c := by
    rcases h.closed _ ha with ha | ⟨b, hahead', hindex, hmet, hrounds⟩
    · exact absurd ha List.not_mem_nil
    · rw [hahead'.eq_of_index hahead hindex] at hmet hrounds
      exact ⟨hmet, hrounds⟩
  induction hrun generalizing left with
  | zero a =>
      cases left with
      | zero => exact ha
      | succ left => exact (met_of hahead ha).1
  | succ hb _ ih =>
      cases left with
      | zero => cases hn
      | succ left =>
          exact ih (Nat.le_of_succ_le_succ hn) (hahead.trans (hbody _ _ hb))
            ((met_of hahead ha).2 _ hb)

end ExploredBounded

section bounded

variable (hbody : ∀ a, ∀ b ∈ body a, a.Ahead b)
include hbody

theorem explored_climbBounded (greedy : Bool) (left : Nat) (found : BoundedLoop Place) {a : Place}
    (hahead : p.Ahead a) :
    ExploredBounded p body found
        (climbBounded (fun _ => some) (fun _ => body) greedy left found a) ∧
      (climbBounded (fun _ => some) (fun _ => body) greedy left found a).Met left a := by
  induction left generalizing found a with
  | zero => exact ExploredBounded.stop p body found a
  | succ left ih =>
      rw [climbBounded]
      split
      · next hmem => exact ⟨.refl p body found, List.contains_iff_mem.mp hmem⟩
      · have hstep (found : BoundedLoop Place) (b : Place) (hb : b ∈ body a) :=
          ih found (hahead.trans (hbody a b hb))
        have hrounds (found : BoundedLoop Place) := ExploredBounded.foldl hstep found
        dsimp only
        split
        · obtain ⟨hrun, hnext⟩ := hrounds { found with entered := (a.index, left) :: found.entered }
          obtain ⟨hstop, hself⟩ := ExploredBounded.stop p body
            ((body a).foldl (climbBounded (fun _ => some) (fun _ => body) greedy left)
              { found with entered := (a.index, left) :: found.entered }) a
          exact ExploredBounded.enter hahead (hrun.trans hstop) hself fun c hc =>
            hstop.met (hnext c hc)
        · obtain ⟨hstop, hself⟩ := ExploredBounded.stop p body
            { found with entered := (a.index, left) :: found.entered } a
          obtain ⟨hrun, hnext⟩ := hrounds
            (BoundedLoop.stop { found with entered := (a.index, left) :: found.entered } a)
          exact ExploredBounded.enter hahead (hstop.trans hrun) (hrun.met hself) hnext

omit hbody in
theorem rounds_of_mem_climbBounded (greedy : Bool) (left : Nat) {found : BoundedLoop Place}
    {a : Place} (hq : q ∈ (climbBounded (fun _ => some) (fun _ => body) greedy left found a).ends) :
    q ∈ found.ends ∨ ∃ n ≤ left, Rounds body n a q := by
  have mem_stop {found : BoundedLoop Place} {a : Place} (hq : q ∈ (found.stop a).ends) :
      q ∈ found.ends ∨ q = a := by
    unfold BoundedLoop.stop at hq
    split at hq
    · exact .inl hq
    · exact (List.mem_cons.mp hq).symm
  induction left generalizing found a with
  | zero =>
      rcases mem_stop hq with hq | rfl
      · exact .inl hq
      · exact .inr ⟨0, Nat.le_refl _, .zero q⟩
  | succ left ih =>
      have hself : ∃ n ≤ left + 1, Rounds body n a a := ⟨0, Nat.zero_le _, .zero a⟩
      have run (found : BoundedLoop Place)
          (hq : q ∈ ((body a).foldl
            (climbBounded (fun _ => some) (fun _ => body) greedy left) found).ends) :
          q ∈ found.ends ∨ ∃ n ≤ left + 1, Rounds body n a q := by
        refine foldl_keeps (P := fun b => b ∈ body a)
          (Q := fun found' : BoundedLoop Place =>
            q ∈ found'.ends → q ∈ found.ends ∨ ∃ n ≤ left + 1, Rounds body n a q)
          (fun found' b hfound hb hq => ?_) (fun b hb => hb) .inl hq
        rcases ih hq with hq | ⟨n, hn, hrun⟩
        · exact hfound hq
        · exact .inr ⟨n + 1, Nat.succ_le_succ hn, .succ hb hrun⟩
      rw [climbBounded] at hq
      split at hq
      · exact .inl hq
      · dsimp only at hq
        split at hq
        · rcases mem_stop hq with hq | rfl
          · have := run _ hq
            exact this
          · exact .inr hself
        · rcases run _ hq with hq | hq
          · rcases mem_stop hq with hq | rfl
            · exact .inl hq
            · exact .inr hself
          · exact .inr hq

theorem mem_atMost_iff (greedy : Bool) (most : Nat) :
    q ∈ atMost (fun _ => some) (fun _ => body) greedy most p ↔
      ∃ n ≤ most, Rounds body n p q := by
  rw [atMost, List.mem_reverse]
  constructor
  · intro hq
    rcases rounds_of_mem_climbBounded greedy most hq with hq | hq
    · exact absurd hq List.not_mem_nil
    · exact hq
  · rintro ⟨n, hn, hrun⟩
    obtain ⟨hexplored, hmet⟩ := explored_climbBounded hbody greedy most {} (.refl p)
    obtain ⟨e, he, hindex⟩ := hexplored.met_zero hbody hn hrun (.refl p) hmet
    have hahead : p.Ahead e :=
      climbBounded_keeps (P := p.Ahead) (fun _ a b h ha => Option.some.inj h ▸ ha)
        (fun _ a ha b hb => ha.trans (hbody a b hb)) greedy most
        (fun _ h => absurd h List.not_mem_nil) (.refl p) e he
    rwa [← hahead.eq_of_index (hrun.ahead hbody) hindex]

end bounded

end

end Nesting.Regex
