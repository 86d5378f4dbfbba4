import Nesting.Proofs.Lexer.Step

/-! # The strings of a run

While the lexer runs, it enters and leaves the states of strings.  `RuleTable.strings` lists the
strings that it leaves: with the token that entered the state, the token that left it, and
whether the brackets in it balance, that is, whether its templates and those of the strings inside
it leave no bracket open. -/

namespace Nesting

/-- A string whose state the lexer has entered and not left. -/
structure OpenString where
  /-- The token that entered the state. -/
  opening : Token
  /-- How many brackets the code of its templates has opened and not closed. -/
  depth : Nat
  /-- No string inside it has left a bracket open. -/
  isClean : Bool
  deriving DecidableEq, Repr

/-- A string whose state the lexer has left. -/
structure LexedString where
  /-- The token that entered the state. -/
  opening : Token
  /-- The token that left the state. -/
  closing : Token
  /-- Neither the string nor a string inside it has left a bracket open. -/
  isBalanced : Bool
  deriving DecidableEq, Repr

namespace OpenString

/-- A string that a token has just opened. -/
def start (opening : Token) : OpenString := { opening, depth := 0, isClean := true }

/-- A string after a token of its code.  A closing bracket without an opening one counts for
nothing. -/
def read (s : OpenString) (t : Token) : OpenString :=
  match t.kind with
  | .bracketLeft => { s with depth := s.depth + 1 }
  | .bracketRight => { s with depth := s.depth - 1 }
  | _ => s

@[simp] theorem opening_read (s : OpenString) (t : Token) : (s.read t).opening = s.opening := by
  unfold read
  split <;> rfl

@[simp] theorem isClean_read (s : OpenString) (t : Token) : (s.read t).isClean = s.isClean := by
  unfold read
  split <;> rfl

theorem read_of_ne {t : Token} (hleft : t.kind ≠ .bracketLeft) (hright : t.kind ≠ .bracketRight)
    (s : OpenString) : s.read t = s := by
  unfold read
  split
  · next ht => exact absurd ht hleft
  · next ht => exact absurd ht hright
  · rfl

/-- Neither the string nor a string inside it has a bracket open. -/
def isBalanced (s : OpenString) : Bool := s.depth = 0 && s.isClean

/-- A string that a token has closed. -/
def close (s : OpenString) (closing : Token) : LexedString :=
  { opening := s.opening, closing, isBalanced := s.isBalanced }

/-- A string after a string inside it was left. -/
def around (s : OpenString) (inner : OpenString) : OpenString :=
  { s with isClean := s.isClean && inner.isBalanced }

end OpenString

namespace RuleTable

/-- The open strings after tokens that neither enter nor leave one: the innermost reads them. -/
def readAll (ts : List Token) : List OpenString → List OpenString
  | [] => []
  | s :: outer => ts.foldl OpenString.read s :: outer

/-- What a step of the lexer does to the open strings, the innermost first: the strings that it
leaves, and those that are open after it. -/
def turn (s s' : Scan) (ts : List Token) (strings : List OpenString) :
    List LexedString × List OpenString :=
  if s.entered.length < s'.entered.length then
    match s'.state with
    | .string _ => ([], ts.map .start ++ strings)
    | _ => ([], strings)
  else if s'.entered.length < s.entered.length then
    match s.state, strings with
    | .string _, inner :: outer => (ts.map inner.close, outer.map (·.around inner))
    | _, _ => ([], strings)
  else ([], readAll ts strings)

/-- The strings that the lexer leaves from a point of a run on, given those that are open there. -/
def stringsFrom (table : RuleTable) : Nat → Scan → List OpenString → List LexedString
  | 0, _, _ => []
  | fuel + 1, s, strings =>
    match table.step? s with
    | none => []
    | some (ts, s') =>
      (turn s s' ts strings).1 ++ stringsFrom table fuel s' (turn s s' ts strings).2

/-- The strings of a source, in the order in which the lexer leaves them. -/
def strings (table : RuleTable) (source : String) : List LexedString :=
  let cs := source.toList
  table.stringsFrom cs.length (.start cs) []

/-! ### Turns -/

/-- The entered states: strings in code, and templates in strings, with the number of strings. -/
inductive Entered : List LexState → Nat → Prop
  | root : Entered [] 0
  | string {entered n i} : (entered.headD .root).readsCode → Entered entered n →
      Entered (.string i :: entered) (n + 1)
  | template {entered n i i' j} : Entered (.string i :: entered) n →
      Entered (.template i' j :: .string i :: entered) n

/-- What a step can do: to the entered states, with which tokens, and to the open strings. -/
inductive Turn : List LexState → List OpenString → List Token →
    List LexState → List LexedString → List OpenString → Prop
  | code {entered strings t} : (entered.headD .root).readsCode → t.kind.isCode →
      Turn entered strings [t] entered [] (readAll [t] strings)
  | enterString {entered strings t i} : (entered.headD .root).readsCode → t.kind = .stringStart →
      Turn entered strings [t] (.string i :: entered) [] (.start t :: strings)
  | leaveTemplate {entered strings t i j} : t.kind = .templateEnd →
      Turn (.template i j :: entered) strings [t] entered [] strings
  | content {entered strings t i} : t.kind = .stringValue ∨ t.kind = .unknown →
      Turn (.string i :: entered) strings [t] (.string i :: entered) [] strings
  | enterTemplate {entered strings t i i' j} : t.kind = .templateStart →
      Turn (.string i :: entered) strings [t] (.template i' j :: .string i :: entered) [] strings
  | reference {entered strings ts mark i} : (∀ t ∈ ts, isReferenceKind t.kind) →
      mark.kind = .templateEnd →
      Turn (.string i :: entered) strings (ts ++ [mark]) (.string i :: entered) [] strings
  | leaveString {entered inner outer t i} : t.kind = .stringEnd →
      Turn (.string i :: entered) (inner :: outer) [t] entered [inner.close t]
        (outer.map (·.around inner))

/-- Tokens other than brackets do not count. -/
theorem readAll_of_ne {ts : List Token}
    (h : ∀ t ∈ ts, t.kind ≠ .bracketLeft ∧ t.kind ≠ .bracketRight) (strings : List OpenString) :
    readAll ts strings = strings := by
  cases strings with
  | nil => rfl
  | cons s outer =>
      rw [readAll]
      congr 1
      induction ts with
      | nil => rfl
      | cons t ts ih =>
          rw [List.forall_mem_cons] at h
          rw [List.foldl_cons, OpenString.read_of_ne h.1.1 h.1.2, ih h.2]

theorem kind_of_mem_cutParts {rules : List PartRule}
    (hrules : ∀ r ∈ rules, isReferenceKind r.kind) {fuel : Nat} {p : Place} {pos : Position}
    {t : Token} (h : t ∈ cutParts rules fuel p pos) : isReferenceKind t.kind := by
  induction fuel generalizing p pos with
  | zero => cases h
  | succ fuel ih =>
      rw [cutParts] at h
      split at h
      · cases h
      · split at h
        · cases h
        · next u q rule hnext =>
          rcases List.mem_cons.mp h with rfl | h
          · rw [Rule.next?] at hnext
            split at hnext
            · next r q' hfirst =>
              cases hnext
              exact hrules r (Rule.mem_of_first? hfirst).1
            · obtain ⟨_, _, he⟩ := Option.map_eq_some_iff.mp hnext
              cases he
              rfl
          · exact ih h

theorem exists_mark_of_cut {rules : List PartRule} (hrules : ∀ r ∈ rules, isReferenceKind r.kind)
    (t : Token) : ∃ ts mark, t.cut rules = ts ++ [mark] ∧ (∀ u ∈ ts, isReferenceKind u.kind) ∧
      mark.kind = .templateEnd :=
  ⟨_, _, rfl, fun _ => kind_of_mem_cutParts hrules, rfl⟩

/-- A reference enters and leaves no string, and opens and closes no bracket. -/
theorem ne_of_mem_reference {ts : List Token} {mark : Token}
    (hts : ∀ t ∈ ts, isReferenceKind t.kind) (hmark : mark.kind = .templateEnd) :
    ∀ t ∈ ts ++ [mark], (t.kind ≠ .stringStart ∧ t.kind ≠ .stringEnd) ∧
      t.kind ≠ .bracketLeft ∧ t.kind ≠ .bracketRight := by
  intro t ht
  rcases List.mem_append.mp ht with ht | ht
  · have hk := hts t ht
    cases h : t.kind <;> simp [h, isReferenceKind] at hk <;> decide
  · rw [List.mem_singleton.mp ht, hmark]
    decide

/-! ### Steps that stay, enter and leave -/

section turn

variable {s s' : Scan} (ts : List Token) (strings : List OpenString)

theorem turn_of_stay (h : s'.entered = s.entered) :
    turn s s' ts strings = ([], readAll ts strings) := by
  unfold turn
  rw [h, if_neg (Nat.lt_irrefl _), if_neg (Nat.lt_irrefl _)]

theorem turn_of_enterString {i : Nat} (h : s'.entered = .string i :: s.entered) :
    turn s s' ts strings = ([], ts.map .start ++ strings) := by
  have hlt : s.entered.length < s'.entered.length := by simp [h]
  have hstate : s'.state = .string i := by simp [Scan.state, h]
  unfold turn
  rw [if_pos hlt, hstate]

theorem turn_of_enterTemplate {i j : Nat} (h : s'.entered = .template i j :: s.entered) :
    turn s s' ts strings = ([], strings) := by
  have hlt : s.entered.length < s'.entered.length := by simp [h]
  have hstate : s'.state = .template i j := by simp [Scan.state, h]
  unfold turn
  rw [if_pos hlt, hstate]

theorem turn_of_leaveString {i : Nat} (h : s.entered = .string i :: s'.entered)
    (inner : OpenString) (outer : List OpenString) :
    turn s s' ts (inner :: outer) = (ts.map inner.close, outer.map (·.around inner)) := by
  have hlt : s'.entered.length < s.entered.length := by simp [h]
  have hstate : s.state = .string i := by simp [Scan.state, h]
  unfold turn
  rw [if_neg (Nat.lt_asymm hlt), if_pos hlt, hstate]

theorem turn_of_leaveTemplate {i j : Nat} (h : s.entered = .template i j :: s'.entered) :
    turn s s' ts strings = ([], strings) := by
  have hlt : s'.entered.length < s.entered.length := by simp [h]
  have hstate : s.state = .template i j := by simp [Scan.state, h]
  unfold turn
  rw [if_neg (Nat.lt_asymm hlt), if_pos hlt, hstate]

end turn

variable {l : Lexicon} {table : RuleTable}

theorem Entered.eq_cons {state : LexState} {entered : List LexState} {n : Nat}
    (h : Entered entered n) (hstate : entered.headD .root = state) (hroot : state ≠ .root) :
    ∃ outer, entered = state :: outer := by
  cases h with
  | root => exact absurd hstate.symm hroot
  | string _ _ => exact ⟨_, congrArg (· :: _) hstate⟩
  | template _ => exact ⟨_, congrArg (· :: _) hstate⟩

theorem Reads.exists_rule {s s' : Scan} {ts : List Token} (h : table.Reads s ts s') :
    (∃ t, ts = [t] ∧ t.kind = .unknown ∧ t.pos = s.pos ∧ s'.entered = s.entered) ∨
    ∃ r t, r ∈ table.rulesOf s.state ∧ t.kind = r.kind ∧ t.pos = s.pos ∧
      ts = r.action.tokens t ∧ s'.entered = table.follow s.entered r.action := by
  cases h with
  | rule hr _ _ => exact .inr ⟨_, _, hr, rfl, rfl, rfl, rfl⟩
  | unknown _ _ => exact .inl ⟨_, rfl, rfl, rfl, rfl⟩

/-- A step is one of the turns, and the tokens that enter or leave a string stand where the step
begins. -/
structure IsTurn (s s' : Scan) (ts : List Token) (strings : List OpenString) : Prop where
  turn : Turn s.entered strings ts s'.entered (turn s s' ts strings).1 (turn s s' ts strings).2
  pos_eq : ∀ t ∈ ts, t.kind = .stringStart ∨ t.kind = .stringEnd → t.pos = s.pos

section isTurn

variable {s s' : Scan} {strings : List OpenString} {t : Token}

theorem isTurn_of_token {entered' : List LexState} {closed : List LexedString}
    {strings' : List OpenString} (hpos : t.pos = s.pos) (hs' : s'.entered = entered')
    (hturn : turn s s' [t] strings = (closed, strings'))
    (h : Turn s.entered strings [t] entered' closed strings') : IsTurn s s' [t] strings where
  turn := by
    rw [hturn, hs']
    exact h
  pos_eq := List.forall_mem_singleton.mpr fun _ => hpos

theorem readAll_content (ht : t.kind = .stringValue ∨ t.kind = .unknown)
    (strings : List OpenString) : readAll [t] strings = strings := by
  refine readAll_of_ne (List.forall_mem_singleton.mpr ?_) strings
  rcases ht with ht | ht <;> simp [ht]

/-- Unknown text is code, or it is content of a string. -/
theorem isTurn_of_unknown (hentered : Entered s.entered strings.length) (ht : t.kind = .unknown)
    (hpos : t.pos = s.pos) (hs' : s'.entered = s.entered) : IsTurn s s' [t] strings := by
  refine isTurn_of_token hpos hs' (turn_of_stay _ _ hs') ?_
  cases hs : s.state with
  | string i =>
      obtain ⟨outer, houter⟩ := hentered.eq_cons hs (by simp)
      rw [readAll_content (.inr ht), houter]
      exact .content (.inr ht)
  | root => exact .code (by rw [← Scan.state, hs]; rfl) (by rw [ht]; rfl)
  | template i j => exact .code (by rw [← Scan.state, hs]; rfl) (by rw [ht]; rfl)

theorem isTurn_of_reference {rules : List PartRule} (hrules : ∀ r ∈ rules, isReferenceKind r.kind)
    {i : Nat} {outer : List LexState} (houter : s.entered = .string i :: outer)
    (hs' : s'.entered = s.entered) : IsTurn s s' (t.cut rules) strings := by
  obtain ⟨parts, mark, hcut, hparts, hmark⟩ := exists_mark_of_cut hrules t
  have hne := ne_of_mem_reference hparts hmark
  rw [hcut]
  refine ⟨?_, fun u hu hk => ?_⟩
  · rw [turn_of_stay _ _ hs', hs', readAll_of_ne fun u hu => (hne u hu).2, houter]
    exact .reference hparts hmark
  · rcases hk with hk | hk
    · exact absurd hk (hne u hu).1.1
    · exact absurd hk (hne u hu).1.2

end isTurn

/-- Every step of a table that was built is one of the turns. -/
theorem isTurn_of_reads (h : ofLexicon l = .ok table) {s s' : Scan} {ts : List Token}
    (hreads : table.Reads s ts s') {strings : List OpenString}
    (hentered : Entered s.entered strings.length) : IsTurn s s' ts strings := by
  rcases hreads.exists_rule with ⟨t, rfl, hk, hpos, hs'⟩ | ⟨r, t, hr, hk, hpos, rfl, hs'⟩
  · exact isTurn_of_unknown hentered hk hpos hs'
  · have hpush {target : LexState} (ht : r.action = .push target) :
        table.follow s.entered (.push target) = target :: s.entered := by
      rw [follow, if_pos (contains_of_push h hr ht)]
    generalize hstate : s.state = state at hr
    have hhead {state : LexState} (hs : s.state = state) (hroot : state ≠ .root) :
        ∃ outer, s.entered = state :: outer := hentered.eq_cons hs hroot
    cases hasRule_of_mem h hr with
    | code hcode hkind ha _ =>
        rw [← hstate] at hcode
        rw [ha] at hs' ⊢
        exact isTurn_of_token hpos hs' (turn_of_stay _ _ hs') (.code hcode (hk ▸ hkind))
    | enterString hcode _ =>
        rw [← hstate] at hcode
        have hs' := hs'.trans (hpush rfl)
        exact isTurn_of_token hpos hs' (turn_of_enterString _ _ hs') (.enterString hcode hk)
    | leaveTemplate _ =>
        obtain ⟨outer, houter⟩ := hhead hstate (by simp)
        have hs' : s'.entered = outer := hs'.trans (congrArg List.tail houter)
        refine isTurn_of_token hpos hs'
          (turn_of_leaveTemplate _ _ (houter.trans (congrArg _ hs'.symm))) ?_
        exact houter ▸ .leaveTemplate hk
    | content hkind ha _ =>
        obtain ⟨outer, houter⟩ := hhead hstate (by simp)
        have hkind : t.kind = .stringValue ∨ t.kind = .unknown := .inl (hk.trans hkind)
        rw [ha] at hs' ⊢
        refine isTurn_of_token hpos hs' (turn_of_stay _ _ hs') ?_
        rw [follow, readAll_content hkind, houter]
        exact .content hkind
    | enterTemplate _ =>
        obtain ⟨outer, houter⟩ := hhead hstate (by simp)
        have hs' := hs'.trans (hpush rfl)
        refine isTurn_of_token hpos hs' (turn_of_enterTemplate _ _ hs') ?_
        rw [houter]
        exact .enterTemplate hk
    | reference _ _ _ _ ha =>
        obtain ⟨outer, houter⟩ := hhead hstate (by simp)
        rw [ha] at hs' ⊢
        exact isTurn_of_reference (fun _ => kind_of_mem_referenceRules) houter hs'
    | leaveString _ =>
        obtain ⟨outer, houter⟩ := hhead hstate (by simp)
        have hs' : s'.entered = outer := hs'.trans (congrArg List.tail houter)
        cases strings with
        | nil =>
            rw [houter] at hentered
            cases hentered
        | cons inner rest =>
            refine isTurn_of_token hpos hs'
              (turn_of_leaveString _ (houter.trans (congrArg _ hs'.symm)) inner rest) ?_
            exact houter ▸ .leaveString hk

theorem length_readAll (ts : List Token) (strings : List OpenString) :
    (readAll ts strings).length = strings.length := by
  cases strings <;> rfl

theorem Turn.entered {entered entered' : List LexState} {strings strings' : List OpenString}
    {ts : List Token} {closed : List LexedString}
    (h : Turn entered strings ts entered' closed strings')
    (hentered : Entered entered strings.length) : Entered entered' strings'.length := by
  cases h with
  | code _ _ => rwa [length_readAll]
  | enterString hcode _ => exact .string hcode hentered
  | leaveTemplate _ =>
      cases hentered with
      | template h => exact h
  | content _ => exact hentered
  | enterTemplate _ => exact .template hentered
  | reference _ _ => exact hentered
  | leaveString _ =>
      rw [List.length_map]
      cases hentered with
      | string _ h => exact h

/-- What holds where a run ends, and before a step when it holds after it, holds of every run: of
its tokens and of the strings that it leaves. -/
theorem stringsFrom_induction (h : ofLexicon l = .ok table)
    {P : Scan → List OpenString → List Token → List LexedString → Prop}
    (stop : ∀ s strings, P s strings [] [])
    (step : ∀ s s' ts strings tokens closed, table.Reads s ts s' → IsTurn s s' ts strings →
      P s' (turn s s' ts strings).2 tokens closed →
      P s strings (ts ++ tokens) ((turn s s' ts strings).1 ++ closed))
    (fuel : Nat) {s : Scan} {strings : List OpenString}
    (hentered : Entered s.entered strings.length) :
    P s strings ((table.scanFrom fuel s).map (·.1)) (table.stringsFrom fuel s strings) := by
  induction fuel generalizing s strings with
  | zero => exact stop s strings
  | succ fuel ih =>
      rw [stringsFrom, scanFrom]
      cases hstep : table.step? s with
      | none => exact stop s strings
      | some next =>
          obtain ⟨ts, s'⟩ := next
          have hreads := reads_of_step? h hstep
          have hturn := isTurn_of_reads h hreads hentered
          have htokens : (ts.map (·, s'.state)).map (·.1) = ts := by
            rw [List.map_map]
            exact List.map_id ts
          dsimp only
          rw [List.map_append, htokens]
          exact step s s' ts strings _ _ hreads hturn (ih (hturn.turn.entered hentered))

/-! ### The ends of strings -/

/-- The ends of strings among the tokens of a step are those that close a string. -/
theorem Turn.closings_eq {entered entered' : List LexState} {strings strings' : List OpenString}
    {ts : List Token} {closed : List LexedString}
    (h : Turn entered strings ts entered' closed strings') :
    closed.map LexedString.closing = ts.filter (·.kind = .stringEnd) := by
  cases h with
  | @code _ _ t _ hk =>
      have : t.kind ≠ .stringEnd := fun ht => by simp [ht, TokenKind.isCode] at hk
      simp [this]
  | enterString _ hk => simp [hk]
  | leaveTemplate hk => simp [hk]
  | content hk => rcases hk with hk | hk <;> simp [hk]
  | enterTemplate hk => simp [hk]
  | reference hparts hmark =>
      rw [List.filter_eq_nil_iff.mpr fun t ht => ?_]
      · rfl
      · rw [decide_eq_true_eq]
        exact (ne_of_mem_reference hparts hmark t ht).1.2
  | leaveString hk => simp [hk, OpenString.close]

/-- Strings are opened by string starts. -/
theorem Turn.openings {entered entered' : List LexState} {strings strings' : List OpenString}
    {ts : List Token} {closed : List LexedString}
    (h : Turn entered strings ts entered' closed strings')
    (hstrings : ∀ s ∈ strings, s.opening.kind = .stringStart) :
    (∀ s ∈ closed, s.opening.kind = .stringStart) ∧
      ∀ s ∈ strings', s.opening.kind = .stringStart := by
  cases h with
  | @code _ strings t _ _ =>
      refine ⟨List.forall_mem_nil _, ?_⟩
      cases strings with
      | nil => exact hstrings
      | cons s outer =>
          rw [List.forall_mem_cons] at hstrings
          refine List.forall_mem_cons.mpr ⟨?_, hstrings.2⟩
          show (s.read t).opening.kind = _
          rw [OpenString.opening_read]
          exact hstrings.1
  | enterString _ hk => exact ⟨List.forall_mem_nil _, List.forall_mem_cons.mpr ⟨hk, hstrings⟩⟩
  | leaveTemplate _ => exact ⟨List.forall_mem_nil _, hstrings⟩
  | content _ => exact ⟨List.forall_mem_nil _, hstrings⟩
  | enterTemplate _ => exact ⟨List.forall_mem_nil _, hstrings⟩
  | reference _ _ => exact ⟨List.forall_mem_nil _, hstrings⟩
  | leaveString _ =>
      rw [List.forall_mem_cons] at hstrings
      exact ⟨List.forall_mem_singleton.mpr hstrings.1, List.forall_mem_map.mpr hstrings.2⟩

/-- Every end of a string that the lexer makes leaves the state that the start of a string
entered. -/
theorem closings_strings (h : ofLexicon l = .ok table) (source : String) :
    (table.strings source).map LexedString.closing =
        (table.tokenize source).filter (·.kind = .stringEnd) ∧
      ∀ s ∈ table.strings source, s.opening.kind = .stringStart := by
  refine stringsFrom_induction h (P := fun _ strings tokens closed =>
    (∀ s ∈ strings, s.opening.kind = .stringStart) →
      closed.map LexedString.closing = tokens.filter (·.kind = .stringEnd) ∧
        ∀ s ∈ closed, s.opening.kind = .stringStart) ?_ ?_ _ .root (List.forall_mem_nil _)
  · exact fun _ _ _ => ⟨rfl, List.forall_mem_nil _⟩
  · intro s s' ts strings tokens closed _ hturn ih hstrings
    obtain ⟨hclosed, hopen⟩ := hturn.turn.openings hstrings
    obtain ⟨hclosings, hopenings⟩ := ih hopen
    rw [List.map_append, List.filter_append, hturn.turn.closings_eq, hclosings]
    exact ⟨rfl, List.forall_mem_append.mpr ⟨hclosed, hopenings⟩⟩

end RuleTable

end Nesting
