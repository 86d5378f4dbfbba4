import Nesting.Proofs.Query.Contexts

/-! # The way to a match

A way through a query leads from one checkpoint to another, and the handlers on it make changes to
the context one after the other (`Step.Leads`).  Nothing that fails is on a way: a branch of an
alternation, a position of a search or a round of a repetition is on it only if it has a way of
its own.

To see the changes that a query makes, its handlers write them down (`Step.recorded`), so that the
context is the list of changes so far.  All matches of this query have a way (`Matcher.Records`).
Since contexts are only folded, the query itself makes the same changes to every context, and
`Query.folds_contexts` puts the two together. -/

namespace Nesting

variable {κ : Type}

/-- A checkpoint without its context. -/
def Checkpoint.bare (c : Checkpoint κ) : Checkpoint Unit := c.map fun _ => ()

/-- The change that a handler makes at a node, if there is a handler. -/
def changes {β : Type} (handler : Option (κ → β → κ)) (b : β) : List (κ → κ) :=
  (handler.map fun f context => f context b).toList

/-- Makes changes one after the other. -/
def change (context : κ) (fs : List (κ → κ)) : κ := fs.foldl (fun k f => f k) context

/-! ### Ways -/

mutual

/-- A way through a step, with the changes that are made on it. -/
inductive Step.Leads : Step κ → Checkpoint Unit → List (κ → κ) → Checkpoint Unit → Prop
  | token {kind pattern handler test c at_ t} : pattern.compile = .ok test →
      (if kind = .comment then c.seekComment else c.seek) = some at_ →
      at_.cursor.node.token? = some t → t.kind = kind → test.accepts t.value →
      Step.Leads (.token kind pattern handler) c (changes handler t) (at_.consume ())
  | many {body least most n c fs d} : Query.Repeats body n c fs d → least ≤ n →
      (∀ bound, most = some bound → n ≤ bound) → Step.Leads (.many body least most) c fs d
  | alt {branches q c fs d} : q ∈ branches → Query.Leads q c fs d →
      Step.Leads (.alt branches) c fs d
  | tree {test limits handlers c at_ t} : c.seek = some at_ → at_.cursor.node.tree? = some t →
      test.accepts t → Step.Leads (.tree test limits none handlers) c
        (changes handlers.before t ++ changes handlers.after t) (at_.consume ())
  /-- The query is found at some of the positions, in their order. -/
  | treeSearch {test limits q handlers c at_ t places fs} : c.seek = some at_ →
      at_.cursor.node.tree? = some t → test.accepts t → places ≠ [] →
      places.Sublist (Matcher.positions limits at_.cursor) → Query.Finds q places fs →
      Step.Leads (.tree test limits (some q) handlers) c
        (changes handlers.before t ++ fs ++ changes handlers.after t) (at_.consume ())
  | string {pattern handler test c at_ t value} : pattern.compile = .ok test →
      c.seek = some at_ → at_.cursor.node.tree? = some t → t.kind = .string →
      Matcher.content? t = some value → test.accepts value.value →
      Step.Leads (.string pattern handler) c (changes handler value) (at_.consume ())
  | parts {ps handlers c at_ t fs} : c.seek = some at_ → at_.cursor.node.tree? = some t →
      t.kind = .string → Part.LeadAll ps (at_.cursor.children.filter fun c => !c.node.isMarker) fs →
      Step.Leads (.parts ps handlers) c
        (changes handlers.before t ++ fs ++ changes handlers.after t) (at_.consume ())
  | levelStart {c} : c.endOfLevel = false → c.cursor.node.tokenKind? = some .levelStart →
      Step.Leads .levelStart c [] (c.consume ())
  | levelEnd {c at_} : c.endOfLevel = false → c.seek = some at_ →
      at_.cursor.node.tokenKind? = some .levelEnd → Step.Leads .levelEnd c [] at_
  | levelOver {c} : c.endOfLevel → Step.Leads .levelEnd c [] c
  | act {handler c} : Step.Leads (.act handler) c [fun k => handler k c.last] c

/-- A way through steps in a row. -/
inductive Query.Leads : List (Step κ) → Checkpoint Unit → List (κ → κ) → Checkpoint Unit → Prop
  | nil {c} : Query.Leads [] c [] c
  | cons {s q c d e fs gs} : Step.Leads s c fs d → Query.Leads q d gs e →
      Query.Leads (s :: q) c (fs ++ gs) e

/-- A way through as many repetitions of a query, each of which consumes something. -/
inductive Query.Repeats : List (Step κ) → ℕ → Checkpoint Unit → List (κ → κ) →
    Checkpoint Unit → Prop
  | zero {q c} : Query.Repeats q 0 c [] c
  | succ {q n c d e fs gs} : Query.Repeats q n c fs d → Query.Leads q d gs e →
      e.consumedSince d → Query.Repeats q (n + 1) c (fs ++ gs) e

/-- Ways that start at some positions, one after the other. -/
inductive Query.Finds : List (Step κ) → List Cursor → List (κ → κ) → Prop
  | nil {q} : Query.Finds q [] []
  | cons {q c places d fs gs} : Query.Leads q (.start c ()) fs d → Query.Finds q places gs →
      Query.Finds q (c :: places) (fs ++ gs)

/-- A piece of a string and a child that it matches. -/
inductive Part.Leads : Part κ → Cursor → List (κ → κ) → Prop
  | content {pattern handler test c t} : pattern.compile = .ok test →
      c.node.token? = some t → t.kind = .stringValue → test.accepts t.value →
      Part.Leads (.content pattern handler) c (changes handler t)
  | template {q c t d e fs} : c.node.tree? = some t → t.kind = .template → c.down = some d →
      Query.Leads q (.start d ()) fs e → Part.Leads (.template q) c fs

/-- Pieces of a string and the children that they match, one to one. -/
inductive Part.LeadAll : List (Part κ) → List Cursor → List (κ → κ) → Prop
  | nil : Part.LeadAll [] [] []
  | cons {p ps c cs fs gs} : Part.Leads p c fs → Part.LeadAll ps cs gs →
      Part.LeadAll (p :: ps) (c :: cs) (fs ++ gs)

end

/-! ### Handlers that write down what they do -/

/-- A handler that writes down the change it makes, behind the changes before. -/
def recording {β : Type} (handler : κ → β → κ) : List (κ → κ) → β → List (κ → κ) :=
  fun fs b => fs ++ [fun k => handler k b]

/-- Handlers that write down the changes they make. -/
def TreeHandlers.recorded (handlers : TreeHandlers κ) : TreeHandlers (List (κ → κ)) :=
  { before := handlers.before.map recording, after := handlers.after.map recording }

theorem change_append (context : κ) (fs gs : List (κ → κ)) :
    change context (fs ++ gs) = change (change context fs) gs := List.foldl_append

theorem handle_recording {β : Type} (handler : Option (κ → β → κ)) (fs : List (κ → κ)) (b : β) :
    handle (handler.map recording) fs b = fs ++ changes handler b := by
  cases handler with
  | none => exact (List.append_nil fs).symm
  | some f => rfl

theorem mirrored_recording {β : Type} (context : κ) (handler : Option (κ → β → κ)) :
    Mirrored (change context) (handler.map recording) handler := by
  cases handler with
  | none => exact .none
  | some f => exact .some fun fs b => change_append context fs _

theorem TreeHandlers.mirrors_recorded (context : κ) (handlers : TreeHandlers κ) :
    handlers.recorded.Mirrors (change context) handlers :=
  ⟨mirrored_recording context handlers.before, mirrored_recording context handlers.after⟩

namespace Step

mutual

/-- A step whose handlers write down the changes they make. -/
def recorded : Step κ → Step (List (κ → κ))
  | .token kind pattern handler => .token kind pattern (handler.map recording)
  | .many body least most => .many (recordedSteps body) least most
  | .alt branches => .alt (recordedBranches branches)
  | .tree test limits none handlers => .tree test limits none handlers.recorded
  | .tree test limits (some q) handlers =>
    .tree test limits (some (recordedSteps q)) handlers.recorded
  | .string pattern handler => .string pattern (handler.map recording)
  | .parts ps handlers => .parts (recordedParts ps) handlers.recorded
  | .levelStart => .levelStart
  | .levelEnd => .levelEnd
  | .act handler => .act (recording handler)

/-- Steps whose handlers write down the changes they make. -/
def recordedSteps : List (Step κ) → List (Step (List (κ → κ)))
  | [] => []
  | s :: q => recorded s :: recordedSteps q

/-- Branches whose handlers write down the changes they make. -/
def recordedBranches : List (List (Step κ)) → List (List (Step (List (κ → κ))))
  | [] => []
  | q :: qs => recordedSteps q :: recordedBranches qs

/-- Pieces of a string whose handlers write down the changes they make. -/
def recordedParts : List (Part κ) → List (Part (List (κ → κ)))
  | [] => []
  | p :: ps => recordedPart p :: recordedParts ps

/-- A piece of a string whose handlers write down the changes they make. -/
def recordedPart : Part κ → Part (List (κ → κ))
  | .content pattern handler => .content pattern (handler.map recording)
  | .template q => .template (recordedSteps q)

end

mutual

theorem mirrors_recorded (context : κ) : ∀ s : Step κ, s.recorded.Mirrors (change context) s
  | .token kind pattern handler => .token kind pattern (mirrored_recording context handler)
  | .many body least most => .many least most (mirrors_recordedSteps context body)
  | .alt branches => .alt (mirrors_recordedBranches context branches)
  | .tree test limits none handlers => .tree test limits (handlers.mirrors_recorded context)
  | .tree test limits (some q) handlers =>
    .treeSearch test limits (mirrors_recordedSteps context q) (handlers.mirrors_recorded context)
  | .string pattern handler => .string pattern (mirrored_recording context handler)
  | .parts ps handlers =>
    .parts (mirrors_recordedParts context ps) (handlers.mirrors_recorded context)
  | .levelStart => .levelStart
  | .levelEnd => .levelEnd
  | .act _ => .act fun fs _ => change_append context fs _

theorem mirrors_recordedSteps (context : κ) : ∀ q : List (Step κ),
    List.Forall₂ (Step.Mirrors (change context)) (recordedSteps q) q
  | [] => .nil
  | s :: q => .cons (mirrors_recorded context s) (mirrors_recordedSteps context q)

theorem mirrors_recordedBranches (context : κ) : ∀ qs : List (List (Step κ)),
    List.Forall₂ (List.Forall₂ (Step.Mirrors (change context))) (recordedBranches qs) qs
  | [] => .nil
  | q :: qs => .cons (mirrors_recordedSteps context q) (mirrors_recordedBranches context qs)

theorem mirrors_recordedParts (context : κ) : ∀ ps : List (Part κ),
    List.Forall₂ (Part.Mirrors (change context)) (recordedParts ps) ps
  | [] => .nil
  | p :: ps => .cons (mirrors_recordedPart context p) (mirrors_recordedParts context ps)

theorem mirrors_recordedPart (context : κ) :
    ∀ p : Part κ, (recordedPart p).Mirrors (change context) p
  | .content pattern handler => .content pattern (mirrored_recording context handler)
  | .template q => .template (mirrors_recordedSteps context q)

end

end Step

/-! ### Matches have a way -/

namespace Checkpoint

theorem bare_consume (c : Checkpoint κ) (context : κ) :
    (c.consume context).bare = c.bare.consume () :=
  (consume_map c context).symm

theorem context_consume (c : Checkpoint κ) (context : κ) :
    (c.consume context).context = context := by
  unfold consume
  cases c.cursor.right <;> rfl

theorem bare_of_seekBy {skip : Node → Bool} {c d : Checkpoint κ} (h : c.seekBy skip = some d) :
    c.bare.seekBy skip = some d.bare ∧ d.context = c.context := by
  refine ⟨by rw [bare, seekBy_map, h]; rfl, ?_⟩
  unfold seekBy at h
  split at h
  · cases h
  · obtain ⟨cursor, -, rfl⟩ := Option.map_eq_some_iff.mp h
    rfl

end Checkpoint

namespace Matcher

/-- The matches of a step have ways, and the changes on a way are written down. -/
def Records (m : Matcher (List (κ → κ)))
    (Way : Checkpoint Unit → List (κ → κ) → Checkpoint Unit → Prop) : Prop :=
  ∀ c, ∀ d ∈ (m c).all, ∃ fs, d.context = c.context ++ fs ∧ Way c.bare fs d.bare

theorem records_token {pattern : Pattern} {test : ValueTest} (htest : pattern.compile = .ok test)
    (kind : TokenKind) (handler : Option (TokenHandler κ)) :
    Records (token kind test (handler.map recording))
      (Step.Leads (.token kind pattern handler)) := by
  intro c d hd
  rw [all_token, Option.mem_toList] at hd
  obtain ⟨at_, hseek, hd⟩ := Option.bind_eq_some_iff.mp hd
  obtain ⟨t, htoken, hd⟩ := Option.bind_eq_some_iff.mp hd
  split at hd
  · next hpass =>
    cases hd
    simp only [Bool.and_eq_true, decide_eq_true_eq] at hpass
    obtain ⟨hbare, hcontext⟩ : (if kind = .comment then c.bare.seekComment else c.bare.seek) =
        some at_.bare ∧ at_.context = c.context := by
      split at hseek
      · next hkind => rw [if_pos hkind]; exact Checkpoint.bare_of_seekBy hseek
      · next hkind => rw [if_neg hkind]; exact Checkpoint.bare_of_seekBy hseek
    refine ⟨changes handler t, ?_, ?_⟩
    · rw [Checkpoint.context_consume, handle_recording, hcontext]
    · rw [Checkpoint.bare_consume]
      exact .token htest hbare htoken hpass.1 hpass.2
  · cases hd

theorem records_levelStart : Records levelStart (Step.Leads (.levelStart : Step κ)) := by
  intro c d hd
  rw [all_levelStart] at hd
  split at hd
  · next hstart =>
    obtain rfl := List.mem_singleton.mp hd
    refine ⟨[], ?_, ?_⟩
    · rw [Checkpoint.context_consume, List.append_nil]
    · rw [Checkpoint.bare_consume]
      exact .levelStart hstart.1 hstart.2
  · cases hd

theorem records_levelEnd : Records levelEnd (Step.Leads (.levelEnd : Step κ)) := by
  intro c d hd
  rw [all_levelEnd] at hd
  split at hd
  · next hend =>
    obtain rfl := List.mem_singleton.mp hd
    exact ⟨[], (List.append_nil _).symm, .levelOver hend⟩
  · next hend =>
    rw [Option.mem_toList, Option.filter_eq_some_iff] at hd
    obtain ⟨hseek, hlast⟩ := hd
    obtain ⟨hbare, hcontext⟩ := Checkpoint.bare_of_seekBy hseek
    refine ⟨[], ?_, .levelEnd (Bool.eq_false_of_not_eq_true hend) hbare (of_decide_eq_true hlast)⟩
    rw [hcontext, List.append_nil]

theorem records_act (handler : NodeHandler κ) :
    Records (act (recording handler)) (Step.Leads (.act handler)) := by
  intro c d hd
  obtain rfl := List.mem_singleton.mp hd
  exact ⟨_, rfl, .act⟩

/-- The matches of a step for trees: the changes inside are between those of the handlers. -/
theorem records_treeWith {name : String} {accepts : Tree → Bool} (handlers : TreeHandlers κ)
    {inside : Tree → Cursor → List (κ → κ) → List Event × Option (List (κ → κ))}
    (Inside : Tree → Cursor → List (κ → κ) → Prop)
    {Way : Checkpoint Unit → List (κ → κ) → Checkpoint Unit → Prop}
    (hinside : ∀ t cursor k k', (inside t cursor k).2 = some k' →
      ∃ fs, k' = k ++ fs ∧ Inside t cursor fs)
    (hway : ∀ c at_ t fs, c.seek = some at_ → at_.cursor.node.tree? = some t → accepts t →
      Inside t at_.cursor fs →
      Way c (changes handlers.before t ++ fs ++ changes handlers.after t) (at_.consume ())) :
    Records (treeWith name accepts handlers.recorded inside) Way := by
  intro c d hd
  rw [all_treeWith, Option.mem_toList] at hd
  obtain ⟨at_, hseek, hd⟩ := Option.bind_eq_some_iff.mp hd
  obtain ⟨t, htree, hd⟩ := Option.bind_eq_some_iff.mp hd
  obtain ⟨hbare, hcontext⟩ := Checkpoint.bare_of_seekBy hseek
  split at hd
  · next haccepts =>
    obtain ⟨k, hk, rfl⟩ := Option.map_eq_some_iff.mp hd
    obtain ⟨fs, rfl, hfs⟩ := hinside t at_.cursor _ k hk
    refine ⟨changes handlers.before t ++ fs ++ changes handlers.after t, ?_, ?_⟩
    · rw [Checkpoint.context_consume, TreeHandlers.recorded, handle_recording, handle_recording,
        hcontext]
      simp only [List.append_assoc]
    · rw [Checkpoint.bare_consume]
      exact hway c.bare at_.bare t fs hbare htree haccepts hfs
  · cases hd

theorem records_tree (test : TreeTest) (limits : SearchLimits) (handlers : TreeHandlers κ) :
    Records (tree test limits none handlers.recorded)
      (Step.Leads (.tree test limits none handlers)) := by
  refine records_treeWith handlers (fun _ _ fs => fs = []) (fun t cursor k k' hk => ?_) ?_
  · cases hk
    exact ⟨[], (List.append_nil k).symm, rfl⟩
  · rintro c at_ t fs hseek htree haccepts rfl
    rw [List.append_nil]
    exact .tree hseek htree haccepts

theorem records_string {pattern : Pattern} {test : ValueTest} (htest : pattern.compile = .ok test)
    (handler : Option (TokenHandler κ)) :
    Records (string test (handler.map recording)) (Step.Leads (.string pattern handler)) := by
  refine records_treeWith {} (fun t _ fs => ∃ value, content? t = some value ∧
    test.accepts value.value ∧ fs = changes handler value) (fun t cursor k k' hk => ?_) ?_
  · obtain ⟨value, hvalue, hk⟩ := Option.bind_eq_some_iff.mp hk
    obtain ⟨haccepts, rfl⟩ := foldToken_eq_some_iff.mp hk
    exact ⟨changes handler value, handle_recording handler k value, value, hvalue, haccepts, rfl⟩
  · rintro c at_ t fs hseek htree hkind ⟨value, hvalue, haccepts, rfl⟩
    rw [show changes ({} : TreeHandlers κ).before t ++ changes handler value = changes handler value
      from rfl, show changes ({} : TreeHandlers κ).after t = [] from rfl, List.append_nil]
    exact .string htest hseek htree (eq_of_beq hkind) hvalue haccepts

/-! ### Combined steps -/

theorem records_through {q : List (Step κ)} {ms : List (Matcher (List (κ → κ)))}
    (h : List.Forall₂ (fun s m => Records m s.Leads) q ms) (c : Checkpoint (List (κ → κ))) :
    ∀ d ∈ through ms c, ∃ fs, d.context = c.context ++ fs ∧ Query.Leads q c.bare fs d.bare := by
  induction h generalizing c with
  | nil =>
      intro d hd
      obtain rfl := List.mem_singleton.mp hd
      exact ⟨[], (List.append_nil _).symm, .nil⟩
  | cons hm _ ih =>
      intro e he
      obtain ⟨d, hd, he⟩ := List.mem_flatMap.mp he
      obtain ⟨fs, hfs, hway⟩ := hm c d hd
      obtain ⟨gs, hgs, hways⟩ := ih d e he
      exact ⟨fs ++ gs, by rw [hgs, hfs, List.append_assoc], .cons hway hways⟩

theorem records_ofSteps {q : List (Step κ)} {ms : List (Matcher (List (κ → κ)))}
    (h : List.Forall₂ (fun s m => Records m s.Leads) q ms) :
    Records (ofSteps ms) (Query.Leads q) := by
  intro c d hd
  rw [all_ofSteps] at hd
  exact records_through h c d hd

theorem records_alternatives {branches : List (List (Step κ))}
    {ms : List (Matcher (List (κ → κ)))}
    (h : List.Forall₂ (fun q m => Records m (Query.Leads q)) branches ms) :
    Records (alternatives ms) (Step.Leads (.alt branches)) := by
  intro c d hd
  rw [all_alternatives] at hd
  obtain ⟨m, hm, hd⟩ := List.mem_filterMap.mp hd
  obtain ⟨q, hq, hrecords⟩ : ∃ q ∈ branches, Records m (Query.Leads q) := by
    obtain ⟨i, hi, rfl⟩ := List.mem_iff_getElem.mp hm
    have hbranch : i < branches.length := h.length_eq ▸ hi
    exact ⟨branches[i], List.getElem_mem hbranch, h.get hbranch hi⟩
  obtain ⟨fs, hfs, hway⟩ := hrecords c d (List.mem_of_mem_head? hd)
  exact ⟨fs, hfs, .alt hq hway⟩

section Repetitions

variable {m : Matcher (List (κ → κ))} {q : List (Step κ)}

/-- A checkpoint is reached by a number of repetitions. -/
def Reached (q : List (Step κ)) (c : Checkpoint (List (κ → κ))) (n : ℕ)
    (d : Checkpoint (List (κ → κ))) : Prop :=
  ∃ fs, d.context = c.context ++ fs ∧ Query.Repeats q n c.bare fs d.bare

theorem reached_round (h : Records m (Query.Leads q)) {c : Checkpoint (List (κ → κ))} {n : ℕ}
    {origins : List (Checkpoint (List (κ → κ)))} (horigins : ∀ o ∈ origins, Reached q c n o) :
    ∀ d ∈ (round m origins).2, Reached q c (n + 1) d := by
  intro d hd
  obtain ⟨o, ho, hd, hconsumed⟩ := mem_round_iff.mp hd
  obtain ⟨fs, hfs, hways⟩ := horigins o ho
  obtain ⟨gs, hgs, hway⟩ := h o d hd
  exact ⟨fs ++ gs, by rw [hgs, hfs, List.append_assoc], .succ hways hway hconsumed⟩

/-- What the rounds reach is reached by as many repetitions, and by no more than are allowed. -/
theorem reached_rounds (h : Records m (Query.Leads q)) {c : Checkpoint (List (κ → κ))} {n : ℕ}
    {most : Option ℕ} {origins : List (Checkpoint (List (κ → κ)))}
    {r : List Event × List (List (Checkpoint (List (κ → κ))))} (hr : Rounds m most origins r)
    (horigins : ∀ o ∈ origins, Reached q c n o) {i : ℕ}
    {ds : List (Checkpoint (List (κ → κ)))} (hi : r.2[i]? = some ds) :
    (∀ bound, most = some bound → i < bound) ∧ ∀ d ∈ ds, Reached q c (n + i + 1) d := by
  induction hr generalizing n i with
  | enough => cases hi
  | dry => cases hi
  | @next most origins r hmost _ _ ih =>
      have hround := reached_round h horigins
      have hpos : ∀ bound, most = some bound → 0 < bound := by
        rintro bound rfl
        exact Nat.pos_of_ne_zero fun hzero => hmost (congrArg some hzero)
      cases i with
      | zero =>
          cases hi
          exact ⟨hpos, hround⟩
      | succ i =>
          obtain ⟨hbound, hreached⟩ := ih hround hi
          refine ⟨fun bound heq => ?_, ?_⟩
          · have := hbound (bound - 1) (by rw [heq]; rfl)
            omega
          · rwa [show n + (i + 1) + 1 = n + 1 + i + 1 by omega]

theorem records_repetition (h : Records m (Query.Leads q)) (hm : m.Advances) (least : ℕ)
    (most : Option ℕ) : Records (repetition m least most) (Step.Leads (.many q least most)) := by
  intro c d hd
  have hstart : ∀ o ∈ [c], Reached q c 0 o := by
    intro o ho
    obtain rfl := List.mem_singleton.mp ho
    exact ⟨[], (List.append_nil _).symm, .zero⟩
  unfold repetition at hd
  rw [Matches.all_release] at hd
  obtain ⟨ds, hds, hd⟩ := List.mem_flatten.mp hd
  obtain ⟨i, hi⟩ := List.mem_iff_getElem?.mp (List.mem_reverse.mp hds)
  rw [List.getElem?_drop] at hi
  cases hn : least + i with
  | zero =>
      rw [hn] at hi
      cases hi
      obtain ⟨fs, hfs, hways⟩ := hstart d hd
      exact ⟨fs, hfs, .many hways (by omega) fun _ _ => Nat.zero_le _⟩
  | succ n =>
      rw [hn, List.getElem?_cons_succ] at hi
      obtain ⟨hbound, hreached⟩ := reached_rounds h (rounds_repetition hm most c) hstart hi
      obtain ⟨fs, hfs, hways⟩ := hreached d hd
      rw [Nat.zero_add] at hways
      exact ⟨fs, hfs, .many hways (by omega) hbound⟩

/-! ### Searches and strings -/

/-- The attempts that have a match have ways, one after the other. -/
theorem finds_attempts (h : Records m (Query.Leads q)) (base most : ℕ) (places : List Cursor)
    (count : ℕ) (context : List (κ → κ)) :
    ∃ found fs, found.Sublist places ∧ Query.Finds q found fs ∧
      found.length = (matched (attempts m base most places count context)).length ∧
      (collect (attempts m base most places count context) count context).context =
        context ++ fs := by
  have hit {c : Cursor} {context : List (κ → κ)} {d : Checkpoint (List (κ → κ))}
      (hfound : (m (.start c context)).first? = some d) :
      ∃ fs, d.context = context ++ fs ∧ Query.Leads q (.start c ()) fs d.bare :=
    h _ d (Matches.mem_all_of_first? hfound)
  induction places, count, context using attempts.induct m base most with
  | case1 count context =>
      rw [attempts]
      exact ⟨[], [], .refl [], .nil, rfl, (List.append_nil context).symm⟩
  | case2 c later count context a hfound ih =>
      obtain ⟨found, fs, hsublist, hfinds, hlength, hcontext⟩ := ih
      rw [attempts_of_miss hfound, matched_of_miss hfound, collect_of_miss hfound]
      exact ⟨found, fs, hsublist.cons c, hfinds, hlength, hcontext⟩
  | case3 c later count context a d hfound hstop =>
      obtain ⟨fs, hfs, hway⟩ := hit hfound
      rw [attempts_of_hit hfound, if_pos (by simpa using hstop), matched_of_hit hfound,
        collect_of_hit hfound]
      refine ⟨[c], fs ++ [], (List.nil_sublist later).cons_cons c, .cons hway .nil, rfl, ?_⟩
      rw [List.append_nil]
      exact hfs
  | case4 c later count context a d hfound hstop ih =>
      obtain ⟨fs, hfs, hway⟩ := hit hfound
      obtain ⟨found, gs, hsublist, hfinds, hlength, hcontext⟩ := ih
      rw [attempts_of_hit hfound, if_neg (by simpa using hstop), matched_of_hit hfound,
        collect_of_hit hfound]
      refine ⟨c :: found, fs ++ gs, ?_, .cons hway hfinds, congrArg Nat.succ hlength, ?_⟩
      · exact (hsublist.trans (remaining_suffix c d later).sublist).cons_cons c
      · rw [← List.append_assoc, ← hfs]
        exact hcontext

theorem records_treeSearch (h : Records m (Query.Leads q)) (hm : m.Advances) (test : TreeTest)
    (limits : SearchLimits) (handlers : TreeHandlers κ) :
    Records (tree test limits (some m) handlers.recorded)
      (Step.Leads (.tree test limits (some q) handlers)) := by
  refine records_treeWith handlers (fun _ cursor fs => ∃ places, places ≠ [] ∧
    places.Sublist (positions limits cursor) ∧ Query.Finds q places fs) ?_ ?_
  · intro t cursor k k' hk
    dsimp only at hk
    rw [search_eq hm] at hk
    obtain ⟨d, hlast, rfl⟩ := Option.map_eq_some_iff.mp hk
    obtain ⟨found, fs, hsublist, hfinds, hlength, hcontext⟩ :=
      finds_attempts h cursor.depth limits.count (positions limits cursor) 0 k
    rw [collect, hlast] at hcontext
    refine ⟨fs, hcontext, found, ?_, hsublist, hfinds⟩
    rintro rfl
    rw [List.eq_nil_of_length_eq_zero hlength.symm] at hlast
    cases hlast
  · rintro c at_ t fs hseek htree haccepts ⟨places, hne, hsublist, hfinds⟩
    exact .treeSearch hseek htree haccepts hne hsublist hfinds

end Repetitions

/-- The children that a piece matches have ways. -/
def RecordsPiece (p : Piece (List (κ → κ))) (source : Part κ) : Prop :=
  ∀ c k k', (p.run c k).2 = some k' → ∃ fs, k' = k ++ fs ∧ source.Leads c fs

theorem recordsPiece_text {pattern : Pattern} {test : ValueTest}
    (htest : pattern.compile = .ok test) (handler : Option (TokenHandler κ)) :
    RecordsPiece (.text test (handler.map recording)) (.content pattern handler) := by
  intro c k k' hk
  rw [run_text] at hk
  obtain ⟨t, htoken, hk⟩ := Option.bind_eq_some_iff.mp hk
  split at hk
  · next hkind =>
    obtain ⟨haccepts, rfl⟩ := foldToken_eq_some_iff.mp hk
    exact ⟨changes handler t, handle_recording handler k t, .content htest htoken hkind haccepts⟩
  · cases hk

theorem recordsPiece_template {m : Matcher (List (κ → κ))} {q : List (Step κ)}
    (h : Records m (Query.Leads q)) : RecordsPiece (.template m) (.template q) := by
  intro c k k' hk
  rw [run_template] at hk
  obtain ⟨t, htree, hk⟩ := Option.bind_eq_some_iff.mp hk
  split at hk
  · next hkind =>
    obtain ⟨d, hdown, hk⟩ := Option.bind_eq_some_iff.mp hk
    obtain ⟨e, hfirst, rfl⟩ := Option.map_eq_some_iff.mp hk
    obtain ⟨fs, hfs, hway⟩ := h _ e (Matches.mem_all_of_first? hfirst)
    exact ⟨fs, hfs, .template htree hkind hdown hway⟩
  · cases hk

theorem records_pieces {sources : List (Part κ)} {ps : List (Piece (List (κ → κ)))}
    (h : List.Forall₂ (fun source p => RecordsPiece p source) sources ps)
    (handlers : TreeHandlers κ) :
    Records (pieces ps handlers.recorded) (Step.Leads (.parts sources handlers)) := by
  have fold (cs : List Cursor) (k k' : List (κ → κ)) (hk : foldPieces ps cs k = some k') :
      ∃ fs, k' = k ++ fs ∧ Part.LeadAll sources cs fs := by
    induction h generalizing cs k with
    | nil =>
        cases cs with
        | nil =>
            cases hk
            exact ⟨[], (List.append_nil _).symm, .nil⟩
        | cons => cases hk
    | cons hp _ ih =>
        cases cs with
        | nil => cases hk
        | cons c cs =>
            obtain ⟨k₁, hrun, hk⟩ := Option.bind_eq_some_iff.mp hk
            obtain ⟨fs, rfl, hway⟩ := hp c k k₁ hrun
            obtain ⟨gs, rfl, hways⟩ := ih cs _ hk
            exact ⟨fs ++ gs, List.append_assoc _ fs gs, .cons hway hways⟩
  refine records_treeWith handlers (fun _ cursor fs =>
    Part.LeadAll sources (cursor.children.filter fun c => !c.node.isMarker) fs) ?_ ?_
  · intro t cursor k k' hk
    rw [runPieces_eq] at hk
    exact fold _ k k' hk
  · intro c at_ t fs hseek htree hkind hways
    exact .parts hseek htree (eq_of_beq hkind) hways

end Matcher

namespace Step

mutual

/-- The matches of a step that writes down its changes have ways. -/
theorem records_compile : ∀ {s : Step κ} {m : Matcher (List (κ → κ))},
    s.recorded.compile = .ok m → m.Records s.Leads
  | .token kind pattern handler, m, h => by
    obtain ⟨test, htest, h⟩ := bind_eq_ok_iff.mp h
    cases h
    exact Matcher.records_token htest kind handler
  | .many body least most, m, h => by
    rw [recorded, compile] at h
    split at h
    · cases h
    · obtain ⟨ms, hms, h⟩ := bind_eq_ok_iff.mp h
      cases h
      exact Matcher.records_repetition (Matcher.records_ofSteps (records_compileSteps hms))
        (Matcher.Built.ofSteps (built_of_compileSteps hms)).advances least most
  | .alt branches, m, h => by
    rw [recorded, compile] at h
    split at h
    · cases h
    · obtain ⟨ms, hms, h⟩ := bind_eq_ok_iff.mp h
      cases h
      exact Matcher.records_alternatives (records_compileBranches hms)
  | .tree test limits none handlers, m, h => by
    cases h
    exact Matcher.records_tree test limits handlers
  | .tree test limits (some query) handlers, m, h => by
    obtain ⟨ms, hms, h⟩ := bind_eq_ok_iff.mp h
    cases h
    exact Matcher.records_treeSearch (Matcher.records_ofSteps (records_compileSteps hms))
      (Matcher.Built.ofSteps (built_of_compileSteps hms)).advances test limits handlers
  | .string pattern handler, m, h => by
    obtain ⟨test, htest, h⟩ := bind_eq_ok_iff.mp h
    cases h
    exact Matcher.records_string htest handler
  | .parts sources handlers, m, h => by
    obtain ⟨ps, hps, h⟩ := bind_eq_ok_iff.mp h
    cases h
    exact Matcher.records_pieces (records_compileParts hps) handlers
  | .levelStart, m, h => by
    cases h
    exact Matcher.records_levelStart
  | .levelEnd, m, h => by
    cases h
    exact Matcher.records_levelEnd
  | .act handler, m, h => by
    cases h
    exact Matcher.records_act handler

theorem records_compileSteps : ∀ {q : List (Step κ)} {ms : List (Matcher (List (κ → κ)))},
    compileSteps (recordedSteps q) = .ok ms → List.Forall₂ (fun s m => m.Records s.Leads) q ms
  | [], ms, h => by
    cases h
    exact .nil
  | s :: q, ms, h => by
    obtain ⟨m, hm, h⟩ := bind_eq_ok_iff.mp h
    obtain ⟨ms, hms, h⟩ := bind_eq_ok_iff.mp h
    cases h
    exact .cons (records_compile hm) (records_compileSteps hms)

theorem records_compileBranches : ∀ {qs : List (List (Step κ))}
    {ms : List (Matcher (List (κ → κ)))}, compileBranches (recordedBranches qs) = .ok ms →
    List.Forall₂ (fun q m => m.Records (Query.Leads q)) qs ms
  | [], ms, h => by
    cases h
    exact .nil
  | q :: qs, ms, h => by
    obtain ⟨m, hm, h⟩ := bind_eq_ok_iff.mp h
    obtain ⟨ms, hms, h⟩ := bind_eq_ok_iff.mp h
    cases h
    exact .cons (Matcher.records_ofSteps (records_compileSteps hm)) (records_compileBranches hms)

theorem records_compileParts : ∀ {sources : List (Part κ)}
    {ps : List (Matcher.Piece (List (κ → κ)))}, compileParts (recordedParts sources) = .ok ps →
    List.Forall₂ (fun source p => Matcher.RecordsPiece p source) sources ps
  | [], ps, h => by
    cases h
    exact .nil
  | source :: sources, ps, h => by
    obtain ⟨p, hp, h⟩ := bind_eq_ok_iff.mp h
    obtain ⟨ps, hps, h⟩ := bind_eq_ok_iff.mp h
    cases h
    exact .cons (records_compilePart hp) (records_compileParts hps)

theorem records_compilePart : ∀ {source : Part κ} {p : Matcher.Piece (List (κ → κ))},
    compilePart (recordedPart source) = .ok p → Matcher.RecordsPiece p source
  | .content pattern handler, p, h => by
    obtain ⟨test, htest, h⟩ := bind_eq_ok_iff.mp h
    cases h
    exact Matcher.recordsPiece_text htest handler
  | .template query, p, h => by
    obtain ⟨ms, hms, h⟩ := bind_eq_ok_iff.mp h
    cases h
    exact Matcher.recordsPiece_template (Matcher.records_ofSteps (records_compileSteps hms))

end

end Step

namespace Query

/-- From a place a query has some ways, and its matches make the changes of these ways. -/
theorem exists_ways {q : Query κ} {m : Matcher κ} (hm : q.build = .ok m) (c : Checkpoint Unit) :
    ∃ ways : List (List (κ → κ) × Checkpoint Unit), (∀ w ∈ ways, Query.Leads q c w.1 w.2) ∧
      ∀ k, (m (c.map fun _ => k)).all = ways.map fun w => w.2.map fun _ => change k w.1 := by
  have agree (k : κ) : Agree (Matcher.Mirrors (change k)) (build (Step.recordedSteps q)) q.build :=
    agree_build (Step.mirrors_recordedSteps k q)
  cases isEmpty_or_nonempty κ with
  | inl hempty => exact ⟨[], nofun, fun k => hempty.elim k⟩
  | inr hnonempty =>
      obtain ⟨recorded, hrecorded⟩ : ∃ n, build (Step.recordedSteps q) = .ok n := by
        have hagree := agree hnonempty.some
        rw [hm] at hagree
        cases hn : build (Step.recordedSteps q) with
        | error e => rw [hn] at hagree; cases hagree
        | ok n => exact ⟨n, rfl⟩
      obtain ⟨ms, hms, hsteps⟩ := map_eq_ok_iff.mp hrecorded
      have hrecords : recorded.Records (Query.Leads q) :=
        hsteps ▸ Matcher.records_ofSteps (Step.records_compileSteps hms)
      refine ⟨(recorded (c.map fun _ => [])).all.map fun d => (d.context, d.bare), ?_, fun k => ?_⟩
      · intro w hw
        obtain ⟨d, hd, rfl⟩ := List.mem_map.mp hw
        obtain ⟨fs, hfs, hway⟩ := hrecords _ d hd
        rw [show d.context = fs from hfs]
        exact hway
      · have hagree := agree k
        rw [hrecorded, hm] at hagree
        have hall := Matcher.mirrors_iff.mp hagree.of_ok (c.map fun _ => [])
        rw [List.map_map]
        exact hall

/-- **Contexts are only folded.**  The same query with handlers that do to mapped contexts what its
own do to contexts fails to compile for the same reason, or has the same matches everywhere, with
mapped contexts, and the same result on every tree, with a mapped context.

So from every place there is a list of ways, whatever the context, and the matches make the
changes of these ways, in order; and on every tree there is one way or none, whose changes make
the result. -/
theorem folds_contexts {κ κ' : Type} {h : κ → κ'} {q : Query κ} {q' : Query κ'}
    (hq : List.Forall₂ (Step.Mirrors h) q q') :
    Agree (fun m n => ∀ c, (n (c.map h)).all = (m c).all.map (·.map h)) q.build q'.build ∧
    Agree (fun m n => ∀ root k, (n.run root (h k)).1 = (m.run root k).1.map h)
      q.compile q'.compile ∧
    (∀ m, q.build = .ok m → ∀ c : Checkpoint Unit, ∃ ways : List (List (κ → κ) × Checkpoint Unit),
      (∀ w ∈ ways, Query.Leads q c w.1 w.2) ∧
      ∀ k, (m (c.map fun _ => k)).all = ways.map fun w => w.2.map fun _ => change k w.1) ∧
    ∀ m, q.compile = .ok m → ∀ root, ∃ way : Option (List (κ → κ)),
      (∀ fs, way = some fs →
        ∃ d, Query.Leads (if q.isRootQuery then q else q.inRoot) (.start root ()) fs d) ∧
      ∀ k, (m.run root k).1 = way.map (change k) := by
  refine ⟨(agree_build hq).mono fun m n => Matcher.mirrors_iff.mp, ?_, fun m => exists_ways, ?_⟩
  · refine (agree_compile hq).mono fun m n hmn root k => ?_
    have hfirst : (n (.start root (h k))).first? = (m (.start root k)).first?.map (·.map h) :=
      Matcher.Mirrors.first? hmn (.start root k)
    unfold Matcher.run
    dsimp only
    rw [hfirst, Option.map_map, Option.map_map]
    rfl
  · intro m hm root
    have hwhole : Query.build (if q.isRootQuery then q else q.inRoot) = .ok m := by
      rw [← hm, compile]
      split <;> rfl
    obtain ⟨ways, hways, hall⟩ := exists_ways hwhole (.start root ())
    refine ⟨ways.head?.map (·.1), fun fs hfs => ?_, fun k => ?_⟩
    · obtain ⟨w, hw, rfl⟩ := Option.map_eq_some_iff.mp hfs
      exact ⟨w.2, hways w (List.mem_of_mem_head? hw)⟩
    · have hstart : (m (.start root k)).all = ways.map fun w => w.2.map fun _ => change k w.1 :=
        hall k
      unfold Matcher.run
      dsimp only
      rw [← Matches.head?_all, hstart, List.head?_map, Option.map_map, Option.map_map]
      rfl

/-- Symbols, each of which is first tried together with a number behind it; the texts are folded
with a function. -/
def triedSymbols (f : κ → String → κ) : Query κ :=
  [.alt [[.token .symbol .any (some fun k t => f k t.value), .token .number .any none],
    [.token .symbol .any (some fun k t => f k t.value)]]]

/-- The query that counts the symbols does what the one that lists them does. -/
theorem folds_contexts_triedSymbols :
    ∃ (m : Matcher (List String)) (n : Matcher ℕ),
      (triedSymbols fun k text => k ++ [text]).compile = .ok m ∧
      (triedSymbols fun k _ => k + 1).compile = .ok n ∧
      (m.run (.top nestedSymbols 0) []).1 = some ["a", "b", "c", "d"] ∧
      (n.run (.top nestedSymbols 0) 0).1 = some 4 := by
  have hq : List.Forall₂ (Step.Mirrors List.length) (triedSymbols fun k text => k ++ [text])
      (triedSymbols fun k _ => k + 1) := by
    have hsymbol : Step.Mirrors List.length
        (.token .symbol .any (some fun (k : List String) (t : Token) => k ++ [t.value]))
        (.token .symbol .any (some fun (k : ℕ) (_ : Token) => k + 1)) :=
      .token _ _ (.some fun k t => List.length_append)
    exact .cons (.alt (.cons (.cons hsymbol (.cons (.token _ _ .none) .nil))
      (.cons (.cons hsymbol .nil) .nil))) .nil
  obtain ⟨m, n, hm, hn, hresult⟩ : ∃ (m : Matcher (List String)) (n : Matcher ℕ),
      (triedSymbols fun k text => k ++ [text]).compile = .ok m ∧
      (triedSymbols fun k _ => k + 1).compile = .ok n ∧
      (m.run (.top nestedSymbols 0) []).1 = some ["a", "b", "c", "d"] :=
    ⟨_, _, rfl, rfl, by decide +kernel⟩
  have hagree := (folds_contexts hq).2.1
  rw [hm, hn] at hagree
  refine ⟨m, n, hm, hn, hresult, ?_⟩
  have hrun := hagree.of_ok (.top nestedSymbols 0) []
  rw [hresult] at hrun
  exact hrun

end Query

end Nesting
