import Nesting.Proofs.Query.Nested
import Nesting.Proofs.Text.Words

/-! # Reading a trace

A line begins with its blanks and with the mark of its report, and no two kinds of reports share a
mark.  Behind the mark come the name of a step or a number.  So the text of a line says how deep
it is indented and what it reports, up to the nodes (`TraceStyle.text?_inj`): whatever is said
about the nesting of a trace can be seen on what is printed. -/

namespace Nesting

/-! ### Reports -/

/-- Reports that are the same but for the nodes that they show. -/
inductive Event.Alike : Event → Event → Prop
  | enter (step node node') : Alike (.enter step node) (.enter step node')
  | success (step node node') : Alike (.success step node) (.success step node')
  | failure (step node node') : Alike (.failure step node) (.failure step node')
  | backtrack (step) : Alike (.backtrack step) (.backtrack step)
  | searchEnter (kind) : Alike (.searchEnter kind) (.searchEnter kind)
  | searchVisit (depth node node') : Alike (.searchVisit depth node) (.searchVisit depth node')
  | searchMatch (count) : Alike (.searchMatch count) (.searchMatch count)
  | searchExit (count) : Alike (.searchExit count) (.searchExit count)

theorem StepName.blank_notMem {step : String} (h : StepName step) : ' ' ∉ step.toList := by
  cases h with
  | token kind => cases kind <;> decide
  | levelStart | levelEnd | tree | string => decide

/-! ### Texts -/

/-- What a line begins with. -/
def Event.mark : Event → Char
  | .enter .. => '→'
  | .success .. => '●'
  | .failure .. => '○'
  | .backtrack _ => '↺'
  | .searchEnter _ => '▶'
  | .searchVisit .. => '·'
  | .searchMatch _ => '✓'
  | .searchExit _ => '◀'

namespace TraceStyle

/-- What stands behind the mark of a line. -/
def said (s : TraceStyle) : Event → String
  | .enter step node => step ++ (" " ++ s.describe true node)
  | .success step node => step ++ (" " ++ s.describe (s.verbosity ≠ .brief) node)
  | .failure step node =>
    step ++ (" " ++ node.elim (s.palette.detail "end of level") (s.describe true))
  | .backtrack step => "step " ++ toString step
  | .searchEnter kind => "search " ++ s.palette.kind kind.name
  | .searchVisit depth node => toString depth ++ (" " ++ s.describe true node)
  | .searchMatch count => "match #" ++ toString count
  | .searchExit count => toString count ++ " matches"

theorem line?_of_shows {s : TraceStyle} {e : Event} (h : s.verbosity.shows e) :
    s.line? e = some (String.ofList [e.mark, ' '] ++ s.said e) := by
  cases s with | mk v palette =>
  cases e with
  | enter step node | searchVisit depth node =>
      cases v with
      | full => simp only [line?, said, String.append_assoc, if_true]; rfl
      | brief | verbose => cases h
  | failure step node =>
      cases v with
      | brief => cases h
      | verbose | full => cases node <;> simp only [line?, said, String.append_assoc] <;> rfl
  | success | backtrack | searchEnter | searchMatch | searchExit =>
      simp only [line?, said, String.append_assoc]; rfl

theorem firstWord_inj {word word' rest rest' : String} (hword : ' ' ∉ word.toList)
    (hword' : ' ' ∉ word'.toList) (h : word ++ (" " ++ rest) = word' ++ (" " ++ rest')) :
    word = word' :=
  (append_tail_inj hword hword' (.inr ⟨_, rfl⟩) (.inr ⟨_, rfl⟩) h).1

theorem kind_name_inj (p : Palette) {k k' : TreeKind} (h : p.kind k.name = p.kind k'.name) :
    k = k' := by
  refine TreeKind.name_inj ?_
  unfold Palette.kind Palette.paint at h
  split at h
  · exact h
  · rwa [String.append_left_inj, String.append_right_inj] at h

/-- Behind the same mark, the same text is said of reports that are alike. -/
theorem alike_of_said {s : TraceStyle} {e e' : Event} (he : e.IsNamed) (he' : e'.IsNamed)
    (hmark : e.mark = e'.mark) (h : s.said e = s.said e') : e.Alike e' := by
  -- the marks leave the reports of one kind
  cases e <;> cases e' <;> try (simp [Event.mark] at hmark; done)
  case enter.enter =>
    obtain rfl := firstWord_inj he.blank_notMem he'.blank_notMem h
    exact .enter ..
  case success.success =>
    obtain rfl := firstWord_inj he.blank_notMem he'.blank_notMem h
    exact .success ..
  case failure.failure =>
    obtain rfl := firstWord_inj he.blank_notMem he'.blank_notMem h
    exact .failure ..
  case backtrack.backtrack =>
    obtain rfl := toString_nat_inj ((String.append_right_inj _).mp h)
    exact .backtrack _
  case searchEnter.searchEnter =>
    obtain rfl := kind_name_inj _ ((String.append_right_inj _).mp h)
    exact .searchEnter _
  case searchVisit.searchVisit =>
    obtain rfl := toString_nat_inj
      (firstWord_inj (not_mem_toString_nat rfl _) (not_mem_toString_nat rfl _) h)
    exact .searchVisit ..
  case searchMatch.searchMatch =>
    obtain rfl := toString_nat_inj ((String.append_right_inj _).mp h)
    exact .searchMatch _
  case searchExit.searchExit =>
    obtain rfl := toString_nat_inj ((String.append_left_inj _).mp h)
    exact .searchExit _

/-- A line that reads as a shown one is equally indented, and their reports are alike. -/
theorem text?_inj (s : TraceStyle) {l l' : TraceLine} (hl : l.event.IsNamed)
    (hl' : l'.event.IsNamed) (hshown' : s.verbosity.shows l'.event) (h : s.text? l = s.text? l') :
    l.indent = l'.indent ∧ l.event.Alike l'.event := by
  have hshown : s.verbosity.shows l.event := by
    have hsome := congrArg Option.isSome h
    rwa [text?, text?, Option.isSome_map, Option.isSome_map, isSome_line?, isSome_line?,
      hshown'] at hsome
  rw [text?, text?, line?_of_shows hshown, line?_of_shows hshown'] at h
  have hlist := congrArg String.toList (Option.some.inj h)
  simp only [String.toList_append, String.toList_ofList] at hlist
  have hmark (e : Event) : ([e.mark, ' '] ++ (s.said e).toList).head? ≠ some ' ' := by
    cases e <;> simp [Event.mark]
  obtain ⟨hindent, htext⟩ := replicate_append_inj (hmark _) (hmark _) hlist
  obtain ⟨hmark, hrest⟩ := List.cons.inj htext
  exact ⟨by omega, alike_of_said hl hl' hmark (String.toList_inj.mp (List.cons.inj hrest).2)⟩

end TraceStyle

end Nesting
