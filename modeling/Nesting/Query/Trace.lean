import Nesting.Query.Basic
import Nesting.Text.Palette
import Nesting.Text.Quoted

/-! # Traces

A trace shows the reports of a query line by line, those of a search two blanks further in than
the search.  How much it shows depends on the `Verbosity`. -/

namespace Nesting

/-- How much a trace shows. -/
inductive Verbosity
  /-- Matches, backtracking and searches; kinds only. -/
  | brief
  /-- Also failures, and the texts of nodes. -/
  | verbose
  /-- Also every node that a search visits and every attempt, with positions. -/
  | full
  deriving DecidableEq, Repr, Inhabited

/-- What a trace shows, and in which colours. -/
structure TraceStyle where
  verbosity : Verbosity
  palette : Palette

namespace TraceStyle

def describe (s : TraceStyle) (withText : Bool) (n : Node) : String :=
  let kind := s.palette.kind n.kindName
  let quoted (text : String) := s.palette.text (Quoting.full.quote text)
  if !withText then kind
  else
    match n with
    | .token t =>
      if t.kind.isMarker then kind
      else
        kind ++ " " ++ quoted t.value ++
          if s.verbosity = .full then
            " " ++ s.palette.detail (toString t.pos.line ++ ":" ++ toString t.pos.col)
          else ""
    | .tree _ (some opening) _ _ => kind ++ " " ++ quoted opening.value
    | .tree _ none _ _ => kind

/-- The line of a report, if it is shown. -/
def line? (s : TraceStyle) : Event → Option String
  | .enter step node =>
    if s.verbosity = .full then some ("→ " ++ step ++ " " ++ s.describe true node) else none
  | .success step node =>
    some ("● " ++ step ++ " " ++ s.describe (s.verbosity ≠ .brief) node)
  | .failure step node =>
    if s.verbosity = .brief then none
    else
      let found := match node with
        | some n => s.describe true n
        | none => s.palette.detail "end of level"
      some ("○ " ++ step ++ " " ++ found)
  | .backtrack step => some ("↺ step " ++ toString step)
  | .searchEnter kind => some ("▶ search " ++ s.palette.kind kind.name)
  | .searchVisit depth node =>
    if s.verbosity = .full then some ("· " ++ toString depth ++ " " ++ s.describe true node)
    else none
  | .searchMatch count => some ("✓ match #" ++ toString count)
  | .searchExit count => some ("◀ " ++ toString count ++ " matches")

/-- The number of open searches at a report, and after it, when `depth` are open before. -/
def depths (depth : Nat) : Event → Nat × Nat
  | .searchEnter _ => (depth, depth + 1)
  | .searchExit _ => (depth - 1, depth - 1)
  | _ => (depth, depth)

def lines (s : TraceStyle) (depth : Nat) : List Event → List String
  | [] => []
  | e :: es =>
    let (here, after) := depths depth e
    let rest := lines s after es
    match s.line? e with
    | some line => (String.ofList (List.replicate (2 * here) ' ') ++ line) :: rest
    | none => rest

end TraceStyle

/-- The context of the first match on a tree, and the trace of the way to it. -/
def Matcher.runTraced {κ : Type} (m : Matcher κ) (s : TraceStyle) (root : Cursor) (context : κ) :
    Option κ × List String :=
  let (found, log) := m.run root context
  (found, s.lines 0 log)

end Nesting
