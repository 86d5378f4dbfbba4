import Nesting.Cursor

/-! # Checkpoints and matches

A `Checkpoint` is a position in a tree with the context that a query has folded so far.  A query
step that starts at a checkpoint has any number of matches, each of which ends at a checkpoint;
they come one at a time (`Matches`), because the search for the next one starts only when it is
asked for.  On the way, a step reports what it does (`Event`).

`Matches.all` is the list of the checkpoints, the whole meaning of a step apart from its reports;
`all_report` and `all_release` say how it is built up. -/

namespace Nesting

/-! ### Checkpoints -/

/-- A position in a tree, and the context so far. -/
structure Checkpoint (κ : Type) where
  cursor : Cursor
  context : κ
  /-- The node under the cursor was consumed, and it is the last of its level. -/
  endOfLevel : Bool
  /-- The last node that was consumed. -/
  last : Option Node

namespace Checkpoint

variable {κ : Type}

def start (cursor : Cursor) (context : κ) : Checkpoint κ :=
  { cursor, context, endOfLevel := false, last := none }

/-- Whether something was consumed on the way from another checkpoint. -/
def consumedSince (c before : Checkpoint κ) : Bool :=
  !c.cursor.isSamePosition before.cursor || (c.endOfLevel && !before.endOfLevel)

/-- Moves right over the nodes that a test skips, where the siblings after the node are given;
fails when none is left. -/
def skipNodes (skip : Node → Bool) : List Node → Cursor → Option Cursor
  | [], c => if skip c.node then none else some c
  | _ :: after, c => if skip c.node then do skipNodes skip after (← c.right) else some c

/-- Moves to the first node that a test does not skip. -/
def seekBy (skip : Node → Bool) (c : Checkpoint κ) : Option (Checkpoint κ) :=
  if c.endOfLevel then none
  else (skipNodes skip c.cursor.after c.cursor).map fun cursor => { c with cursor }

/-- Moves past blanks, comments and the start marker. -/
def seek (c : Checkpoint κ) : Option (Checkpoint κ) := c.seekBy Node.isMinor

/-- Moves past blanks and the start marker, but stops at comments. -/
def seekComment (c : Checkpoint κ) : Option (Checkpoint κ) :=
  c.seekBy fun n => n.isMinor && n.tokenKind? != some .comment

/-- The checkpoint after the node under the cursor. -/
def consume (c : Checkpoint κ) (context : κ) : Checkpoint κ :=
  match c.cursor.right with
  | some cursor => { cursor, context, endOfLevel := false, last := some c.cursor.node }
  | none => { cursor := c.cursor, context, endOfLevel := true, last := some c.cursor.node }

end Checkpoint

/-! ### Reports -/

/-- What a step does. -/
inductive Event
  /-- A step looks at a node. -/
  | enter (step : String) (node : Node)
  | success (step : String) (node : Node)
  /-- A step rejects a node, or finds none. -/
  | failure (step : String) (node : Option Node)
  /-- A sequence asks one of its steps for another match. -/
  | backtrack (step : Nat)
  | searchEnter (kind : TreeKind)
  | searchVisit (depth : Nat) (node : Node)
  | searchMatch (count : Nat)
  | searchExit (count : Nat)
  deriving Repr

/-! ### Matches -/

/-- The matches of a step, one after the other, with the reports made on the way to each. -/
inductive Matches (κ : Type)
  /-- No match. -/
  | none (log : List Event)
  /-- One match; that there is no other is known. -/
  | last (log : List Event) (c : Checkpoint κ)
  /-- A match, and what comes of asking for another one. -/
  | more (log : List Event) (c : Checkpoint κ) (rest : Unit → Matches κ)

namespace Matches

variable {κ : Type}

def report (log : List Event) : Matches κ → Matches κ
  | none l => .none (log ++ l)
  | last l c => .last (log ++ l) c
  | more l c rest => .more (log ++ l) c rest

def first? : Matches κ → Option (Checkpoint κ)
  | none _ => Option.none
  | last _ c => some c
  | more _ c _ => some c

def firstLog : Matches κ → List Event
  | none log => log
  | last log _ => log
  | more log _ _ => log

def all : Matches κ → List (Checkpoint κ)
  | none _ => []
  | last _ c => [c]
  | more _ c rest => c :: all (rest ())

def log : Matches κ → List Event
  | none l => l
  | last l _ => l
  | more l _ rest => l ++ log (rest ())

/-- All reports and all matches, where each match is asked for once. -/
def drain : Matches κ → List Event × List (Checkpoint κ)
  | none l => (l, [])
  | last l c => (l, [c])
  | more l c rest =>
    let (later, cs) := drain (rest ())
    (l ++ later, c :: cs)

/-- Given checkpoints, one after the other. -/
def release (log : List Event) : List (Checkpoint κ) → Matches κ
  | [] => .none log
  | c :: cs => .more log c fun _ => release [] cs

/-! ### The list of all matches -/

theorem drain_eq (m : Matches κ) : m.drain = (m.log, m.all) := by
  induction m with
  | none l => rfl
  | last l c => rfl
  | more l c rest ih => simp [drain, Matches.log, all, ih]

@[simp] theorem all_report (log : List Event) (m : Matches κ) : (m.report log).all = m.all := by
  cases m <;> rfl

theorem all_release (log : List Event) (cs : List (Checkpoint κ)) :
    (release log cs).all = cs := by
  induction cs generalizing log with
  | nil => rfl
  | cons c cs ih => simp [release, all, ih]

end Matches

end Nesting
