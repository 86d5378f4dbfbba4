import Nesting.Query.Step

/-! # Queries

A `Query` is a list of steps to be matched in a row.  It is a plain description: patterns are
texts, and nothing is checked before it is compiled (`Query.build`).

`Query.compile` makes a query for whole trees: unless the query is a single step for the root
tree, it is searched for in the root tree. -/

namespace Nesting

mutual

/-- A step of a query; `κ` is the type of the context that the handlers fold. -/
inductive Step (κ : Type)
  /-- A token of a kind. -/
  | token (kind : TokenKind) (pattern : Pattern) (handler : Option (TokenHandler κ))
  /-- Between `least` and `most` repetitions of the steps. -/
  | many (body : List (Step κ)) (least : Nat) (most : Option Nat)
  /-- One of several queries. -/
  | alt (branches : List (List (Step κ)))
  /-- A tree, perhaps with a query that its descendants are searched for. -/
  | tree (test : TreeTest) (limits : SearchLimits) (query : Option (List (Step κ)))
      (handlers : TreeHandlers κ)
  /-- A string without templates. -/
  | string (pattern : Pattern) (handler : Option (TokenHandler κ))
  /-- A string whose pieces match one to one. -/
  | parts (parts : List (Part κ)) (handlers : TreeHandlers κ)
  /-- The start of a level. -/
  | levelStart
  /-- The end of a level. -/
  | levelEnd
  /-- Folds the last consumed node. -/
  | act (handler : NodeHandler κ)

/-- A piece of a string. -/
inductive Part (κ : Type)
  | content (pattern : Pattern) (handler : Option (TokenHandler κ))
  | template (query : List (Step κ))

end

instance {κ : Type} : Inhabited (Step κ) := ⟨.levelStart⟩

instance {κ : Type} : Inhabited (Part κ) := ⟨.template []⟩

/-- Steps to be matched in a row. -/
abbrev Query (κ : Type) := List (Step κ)

/-! ### Compiling -/

namespace Matcher

variable {κ : Type}

/-- Compiled steps in a row; a single one stands for itself. -/
def ofSteps : List (Matcher κ) → Matcher κ
  | [m] => m
  | ms => sequence ms

end Matcher

namespace Step

variable {κ : Type}

mutual

/-- Compiles a step. -/
def compile : Step κ → Except QueryError (Matcher κ)
  | .token kind pattern handler => return .token kind (← pattern.compile) handler
  | .many body least most =>
    if most.any (· < least) then throw (.invalidRepetition least (most.getD 0))
    else return (Matcher.ofSteps (← compileSteps body)).repetition least most
  | .alt branches =>
    if branches.isEmpty then throw .emptyAlternation
    else return .alternatives (← compileBranches branches)
  | .tree test limits none handlers => return .tree test limits none handlers
  | .tree test limits (some query) handlers =>
    return .tree test limits (some (Matcher.ofSteps (← compileSteps query))) handlers
  | .string pattern handler => return .string (← pattern.compile) handler
  | .parts ps handlers => return .pieces (← compileParts ps) handlers
  | .levelStart => return .levelStart
  | .levelEnd => return .levelEnd
  | .act handler => return .act handler

def compileSteps : List (Step κ) → Except QueryError (List (Matcher κ))
  | [] => return []
  | s :: ss => return (← compile s) :: (← compileSteps ss)

def compileBranches : List (List (Step κ)) → Except QueryError (List (Matcher κ))
  | [] => return []
  | q :: qs => return Matcher.ofSteps (← compileSteps q) :: (← compileBranches qs)

def compileParts : List (Part κ) → Except QueryError (List (Matcher.Piece κ))
  | [] => return []
  | p :: ps => return (← compilePart p) :: (← compileParts ps)

def compilePart : Part κ → Except QueryError (Matcher.Piece κ)
  | .content pattern handler => return .text (← pattern.compile) handler
  | .template query => return .template (Matcher.ofSteps (← compileSteps query))

end

end Step

namespace Query

variable {κ : Type}

/-- Compiles a query for a position in a tree. -/
def build (q : Query κ) : Except QueryError (Matcher κ) :=
  Matcher.ofSteps <$> Step.compileSteps q

/-- A query that is a single step for the root tree. -/
def isRootQuery : Query κ → Bool
  | [.tree test _ _ _] => test.kind == some .root
  | _ => false

def inRoot (q : Query κ) : Query κ :=
  [.tree { kind := some .root } { depth := 0, count := 0 } (some q) {}]

/-- Compiles a query for whole trees. -/
def compile (q : Query κ) : Except QueryError (Matcher κ) :=
  if q.isRootQuery then q.build else q.inRoot.build

end Query

namespace Matcher

variable {κ : Type}

/-- The context of the first match on a tree, and the reports made on the way. -/
def run (m : Matcher κ) (root : Cursor) (context : κ) : Option κ × List Event :=
  let found := m (.start root context)
  (found.first?.map (·.context), found.firstLog)

end Matcher

end Nesting
