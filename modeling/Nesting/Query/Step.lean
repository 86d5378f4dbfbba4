import Nesting.Query.Matches
import Nesting.Query.Pattern

/-! # Steps

A `Matcher` gives the matches of a compiled step at a checkpoint.  This module holds the steps
that look at one node, `token`, `string` and `tree`, those that look at the ends of a level, and
the ways to combine steps: `sequence`, `alternatives` and `repetition`.

Steps that look at a node pass over blanks, comments and the start marker first; a step that asks
for a comment stops at comments.

A query replaces nothing, and asks of a position only whether it is the one that it came from.  So
all its moves carry the stamp zero. -/

namespace Nesting

/-- The matches of a step at a checkpoint. -/
abbrev Matcher (κ : Type) := Checkpoint κ → Matches κ

abbrev TokenHandler (κ : Type) := κ → Token → κ

abbrev TreeHandler (κ : Type) := κ → Tree → κ

/-- Folds the last consumed node, if any, into a context. -/
abbrev NodeHandler (κ : Type) := κ → Option Node → κ

/-! ### What steps ask for -/

/-- How far a search goes; zero stands for no limit. -/
structure SearchLimits where
  /-- The levels below the tree that are entered. -/
  depth : Nat
  /-- The matches after which the search stops. -/
  count : Nat
  deriving Repr

/-- What a step asks of a tree. -/
structure TreeTest where
  kind : Option TreeKind := none
  /-- The text of the opening token. -/
  opening : Option String := none
  /-- The text of the closing token. -/
  closing : Option String := none
  deriving Repr

def delimiterMatches (wanted : Option String) (t : Option Token) : Bool :=
  wanted.all fun text => t.any (·.value == text)

def TreeTest.accepts (test : TreeTest) (t : Tree) : Bool :=
  test.kind.all (· == t.kind) && delimiterMatches test.opening t.opening &&
    delimiterMatches test.closing t.closing

/-- The handlers before and after what is inside a tree. -/
structure TreeHandlers (κ : Type) where
  before : Option (TreeHandler κ) := none
  after : Option (TreeHandler κ) := none

def handle {κ β : Type} (handler : Option (κ → β → κ)) (context : κ) (b : β) : κ :=
  match handler with
  | some h => h context b
  | none => context

namespace Matcher

variable {κ : Type}

/-! ### Tokens -/

def tokenStepName : TokenKind → String
  | .symbol => "sym"
  | .operator => "op"
  | .number => "num"
  | kind => kind.name

/-- A token of a kind whose text passes a test. -/
def token (kind : TokenKind) (test : ValueTest) (handler : Option (TokenHandler κ)) : Matcher κ :=
  fun input =>
    let name := tokenStepName kind
    match if kind = .comment then input.seekComment else input.seek with
    | none => .none [.failure name none]
    | some at_ =>
      let node := at_.cursor.node
      let miss : Matches κ := .none [.enter name node, .failure name (some node)]
      match node with
      | .token t =>
        if t.kind = kind && test.accepts t.value then
          .last [.enter name node, .success name node] (at_.consume (handle handler at_.context t))
        else miss
      | .tree .. => miss

/-! ### The ends of a level -/

/-- The start marker of a level; nothing is passed over. -/
def levelStart : Matcher κ := fun input =>
  let node := input.cursor.node
  if input.endOfLevel then .none [.failure "begin" none]
  else if node.tokenKind? = some .levelStart then
    .last [.success "begin" node] (input.consume input.context)
  else .none [.failure "begin" (some node)]

/-- The end marker of a level, which is not consumed. -/
def levelEnd : Matcher κ := fun input =>
  if input.endOfLevel then .last [] input
  else
    match input.seek with
    | none => .none [.failure "end" none]
    | some at_ =>
      let node := at_.cursor.node
      if node.tokenKind? = some .levelEnd then .last [.success "end" node] at_
      else .none [.failure "end" (some node)]

/-- Folds the last consumed node into the context; nothing is consumed. -/
def act (handler : NodeHandler κ) : Matcher κ := fun input =>
  .last [] { input with context := handler input.context input.last }

/-! ### Sequence -/

/-- A step of a sequence that has been passed: what comes of asking it for another match, unless
it is known to have none, and the steps after it. -/
structure Passed (κ : Type) where
  rest : Option (Unit → Matches κ)
  todo : List (Matcher κ)

/-- The matches that a passed step can still give. -/
def Passed.remaining (p : Passed κ) : List (Checkpoint κ) :=
  p.rest.elim [] fun rest => (rest ()).all

/-- A bound on the moves that a sequence makes from a checkpoint on. -/
def effort : List (Matcher κ) → Checkpoint κ → Nat
  | [], _ => 1
  | m :: todo, c => 2 + (m c).all.foldr (fun d n => 2 + effort todo d + n) 0

/-- A bound on the moves that a sequence makes from given matches of a step on. -/
def effortOf (todo : List (Matcher κ)) (ds : List (Checkpoint κ)) : Nat :=
  ds.foldr (fun d n => 2 + effort todo d + n) 0

/-- A bound on the moves that a sequence makes after it has gone back. -/
def effortOfStack (stack : List (Passed κ)) : Nat :=
  stack.foldr (fun p n => 2 + effortOf p.todo p.remaining + n) 0

mutual

/-- Runs the steps that are left.  The steps passed so far are on a stack, the latest on top. -/
def advance : List (Matcher κ) → List (Passed κ) → Checkpoint κ → Matches κ
  | [], stack, c => .more [] c fun _ => backtrack stack
  | m :: todo, stack, c => settle todo stack (m c)
termination_by todo stack c => effort todo c + effortOfStack stack
decreasing_by
  · simp [effort]
  · simp [effort, effortOf]; omega

/-- Goes on from the next match of a step, or back if it has none. -/
def settle (todo : List (Matcher κ)) (stack : List (Passed κ)) : Matches κ → Matches κ
  | .none log => (backtrack stack).report log
  | .last log d => (advance todo ({ rest := none, todo } :: stack) d).report log
  | .more log d rest => (advance todo ({ rest := some rest, todo } :: stack) d).report log
termination_by found => effortOf todo found.all + effortOfStack stack + 1
decreasing_by
  · simp [effortOf, Matches.all]
  · simp [effortOf, effortOfStack, Passed.remaining, Matches.all]; omega
  · simp [effortOf, effortOfStack, Passed.remaining, Matches.all]; omega

/-- Asks the latest step that may have another match for one, and drops those after it. -/
def backtrack : List (Passed κ) → Matches κ
  | [] => .none []
  | { rest := none, .. } :: stack => backtrack stack
  | { rest := some rest, todo } :: stack =>
    (settle todo stack (rest ())).report [.backtrack stack.length]
termination_by stack => effortOfStack stack
decreasing_by
  · simp only [effortOfStack, List.foldr_cons]; omega
  · simp [effortOfStack, Passed.remaining]; omega

end

/-- Steps in a row.  When a step has no match, the one before it is asked for another. -/
def sequence (ms : List (Matcher κ)) : Matcher κ := advance ms []

/-! ### Alternatives -/

/-- The first match of every branch that has one, in order. -/
def alternatives : List (Matcher κ) → Matcher κ
  | [], _ => .none []
  | m :: ms, c =>
    let found := m c
    match found.first? with
    | some d => .more found.firstLog d fun _ => alternatives ms c
    | none => (alternatives ms c).report found.firstLog

/-! ### Repetition -/

/-- What one more repetition reaches from some checkpoints: for each of them the matches that
consume something.  Those of later checkpoints come first. -/
def round (m : Matcher κ) (origins : List (Checkpoint κ)) : List Event × List (Checkpoint κ) :=
  let found := origins.map fun c =>
    let drained := (m c).drain
    (drained.1, drained.2.filter (·.consumedSince c))
  (found.flatMap (·.1), found.reverse.flatMap (·.2))

/-- The rounds after the given one, as long as they reach something.  Every round consumes, so the
number of siblings bounds the fuel. -/
def rounds (m : Matcher κ) : Nat → Option Nat → List (Checkpoint κ) →
    List Event × List (List (Checkpoint κ))
  | 0, _, _ => ([], [])
  | _ + 1, some 0, _ => ([], [])
  | fuel + 1, most, origins =>
    let (log, reached) := round m origins
    if reached.isEmpty then (log, [])
    else
      let (later, more) := rounds m fuel (most.map (· - 1)) reached
      (log ++ later, reached :: more)

/-- Between `least` and `most` repetitions, most repetitions first.  All of them are found before
the first one is given. -/
def repetition (m : Matcher κ) (least : Nat) (most : Option Nat) : Matcher κ := fun c =>
  let (log, more) := rounds m (c.cursor.after.length + 2) most [c]
  .release log ((([c] :: more).drop least).reverse.flatten)

/-! ### Searches -/

/-- The next sibling of a node, or of the nearest parent that has one, below a depth. -/
def nextAfter (base : Nat) : Nat → Cursor → Option Cursor
  | 0, _ => none
  | fuel + 1, c =>
    if c.depth ≤ base then none
    else
      match c.right with
      | some d => some d
      | none => do nextAfter base fuel (← c.up)

/-- The position after a node and all its descendants. -/
def skipOver (base : Nat) (c : Cursor) : Option Cursor := nextAfter base c.depth c

/-- The next position in document order. -/
def nextInOrder (limits : SearchLimits) (base : Nat) (c : Cursor) : Option Cursor :=
  if limits.depth = 0 || c.depth - base < limits.depth then c.down.or (skipOver base c)
  else skipOver base c

/-- Where a search goes on after a match that started at `c`. -/
def resume (limits : SearchLimits) (base : Nat) (c : Cursor) (found : Checkpoint κ) :
    Option Cursor :=
  if found.endOfLevel then skipOver base found.cursor
  else if found.cursor.isSamePosition c then nextInOrder limits base c
  else some found.cursor

structure SearchResult (κ : Type) where
  log : List Event
  count : Nat
  context : κ

/-- Tries a matcher at a position and at those after it.  The number of nodes of the tree bounds
the fuel. -/
def walk (m : Matcher κ) (limits : SearchLimits) (base : Nat) :
    Nat → Option Cursor → Nat → κ → SearchResult κ
  | 0, _, count, context => ⟨[], count, context⟩
  | _ + 1, none, count, context => ⟨[], count, context⟩
  | fuel + 1, some c, count, context =>
    let found := m (.start c context)
    let log := .searchVisit (c.depth - base) c.node :: found.firstLog
    match found.first? with
    | none =>
      let r := walk m limits base fuel (nextInOrder limits base c) count context
      { r with log := log ++ r.log }
    | some d =>
      let count := count + 1
      let log := log ++ [.searchMatch count]
      if limits.count ≠ 0 && limits.count ≤ count then ⟨log, count, d.context⟩
      else
        let r := walk m limits base fuel (resume limits base c d) count d.context
        { r with log := log ++ r.log }

/-- Tries a matcher at all descendants of a tree, in document order; what a match consumes is not
tried again. -/
def search (m : Matcher κ) (limits : SearchLimits) (root : Cursor) (kind : TreeKind)
    (context : κ) : List Event × Option κ :=
  let r := walk m limits root.depth root.node.size (nextInOrder limits root.depth root) 0 context
  (.searchEnter kind :: r.log ++ [.searchExit r.count],
   if r.count = 0 then none else some r.context)

/-! ### Trees -/

/-- A tree that passes a test and whose inside matches.  The inside is given the tree, its cursor
and the context, and answers with reports and, if it matches, the new context. -/
def treeWith (name : String) (accepts : Tree → Bool) (handlers : TreeHandlers κ)
    (inside : Tree → Cursor → κ → List Event × Option κ) : Matcher κ := fun input =>
  match input.seek with
  | none => .none [.failure name none]
  | some at_ =>
    let node := at_.cursor.node
    let miss (log : List Event) : Matches κ :=
      .none (.enter name node :: log ++ [.failure name (some node)])
    match node.tree? with
    | none => miss []
    | some t =>
      if accepts t then
        let (log, found) := inside t at_.cursor (handle handlers.before at_.context t)
        match found with
        | none => miss log
        | some context =>
          .last (.enter name node :: log ++ [.success name node])
            (at_.consume (handle handlers.after context t))
      else miss []

/-- A tree that passes a test, and in which a search, if there is one, finds something. -/
def tree (test : TreeTest) (limits : SearchLimits) (query : Option (Matcher κ))
    (handlers : TreeHandlers κ) : Matcher κ :=
  treeWith "tree" test.accepts handlers fun t cursor context =>
    match query with
    | none => ([], some context)
    | some m => search m limits cursor t.kind context

/-! ### Strings -/

/-- The whole text of a string without templates, as a token.  An empty string has none; a token
without text at its start stands for it. -/
def content? (t : Tree) : Option Token :=
  match t.inner with
  | [] =>
    match t.children with
    | .token start :: _ => some (start.markerBefore .stringValue)
    | _ => none
  | [.token value] => if value.kind = .stringValue then some value else none
  | _ => none

def foldToken (test : ValueTest) (handler : Option (TokenHandler κ)) (t : Token) (context : κ) :
    Option κ :=
  if test.accepts t.value then some (handle handler context t) else none

/-- A string without templates whose text passes a test. -/
def string (test : ValueTest) (handler : Option (TokenHandler κ)) : Matcher κ :=
  treeWith "str" (·.kind == .string) {} fun t _ context =>
    ([], (content? t).bind fun value => foldToken test handler value context)

/-- A step for a piece of a string. -/
inductive Piece (κ : Type)
  | text (test : ValueTest) (handler : Option (TokenHandler κ))
  /-- Matches the children of a template, from the first one on. -/
  | template (m : Matcher κ)

/-- Matches a piece with a child of a string. -/
def Piece.run (p : Piece κ) (c : Cursor) (context : κ) : List Event × Option κ :=
  match p, c.node with
  | .text test handler, .token t =>
    ([], if t.kind = .stringValue then foldToken test handler t context else none)
  | .template m, .tree .template _ _ _ =>
    match c.down with
    | none => ([], none)
    | some d =>
      let found := m (.start d context)
      (found.firstLog, found.first?.map (·.context))
  | _, _ => ([], none)

/-- Matches pieces with the children of a string one to one, markers aside. -/
def runPieces : List (Piece κ) → List Cursor → κ → List Event × Option κ
  | [], [], context => ([], some context)
  | _ :: _, [], _ => ([], none)
  | ps, c :: cs, context =>
    if c.node.isMarker then runPieces ps cs context
    else
      match ps with
      | [] => ([], none)
      | p :: ps =>
        match p.run c context with
        | (log, none) => (log, none)
        | (log, some context) =>
          let (later, found) := runPieces ps cs context
          (log ++ later, found)

/-- A string whose children match pieces one to one. -/
def pieces (ps : List (Piece κ)) (handlers : TreeHandlers κ) : Matcher κ :=
  treeWith "str" (·.kind == .string) handlers fun _ cursor context =>
    runPieces ps cursor.children context

end Matcher

end Nesting
