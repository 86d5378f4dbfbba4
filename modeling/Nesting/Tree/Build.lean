import Nesting.Grammar
import Nesting.Text.Quoted
import Nesting.Tree.Basic

/-! # Building trees

A `Builder` folds tokens into a tree.  Brackets, strings and templates open a level that their
closing token closes; with indentation blocks, the blanks at the start of a line outside all
delimiters open and close block levels.  What is still open at the end is closed there, so only
indentation that does not line up is an error.

Every level begins with a start marker and ends with an end marker.  A marker takes the position
of the token that follows it, or the end of the token before it when nothing follows.

`Tree.ofTokens` is the tree of a list of tokens. -/

namespace Nesting

/-! ### Errors -/

/-- Why tokens have no tree. -/
inductive BuildError
  /-- The blanks at the start of a line neither go on from those of the open block nor stop
  inside them. -/
  | inconsistentIndent (line col : Nat) (expected found : String)
  /-- A level was closed that was not open. -/
  | unbalanced
  deriving DecidableEq, Repr

def BuildError.message : BuildError → String
  | inconsistentIndent line col expected found =>
    "inconsistent indentation at " ++ toString line ++ ":" ++ toString col ++ ": " ++
      Quoting.full.quote found ++ " does not line up with " ++ Quoting.full.quote expected
  | unbalanced => "unbalanced tree stack at end of input"

/-! ### The state -/

/-- A level that has not been closed. -/
structure OpenTree where
  kind : TreeKind
  opening : Option Token
  children : Array Node
  deriving Inhabited

def OpenTree.close (t : OpenTree) (closing : Option Token) : Node :=
  .tree t.kind t.opening closing t.children.toList

def OpenTree.push (t : OpenTree) (n : Node) : OpenTree := { t with children := t.children.push n }

/-- The state of building. -/
structure Builder where
  indentBlocks : Bool
  /-- The innermost open level. -/
  current : OpenTree
  /-- The levels around it, the innermost first. -/
  outer : List OpenTree
  /-- The latest token. -/
  previous : Token
  /-- How many delimited levels are open. -/
  nesting : Nat
  /-- The indents of the open blocks, the innermost first. -/
  indents : List String
  /-- No token but blanks and comments has been seen on this line. -/
  atLineStart : Bool
  /-- The blanks since the start of the line or its latest comment. -/
  indent : String
  /-- The tokens of these blanks, which have no level yet. -/
  waiting : List Token

namespace Builder

def start (layout : Layout) : Builder :=
  let marker := Token.marker .levelStart {}
  { indentBlocks := layout.indentBlocks
    current := { kind := .root, opening := none, children := #[.token marker] }
    outer := []
    previous := marker
    nesting := 0
    indents := []
    atLineStart := true
    indent := ""
    waiting := [] }

/-! ### Levels -/

def pushNode (b : Builder) (n : Node) : Builder := { b with current := b.current.push n }

def pushToken (b : Builder) (t : Token) : Builder := b.pushNode (.token t)

def flush (b : Builder) : Builder :=
  { b with
    current := { b.current with children := b.current.children ++ b.waiting.map Node.token }
    waiting := [] }

def openLevel (b : Builder) (kind : TreeKind) (opening : Option Token) : Builder :=
  { b with current := { kind, opening, children := #[] }, outer := b.current :: b.outer }

def openDelimited (b : Builder) (kind : TreeKind) (opening : Token) : Builder :=
  { b.openLevel kind (some opening) with nesting := b.nesting + 1 }

/-- Closes the innermost level behind an end marker, and makes it a child of the next one. -/
def closeLevel (b : Builder) (closing : Option Token) (marker : Token) :
    Except BuildError Builder :=
  match b.outer with
  | [] => .error .unbalanced
  | parent :: outer =>
    let node := (b.current.push (.token marker)).close closing
    .ok { b with current := parent.push node, outer }

/-- Closes a delimited level by its closing token. -/
def closeDelimited (b : Builder) (t : Token) : Except BuildError Builder := do
  let b ← b.closeLevel (some t) (t.markerBefore .levelEnd)
  return { b with nesting := b.nesting - 1 }

/-- Closes a template that has no closing token, before a token that cannot be inside it. -/
def closeTemplate (b : Builder) (t : Token) : Except BuildError Builder := do
  let b ← b.closeLevel (some (t.markerBefore .templateEnd)) (t.markerBefore .levelEnd)
  return { b with nesting := b.nesting - 1 }

/-! ### Indentation -/

def topIndent (b : Builder) : String := b.indents.headD ""

/-- Opens a block at a token; the waiting blanks belong to it. -/
def openBlock (b : Builder) (t : Token) (indent : String) : Builder :=
  let children := (t.markerBefore .levelStart :: b.waiting).map Node.token
  { b with
    current := { kind := .block, opening := none, children := children.toArray }
    outer := b.current :: b.outer
    indents := indent :: b.indents
    waiting := [] }

/-- Closes blocks as long as the innermost one is indented further than a text. -/
def closeBlocks (t : Token) (indent : String) : List String → Builder →
    Except BuildError Builder
  | [], b => .ok { b with indents := [] }
  | top :: rest, b =>
    if top ≠ indent && indent.toList.isPrefixOf top.toList then do
      closeBlocks t indent rest (← b.closeLevel none (t.markerBefore .levelEnd))
    else .ok { b with indents := top :: rest }

/-- Opens or closes blocks, so that the line that a token begins stands in the block of its
indent. -/
def resolveIndent (b : Builder) (t : Token) : Except BuildError Builder := do
  let indent := b.indent
  let b := { b with indent := "" }
  let misfit (b : Builder) : BuildError :=
    .inconsistentIndent t.pos.line t.pos.col b.topIndent indent
  let goesOn (b : Builder) : Bool := b.topIndent.toList.isPrefixOf indent.toList
  if indent = b.topIndent then return b.flush
  if goesOn b then return b.openBlock t indent
  if !indent.toList.isPrefixOf b.topIndent.toList then throw (misfit b)
  let b ← closeBlocks t indent b.indents b
  if indent = b.topIndent then return b.flush
  if goesOn b then return b.openBlock t indent
  throw (misfit b)

/-! ### Tokens -/

/-- Adds a string value to the one right before it, if there is one. -/
def coalesce (b : Builder) (t : Token) : Builder :=
  match b.current.children.back? with
  | some (.token last) =>
    if last.kind = .stringValue then
      let merged := last.merge t
      { b with
        current := (({ b.current with children := b.current.children.pop } : OpenTree)).push
          (.token merged)
        previous := merged }
    else { b.pushToken t with previous := t }
  | _ => { b.pushToken t with previous := t }

/-- Places a token: it opens a level, closes one or two, or becomes a child. -/
def place (b : Builder) (t : Token) : Except BuildError Builder :=
  match t.kind, b.current.kind with
  | .stringValue, .template => return (← b.closeTemplate t).pushToken t
  | .bracketLeft, _ => return b.openDelimited .wrapped t
  | .bracketRight, .wrapped => b.closeDelimited t
  | .stringEnd, .string => b.closeDelimited t
  | .templateEnd, .template => b.closeDelimited t
  | .stringStart, _ => return b.openDelimited .string t
  | .templateStart, .string => return b.openDelimited .template t
  | .templateStart, .template => return (← b.closeTemplate t).openDelimited .template t
  | .stringEnd, .template => do (← b.closeTemplate t).closeDelimited t
  | _, _ => return b.pushToken t

/-- Takes a token that is not a waiting blank. -/
def accept (b : Builder) (t : Token) : Except BuildError Builder :=
  if t.kind = .stringValue && b.current.kind ≠ .template && b.previous.kind = .stringValue then
    return b.coalesce t
  else return { ← b.place t with previous := t }

/-- Gives the innermost level its start marker, before its first token. -/
def begin (b : Builder) (t : Token) : Builder :=
  if b.current.children.isEmpty then b.pushToken (t.markerBefore .levelStart) else b

/-- Takes the next token. -/
def push (b : Builder) (t : Token) : Except BuildError Builder :=
  let b := b.begin t
  if b.indentBlocks && b.nesting = 0 then
    match t.kind, b.atLineStart with
    | .newline, _ => { b.flush with indent := "", atLineStart := true }.accept t
    | .whitespace, true =>
      return { b with
        indent := b.indent ++ t.value, waiting := b.waiting ++ [t], previous := t }
    | .comment, true => { b.flush with indent := "" }.accept t
    | _, true => do
      let b ← b.resolveIndent t
      { b with atLineStart := false }.accept t
    | _, false => b.accept t
  else b.accept t

/-! ### The end -/

def closeAll : List OpenTree → Builder → Except BuildError Builder
  | [], b => .ok b
  | _ :: outer, b => do
    let b :=
      if b.current.children.isEmpty then b.pushToken (b.previous.markerAfter .levelStart) else b
    closeAll outer (← b.closeLevel none (b.previous.markerAfter .levelEnd))

/-- The tree after the last token. -/
def finish (b : Builder) : Except BuildError Tree := do
  let b := b.flush
  let b ← closeAll b.outer b
  let root := b.current.push (.token (b.previous.markerAfter .levelEnd))
  return {
    kind := root.kind, opening := root.opening, closing := none, children := root.children.toList }

end Builder

/-- The tree of a list of tokens. -/
def Tree.ofTokens (layout : Layout) (tokens : List Token) : Except BuildError Tree := do
  (← tokens.foldlM Builder.push (.start layout)).finish

end Nesting
