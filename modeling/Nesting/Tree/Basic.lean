import Nesting.Token

/-! # Nesting trees

A `Node` is a token or a tree, and a tree has a kind, perhaps an opening and a closing token,
and children.  A finished tree carries a marker at each end of its children, so that a position
exists before the first child and after the last one.

`Node.leaves` lists the tokens of a node in document order (opening, children, closing), and
`Node.text` is the source text that they cover. -/

namespace Nesting

/-! ### Kinds of trees -/

/-- The kinds of trees: the whole source, a bracketed region, a string, an interpolation inside a
string, and a block of indented lines. -/
inductive TreeKind
  | root
  | wrapped
  | string
  | template
  | block
  deriving DecidableEq, Repr, Inhabited

namespace TreeKind

/-- The name of a kind in dumps and in JSON. -/
def name : TreeKind → String
  | root => "root-tree"
  | wrapped => "wrapped-tree"
  | string => "string-tree"
  | template => "template-tree"
  | block => "block-tree"

theorem name_inj {k k' : TreeKind} (h : k.name = k'.name) : k = k' := by
  cases k <;> cases k' <;> first | rfl | exact absurd h (by decide)

def shortName : TreeKind → String
  | root => "root"
  | wrapped => "wrapped"
  | string => "string"
  | template => "template"
  | block => "block"

def all : List TreeKind := [root, wrapped, string, template, block]

/-- The kind of a given name, long or short. -/
def ofName? (s : String) : Option TreeKind :=
  all.find? fun k => k.name == s || k.shortName == s

def isDelimited : TreeKind → Bool
  | wrapped | string | template => true
  | root | block => false

end TreeKind

/-! ### Nodes -/

/-- A token, or a tree of nodes. -/
inductive Node
  | token (t : Token)
  | tree (kind : TreeKind) (opening closing : Option Token) (children : List Node)
  deriving Repr, Inhabited

/-- A node that is known to be a tree. -/
structure Tree where
  kind : TreeKind
  opening : Option Token
  closing : Option Token
  children : List Node
  deriving Repr, Inhabited

def Tree.toNode (t : Tree) : Node := .tree t.kind t.opening t.closing t.children

namespace Node

def token? : Node → Option Token
  | .token t => some t
  | .tree .. => none

def tree? : Node → Option Tree
  | .token _ => none
  | .tree kind opening closing children => some { kind, opening, closing, children }

def tokenKind? (n : Node) : Option TokenKind := n.token?.map (·.kind)

def children : Node → List Node
  | .token _ => []
  | .tree _ _ _ cs => cs

def kindName : Node → String
  | .token t => t.kind.name
  | .tree kind .. => kind.name

/-- Tokens of a minor kind; a tree is never minor. -/
def isMinor (n : Node) : Bool := n.tokenKind?.any (·.isMinor)

def isMarker (n : Node) : Bool := n.tokenKind?.any (·.isMarker)

@[simp] theorem tree?_toNode (t : Tree) : t.toNode.tree? = some t := rfl

/-! ### Equality -/

mutual

def decEq : (a b : Node) → Decidable (a = b)
  | .token t, .token u => decidable_of_iff (t = u) (by simp)
  | .token _, .tree .. => isFalse (by simp)
  | .tree .., .token _ => isFalse (by simp)
  | .tree k o c cs, .tree k' o' c' cs' =>
    match decEqAll cs cs' with
    | isTrue h => decidable_of_iff (k = k' ∧ o = o' ∧ c = c') (by simp [h])
    | isFalse h => isFalse (by simp [h])

def decEqAll : (as bs : List Node) → Decidable (as = bs)
  | [], [] => isTrue rfl
  | [], _ :: _ => isFalse (by simp)
  | _ :: _, [] => isFalse (by simp)
  | a :: as, b :: bs =>
    match decEq a b, decEqAll as bs with
    | isTrue h, isTrue hs => isTrue (by simp [h, hs])
    | isFalse h, _ => isFalse (by simp [h])
    | _, isFalse hs => isFalse (by simp [hs])

end

instance : DecidableEq Node := decEq

/-! ### Text -/

mutual

/-- The tokens of a node in document order: opening, children, closing. -/
def leaves : Node → List Token
  | .token t => [t]
  | .tree _ opening closing children =>
    opening.toList ++ leavesAll children ++ closing.toList

def leavesAll : List Node → List Token
  | [] => []
  | n :: ns => leaves n ++ leavesAll ns

end

theorem leavesAll_append (ns ms : List Node) :
    leavesAll (ns ++ ms) = leavesAll ns ++ leavesAll ms := by
  induction ns with
  | nil => rfl
  | cons n ns ih => simp [leavesAll, ih]

/-- The source text of a node, delimiters included. -/
def text (n : Node) : String := String.join (n.leaves.map (·.value))

mutual

/-- The number of nodes of a tree, itself included. -/
def size : Node → Nat
  | .token _ => 1
  | .tree _ _ _ children => sizeAll children + 1

def sizeAll : List Node → Nat
  | [] => 0
  | n :: ns => size n + sizeAll ns

end

end Node

/-! ### Trees -/

namespace Tree

instance : DecidableEq Tree := fun s t =>
  decidable_of_iff (s.toNode = t.toNode) (by cases s; cases t; simp [toNode])

/-- The source text of a tree, delimiters included. -/
def text (t : Tree) : String := t.toNode.text

/-- A bracket, string or template that the end of the source closed. -/
def isForceClosed (t : Tree) : Bool := t.kind.isDelimited && t.closing.isNone

/-- The children other than the markers. -/
def inner (t : Tree) : List Node := t.children.filter fun n => !n.isMarker

end Tree

end Nesting
