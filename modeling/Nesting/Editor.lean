import Nesting.Cursor

/-! # Editing sessions

An `Editor` moves a cursor through a tree, replaces nodes, and keeps cursors under names.  It
hands out identities: every tree that comes from outside gets a new one, and every move is given a
new stamp for the copy of the parent that it makes when it leaves a replaced node. -/

namespace Nesting

/-- A cursor, the cursors that were kept, and the next identity. -/
structure Editor where
  cursor : Cursor
  saved : List (String × Cursor)
  fresh : Nat

namespace Editor

def start (node : Node) : Editor := { cursor := .top node 0, saved := [], fresh := 1 }

def move? (e : Editor) (d : Direction) : Option Editor :=
  (e.cursor.move e.fresh d).map fun cursor => { e with cursor, fresh := e.fresh + 1 }

def replace (e : Editor) (node : Node) : Editor :=
  { e with cursor := e.cursor.replace node e.fresh, fresh := e.fresh + 1 }

/-- Keeps the cursor under a name. -/
def save (e : Editor) (name : String) : Editor :=
  { e with saved := (name, e.cursor) :: e.saved }

/-- The cursor that was last kept under a name. -/
def savedAs? (e : Editor) (name : String) : Option Cursor := e.saved.lookup name

/-- Goes back to the cursor that was last kept under a name. -/
def load? (e : Editor) (name : String) : Option Editor :=
  (e.savedAs? name).map fun cursor => { e with cursor }

end Editor

end Nesting
