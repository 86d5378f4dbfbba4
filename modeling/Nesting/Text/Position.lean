/-! # Positions in a source text

A `Position` counts bytes from the start of the source and names a line and a column, both
counted from one, columns in characters.  `Position.advance` moves a position past a piece of
text; `advance_append` says that moving past two pieces in turn is moving past both at once. -/

namespace Nesting

/-- A place in the source: bytes before it, its line and its column. -/
structure Position where
  offset : Nat := 0
  line : Nat := 1
  col : Nat := 1
  deriving DecidableEq, Repr, Inhabited

/-! ### Moving past characters -/

/-- The position after one character: a line feed starts the next line. -/
def Position.step (p : Position) (c : Char) : Position :=
  if c = '\n' then
    { offset := p.offset + c.utf8Size, line := p.line + 1, col := 1 }
  else
    { offset := p.offset + c.utf8Size, line := p.line, col := p.col + 1 }

/-- The position after a run of characters. -/
def Position.advance (p : Position) (cs : List Char) : Position :=
  cs.foldl Position.step p

@[simp] theorem Position.advance_nil (p : Position) : p.advance [] = p := rfl

@[simp] theorem Position.advance_cons (p : Position) (c : Char) (cs : List Char) :
    p.advance (c :: cs) = (p.step c).advance cs := rfl

theorem Position.advance_append (p : Position) (cs ds : List Char) :
    p.advance (cs ++ ds) = (p.advance cs).advance ds := List.foldl_append

end Nesting
