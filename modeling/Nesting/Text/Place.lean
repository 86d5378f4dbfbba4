/-! # Places in a text

A `Place` is a point between two characters of a text: how many characters lie before it, the
one right before it, and all that follow.  Patterns look at both sides of a place, so a match
that starts in the middle of a text still sees what it follows. -/

namespace Nesting

/-- A point of a text. -/
structure Place where
  /-- The number of characters before the place. -/
  index : Nat
  /-- The character right before the place; none at the start of the text. -/
  before : Option Char
  /-- The characters after the place. -/
  after : List Char
  deriving DecidableEq, Repr, Inhabited

namespace Place

def start (text : List Char) : Place := { index := 0, before := none, after := text }

/-- The place after the next character. -/
def next? (p : Place) : Option (Char × Place) :=
  match p.after with
  | [] => none
  | c :: cs => some (c, { index := p.index + 1, before := some c, after := cs })

/-- The place after the text `cs`, if that is what follows. -/
def skip? : List Char → Place → Option Place
  | [], p => some p
  | c :: cs, p =>
    match p.after with
    | [] => none
    | d :: ds =>
      if c = d then skip? cs { index := p.index + 1, before := some d, after := ds } else none

/-- The place that lies `n` characters further, or the end of the text. -/
def move : Nat → Place → Place
  | 0, p => p
  | n + 1, p =>
    match p.next? with
    | none => p
    | some (_, q) => move n q

def textUntil (p q : Place) : List Char := p.after.take (q.index - p.index)

/-- The number of bytes of a run of characters. -/
def byteSize (cs : List Char) : Nat := cs.foldl (fun n c => n + c.utf8Size) 0

/-- The place `n` bytes further: none inside a character and beyond the end. -/
def atByte? (n : Nat) (p : Place) : Option Place :=
  match p with
  | { index, before, after } => go n index before after
where
  /-- Walks over the characters with the bytes that are left. -/
  go (n index : Nat) (before : Option Char) : List Char → Option Place
    | [] => if n = 0 then some { index, before, after := [] } else none
    | c :: cs =>
      if n = 0 then some { index, before, after := c :: cs }
      else if n < c.utf8Size then none
      else go (n - c.utf8Size) (index + 1) (some c) cs

/-- All places from here to the end of the text. -/
def onward (p : Place) : List Place :=
  go p.index p.before p.after
where
  /-- The place before each of the characters, and the last one. -/
  go (index : Nat) (before : Option Char) : List Char → List Place
    | [] => [{ index, before, after := [] }]
    | c :: cs => { index, before, after := c :: cs } :: go (index + 1) (some c) cs

end Place

end Nesting
