import Nesting.Text.CharTable

/-! # Character classes

Membership in the tables of character properties.  A table is a list of ranges in rising order,
so a search stops at the first range above the character (`inRanges`). -/

namespace Nesting.CharClass

/-- Whether a code point lies in one of the ranges, which stand in rising order. -/
def inRanges : List (Nat × Nat) → Nat → Bool
  | [], _ => false
  | (low, high) :: rest, n => if n < low then false else n ≤ high || inRanges rest n

/-- A decimal digit of any script. -/
def isDigit (c : Char) : Bool := inRanges CharTable.digits c.toNat

def isSpace (c : Char) : Bool := inRanges CharTable.spaces c.toNat

def isWord (c : Char) : Bool := inRanges CharTable.words c.toNat

def isLetter (c : Char) : Bool := isWord c && !inRanges CharTable.wordSigns c.toNat

def isLetterOrNumber (c : Char) : Bool :=
  isLetter c || isDigit c || inRanges CharTable.numbers c.toNat

/-- A character that a quoted text spells out. -/
def isHidden (c : Char) : Bool := inRanges CharTable.hidden c.toNat

/-- The control characters: below the space, and from delete to the end of the second block. -/
def isControl (c : Char) : Bool := c.toNat < 0x20 || (0x7f ≤ c.toNat && c.toNat ≤ 0x9f)

end Nesting.CharClass
