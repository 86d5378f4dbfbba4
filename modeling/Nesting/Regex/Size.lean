import Nesting.Regex.Basic

/-! # The size of an expression

A search follows all ways through an expression at once and keeps a record for every byte that it
may meet on them.  A counted repetition stands for as many copies of its body, so a short text
can write an expression that is too large to be searched for.  `Regex.size` is the number of bytes
of the records, and expressions beyond `Regex.sizeLimit` are refused. -/

namespace Nesting

/-! ### Sets of characters as sequences of bytes -/

namespace CharSet

/-- The number of values of a byte that continues a character. -/
def digitCount : Nat := 64

/-- The numbers from `a` to `b`, written in digits of which `more` follow the first one, as
products of ranges of digits. -/
def products : Nat → Nat → Nat → List (List (Nat × Nat))
  | 0, a, b => [[(a, b)]]
  | more + 1, a, b =>
    let block := Nat.pow digitCount (more + 1)
    let x := a / block
    let y := b / block
    if x = y then (products more (a % block) (b % block)).map ((x, x) :: ·)
    else
      let whole := (if a % block = 0 then x else x + 1, if b % block + 1 = block then y + 1 else y)
      let first := (products more (a % block) (block - 1)).map ((x, x) :: ·)
      let last := (products more 0 (b % block)).map ((y, y) :: ·)
      (if whole.1 = x then [] else first) ++
        (if whole.1 < whole.2 then
          [(whole.1, whole.2 - 1) :: List.replicate (more + 1) (0, digitCount - 1)]
        else []) ++
        (if whole.2 = y then last else [])

/-- The ranges of code points that are written in one, two, three and four bytes; some three-byte
numbers are no characters. -/
def encodingLengths : List (Nat × Nat × Nat) :=
  [(0, 0, 0x7f), (1, 0x80, 0x7ff), (2, 0x800, 0xd7ff), (2, 0xe000, 0xffff), (3, 0x10000, lastCode)]

/-- The encodings of a range of code points, as products of ranges of bytes.  Numbers stand for
bytes, and first bytes of different lengths are different numbers. -/
def encodings (low high : Nat) : List (List (Nat × Nat)) :=
  encodingLengths.flatMap fun (more, first, last) =>
    let a := max low first
    let b := min high last
    if a ≤ b then
      (products more a b).map fun
        | (x, y) :: rest => (x + 256 * more, y + 256 * more) :: rest
        | [] => []
    else []

def sharedLength {α : Type} [DecidableEq α] : List α → List α → Nat
  | a :: as, b :: bs => if a = b then sharedLength as bs + 1 else 0
  | _, _ => 0

/-- The number of different beginnings of sequences, where each shares most with its neighbour. -/
def beginnings {α : Type} [DecidableEq α] : List α → List (List α) → Nat
  | _, [] => 0
  | before, s :: rest => s.length - sharedLength before s + beginnings s rest

end CharSet

/-! ### Expressions -/

namespace Regex

def recordSize : Nat := 32

/-- The bytes of a fork with two ways. -/
def forkSize : Nat := recordSize + 8

/-- The bytes of the records of a set.  The characters of one byte need one record for all. -/
def setSize (s : CharSet) : Nat :=
  if s.ranges.all (·.2 < 0x80) then 2 * recordSize + 8 * s.ranges.length
  else
    let sequences := s.ranges.flatMap fun (low, high) => CharSet.encodings low high
    2 * recordSize + 4 * sequences.length + recordSize * CharSet.beginnings [] sequences

def size : Regex → Nat
  | text cs => recordSize * max 1 ((cs.map Char.utf8Size).foldl (· + ·) 0)
  | one s => setSize s
  | anchor _ => recordSize
  | group _ r => 2 * recordSize + size r
  | seq r s => size r + size s
  | alt r s => forkSize + size r + size s
  | repeated r least none _ => forkSize + max 1 least * size r
  | repeated r least (some most) _ =>
    recordSize + least * size r + (most - least) * (forkSize + size r)

def sizeLimit : Nat := 10 * 1024 * 1024

end Regex

end Nesting
