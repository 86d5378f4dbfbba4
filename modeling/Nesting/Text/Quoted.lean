import Nesting.Text.CharClass

/-! # Quoted text

A text between double quotes, in which quotes, backslashes and characters that do not print are
spelled out.  A `Quoting` fixes which characters those are and how they are spelled; rule tables,
traces and error messages use `Quoting.full`, and tree dumps use `Quoting.plain`. -/

namespace Nesting

/-- What a quoted text spells out, apart from quotes, backslashes, line feeds, carriage returns
and tabs. -/
structure Quoting where
  /-- The null character is written as a backslash and a zero. -/
  shortNull : Bool
  /-- The characters written by their code point. -/
  isSpelled : Char → Bool
  /-- The least number of hexadecimal digits of a code point. -/
  width : Nat

namespace Quoting

/-- Every character that does not print is spelled out, with as few digits as possible. -/
def full : Quoting := { shortNull := true, isSpelled := CharClass.isHidden, width := 1 }

/-- Control characters alone are spelled out, with four digits at least. -/
def plain : Quoting := { shortNull := false, isSpelled := CharClass.isControl, width := 4 }

/-- The hexadecimal digits of a number, filled up with zeros to a width. -/
def hexDigits (width n : Nat) : List Char :=
  let ds := Nat.toDigits 16 n
  List.replicate (width - ds.length) '0' ++ ds

/-- The spelling of one character inside a quoted text. -/
def spell (q : Quoting) (c : Char) : List Char :=
  if c = '\n' then ['\\', 'n']
  else if c = '\r' then ['\\', 'r']
  else if c = '\t' then ['\\', 't']
  else if c = '\\' then ['\\', '\\']
  else if c = '"' then ['\\', '"']
  else if q.shortNull && c.toNat == 0 then ['\\', '0']
  else if q.isSpelled c then
    ['\\', 'u', '\x7b'] ++ hexDigits q.width c.toNat ++ ['\x7d']
  else [c]

def quote (q : Quoting) (s : String) : String :=
  String.ofList (['"'] ++ s.toList.flatMap q.spell ++ ['"'])

end Quoting

end Nesting
