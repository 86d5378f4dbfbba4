/-! # The pattern of numbers

The numbers of the built-in languages: hexadecimal, octal and, where a language has them, binary
integers, decimal integers, and decimals with a point, an exponent or both; a single underscore
may stand between digits.  A choice takes its first branch that matches and not the longest one,
so numbers with a point or an exponent come before integers, and integers with a letter before
those without. -/

namespace Nesting.Numbers

def group (s : String) : String := "(?:" ++ s ++ ")"

/-- Digits of a class after a letter, each perhaps behind an underscore. -/
def lettered (letters digits : String) : String :=
  group ("0" ++ letters ++ group ("_?" ++ digits) ++ "+")

def digit : String := "[0-9]"

/-- Integers; binary ones are optional. -/
def integer (binary : Bool) : String :=
  lettered "[xX]" "[0-9a-fA-F]" ++ "|" ++ lettered "[oO]" "[0-7]" ++
    (if binary then "|" ++ lettered "[bB]" "[01]" else "") ++ "|" ++
    group ("[1-9]" ++ group ("_?" ++ digit) ++ "*|0+" ++ group "_?0" ++ "*")

/-- Digits with single underscores between them. -/
def digits : String := group (digit ++ group ("_?" ++ digit) ++ "*")

def fraction : String := group ("\\." ++ digits)

def pointFloat : String := group (digits ++ "?" ++ fraction ++ "|" ++ digits ++ "\\.")

def exponentFloat : String :=
  group (group (digits ++ "|" ++ pointFloat) ++ group ("[eE][-+]?" ++ digits))

/-- All numbers. -/
def pattern (binary : Bool) : String :=
  group (exponentFloat ++ "|" ++ pointFloat ++ "|" ++ integer binary)

end Nesting.Numbers
