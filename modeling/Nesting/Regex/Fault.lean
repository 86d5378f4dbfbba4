/-! # Faults of patterns

A text is refused as a pattern for one of two causes. -/

namespace Nesting

/-- Why a text is not the pattern of a search. -/
inductive PatternFault
  /-- It is not an expression. -/
  | malformed
  /-- It is an expression of too great a size. -/
  | tooLarge
  deriving DecidableEq, Repr, Inhabited

def PatternFault.message : PatternFault → String
  | malformed => "error parsing pattern 0"
  | tooLarge => "error building NFA"

end Nesting
