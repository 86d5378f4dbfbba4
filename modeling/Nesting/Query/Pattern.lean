import Nesting.Regex.Match
import Nesting.Regex.Parser
import Nesting.Text.Quoted

/-! # Patterns of values

A `Pattern` says what the text of a token must look like: anything, an exact text, or a text in
which a regular expression matches somewhere.  Compiling it (`Pattern.compile`) reads the
expression. -/

namespace Nesting

/-- What a text must look like. -/
inductive Pattern
  | any
  | exact (text : String)
  | regex (expression : String)
  deriving DecidableEq, Repr, Inhabited

/-- A pattern whose expression has been read. -/
inductive ValueTest
  | any
  | exact (text : String)
  | regex (r : Regex)
  deriving DecidableEq, Repr, Inhabited

/-- Why a query cannot be compiled. -/
inductive QueryError
  | invalidPattern (expression : String) (fault : PatternFault)
  | invalidRepetition (least most : Nat)
  | emptyAlternation
  deriving DecidableEq, Repr

def QueryError.message : QueryError → String
  | invalidPattern expression fault =>
    "invalid pattern `" ++ expression ++ "`: " ++ fault.message
  | invalidRepetition least most =>
    "repetition minimum " ++ toString least ++ " exceeds maximum " ++ toString most
  | emptyAlternation => "alternation needs at least one branch"

def Pattern.describe : Pattern → String
  | any => "_"
  | exact text => Quoting.full.quote text
  | regex expression => "/" ++ expression ++ "/"

def Pattern.compile : Pattern → Except QueryError ValueTest
  | any => .ok .any
  | exact text => .ok (.exact text)
  | regex expression =>
    match Regex.parse expression with
    | .ok r => .ok (.regex r)
    | .error fault => .error (.invalidPattern expression fault)

def ValueTest.accepts : ValueTest → String → Bool
  | any, _ => true
  | exact text, value => text == value
  | regex r, value => r.occursIn value.toList

end Nesting
