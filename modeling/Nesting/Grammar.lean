import Nesting.Regex.Fault

/-! # Grammars

A `Grammar` describes a language as far as its tokens and its nesting go: comments, symbols,
numbers, operators, brackets, strings with their templates, line joins, and whether indentation
groups lines into blocks.  Symbols and numbers are given by regular expressions, all else by
literal delimiters. -/

namespace Nesting

inductive CommentForm
  /-- Runs to the end of the line. -/
  | line (opening : String)
  /-- Runs to the first closing text, over several lines if need be. -/
  | multiline (opening closing : String)
  deriving DecidableEq, Repr, Inhabited

def CommentForm.opening : CommentForm → String
  | line opening => opening
  | multiline opening _ => opening

structure BracketForm where
  opening : String
  closing : String
  deriving DecidableEq, Repr, Inhabited

/-- An interpolation inside a string. -/
inductive TemplateForm
  /-- Code up to the closing text. -/
  | code (opening closing : String)
  /-- A run of symbols joined by some of the operators. -/
  | reference (opening symbols : String) (operators : List String)
  deriving DecidableEq, Repr, Inhabited

def TemplateForm.opening : TemplateForm → String
  | code opening _ => opening
  | reference opening _ _ => opening

structure StringForm where
  opening : String
  /-- The closing text, if it differs from the opening one. -/
  closing : Option String := none
  /-- A text that makes the character after it content. -/
  escape : Option String := none
  templates : List TemplateForm := []
  deriving DecidableEq, Repr, Inhabited

def StringForm.ending (s : StringForm) : String := s.closing.getD s.opening

/-- The lexical part of a grammar. -/
structure Lexicon where
  /-- A text that joins a line to the next one. -/
  lineJoin : Option String := none
  comments : List CommentForm := []
  /-- The regular expression of symbols. -/
  symbols : String
  /-- The regular expression of numbers. -/
  numbers : String
  operators : List String := []
  brackets : List BracketForm := []
  strings : List StringForm := []
  deriving DecidableEq, Repr, Inhabited

/-- The part of a grammar that concerns the arrangement of lines. -/
structure Layout where
  /-- Indented lines form blocks. -/
  indentBlocks : Bool := false
  deriving DecidableEq, Repr, Inhabited

/-- A language as far as its tokens and its nesting go. -/
structure Grammar where
  lexicon : Lexicon
  layout : Layout := {}
  deriving DecidableEq, Repr, Inhabited

/-! ### Faults of a grammar -/

/-- The parts of a grammar that a fault can lie in. -/
inductive GrammarPart
  | lineJoin
  | comment
  | operator
  | bracket
  | string
  | stringEscape
  | template
  | symbol
  | number
  | templateSymbol
  /-- A rule outside any grammar. -/
  | named (name : String)
  deriving DecidableEq, Repr, Inhabited

def GrammarPart.name : GrammarPart → String
  | lineJoin => "line join"
  | comment => "comment"
  | operator => "operator"
  | bracket => "bracket"
  | string => "string"
  | stringEscape => "string escape"
  | template => "template"
  | symbol => "symbol"
  | number => "number"
  | templateSymbol => "template symbol"
  | named name => name

/-- Why a grammar has no rules. -/
inductive GrammarError
  | emptyDelimiter (part : GrammarPart)
  | duplicateDelimiter (delimiter : String)
  /-- The start of a template is also the end of its string. -/
  | templateConflict (template : String)
  /-- A reference joins its symbols by an operator that the grammar does not have. -/
  | undeclaredOperator (template operator : String)
  | invalidPattern (part : GrammarPart) (pattern : String) (fault : PatternFault)
  deriving DecidableEq, Repr, Inhabited

def GrammarError.message : GrammarError → String
  | emptyDelimiter part => "empty delimiter in " ++ part.name
  | duplicateDelimiter delimiter => "delimiter `" ++ delimiter ++ "` is declared more than once"
  | templateConflict template =>
    "template start `" ++ template ++ "` equals the end of its string"
  | undeclaredOperator template operator =>
    "variable template `" ++ template ++ "` allows undeclared operator `" ++ operator ++ "`"
  | invalidPattern part pattern fault =>
    "invalid " ++ part.name ++ " pattern `" ++ pattern ++ "`: " ++ fault.message

end Nesting
