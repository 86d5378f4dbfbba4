import Nesting.Lexer.Order
import Nesting.Text.Palette

/-! # Rule tables

A `RuleTable` gives the rules of each lexer state, in the order in which they are tried.  The
root state reads ordinary code.  Each form of string has a state for its content, and each code
template of a string has a state that reads code until the template's end, which takes the place
of whatever the root makes of that text.

`RuleTable.ofLexicon` checks a lexicon (`Lexicon.check`) and builds its table. -/

namespace Nesting

/-! ### States -/

inductive LexState
  /-- Ordinary code. -/
  | root
  /-- The content of a string of the given form. -/
  | string (form : Nat)
  /-- Code inside a template of a string. -/
  | template (form template : Nat)
  deriving DecidableEq, Repr, Inhabited

def LexState.name : LexState → String
  | root => "$"
  | string i => "str$" ++ toString i
  | template i j => "str$" ++ toString i ++ "$tpl$" ++ toString j

abbrev StateRule := Rule (Transition LexState)

/-- The rules of every state, the root state first. -/
structure RuleTable where
  states : List (LexState × List StateRule)

namespace RuleTable

def rulesOf (t : RuleTable) (s : LexState) : List StateRule := (t.states.lookup s).getD []

/-- The rules of ordinary code. -/
def root (t : RuleTable) : List StateRule := t.rulesOf .root

def contains (t : RuleTable) (s : LexState) : Bool := (t.states.lookup s).isSome

def indexOf? (t : RuleTable) (name : String) : Option Nat :=
  t.states.findIdx? fun s => s.1.name == name

def rulesOfName? (t : RuleTable) (name : String) : Option (List StateRule) :=
  (t.states.find? fun s => s.1.name == name).map (·.2)

/-- Every state keeps longer chunks before their beginnings. -/
def isPrefixOrdered (t : RuleTable) : Bool := t.states.all fun s => Rule.isPrefixOrdered s.2

end RuleTable

/-! ### Checking a lexicon -/

namespace Lexicon

/-- A delimiter must not be empty. -/
def checkDelimiter (part : GrammarPart) (text : String) : Except GrammarError Unit :=
  if text.isEmpty then .error (.emptyDelimiter part) else .ok ()

def checkComment (c : CommentForm) : Except GrammarError Unit := do
  checkDelimiter .comment c.opening
  match c with
  | .line _ => pure ()
  | .multiline _ closing => checkDelimiter .comment closing

/-- An opening text must differ from those declared before it. -/
def checkNew (openings : List String) (text : String) : Except GrammarError Unit :=
  if openings.contains text then .error (.duplicateDelimiter text) else .ok ()

/-- Checks the brackets one after the other and collects their opening texts. -/
def checkBrackets : List BracketForm → List String → Except GrammarError (List String)
  | [], openings => .ok openings
  | b :: rest, openings => do
    checkDelimiter .bracket b.opening
    checkDelimiter .bracket b.closing
    checkNew openings b.opening
    checkBrackets rest (b.opening :: openings)

/-- Checks a template of a string that ends with the given text. -/
def checkTemplate (l : Lexicon) (ending : String) (t : TemplateForm) : Except GrammarError Unit := do
  checkDelimiter .template t.opening
  if t.opening = ending then throw (.templateConflict t.opening)
  match t with
  | .code _ closing => checkDelimiter .template closing
  | .reference opening _ operators =>
    match operators.find? (!l.operators.contains ·) with
    | some operator => throw (.undeclaredOperator opening operator)
    | none => pure ()

def checkStrings (l : Lexicon) : List StringForm → List String → Except GrammarError Unit
  | [], _ => .ok ()
  | s :: rest, openings => do
    checkDelimiter .string s.opening
    checkDelimiter .string s.ending
    if let some escape := s.escape then checkDelimiter .stringEscape escape
    checkNew openings s.opening
    s.templates.forM (l.checkTemplate s.ending)
    checkStrings l rest (s.opening :: openings)

/-- Finds the first fault of the delimiters of a lexicon. -/
def check (l : Lexicon) : Except GrammarError Unit := do
  if let some marker := l.lineJoin then checkDelimiter .lineJoin marker
  l.comments.forM checkComment
  l.operators.forM (checkDelimiter .operator)
  let openings ← checkBrackets l.brackets []
  checkStrings l l.strings openings

end Lexicon

/-! ### Expressions -/

namespace LexRegex

def newline : Regex := .seq (.opt (.text ['\r'])) (.text ['\n'])

/-- One blank inside a line. -/
def blank : Regex :=
  .one (.unions [.single ' ', .single '\t', .single '\r'])

/-- Blanks, and line endings that a line join stands before. -/
def whitespace : Option String → Regex
  | none => .plus blank
  | some marker => .plus (.alt blank (.seq (.ofText marker) newline))

def comment : CommentForm → Regex
  | .line opening =>
    .seq (.ofText opening) (.star (.one (.compl (.union (.single '\r') (.single '\n')))))
  | .multiline opening closing =>
    .seq (.ofText opening) (.seq (.lazyStar (.one .any)) (.ofText closing))

def escape (text : String) : Regex := .seq (.ofText text) (.one .any)

/-- A reference: its opening text, a symbol, and more symbols joined by operators. -/
def reference (opening : String) (operators : List String) (symbol : Regex) : Regex :=
  if operators.isEmpty then .seq (.ofText opening) symbol
  else
    .seq (.ofText opening)
      (.seq symbol (.star (.seq (.alts (operators.map .ofText)) symbol)))

/-- The text of the expression of a reference, as a reader would write it. -/
def referenceText (opening symbols : String) (operators : List String) : String :=
  let symbol := "(?:" ++ symbols ++ ")"
  if operators.isEmpty then Regex.escapeText opening ++ symbol
  else
    Regex.escapeText opening ++ symbol ++ "(?:(?:" ++
      "|".intercalate (operators.map Regex.escapeText) ++ ")" ++ symbol ++ ")*"

def read (part : GrammarPart) (text : String) : Except GrammarError Regex :=
  match Regex.parse text with
  | .ok r => .ok r
  | .error fault => .error (.invalidPattern part text fault)

end LexRegex

/-! ### Building a table -/

namespace RuleTable

def commentRules (l : Lexicon) : List StateRule :=
  l.comments.mapIdx fun i c =>
    (Rule.pattern ("comment$" ++ toString i) .comment (LexRegex.comment c) .stay).withChunk c.opening

/-- The rules of operators, named by their place in the list; an operator that is repeated has
one rule, named by its first place. -/
def operatorRules {α : Type} (operators : List String) (action : α) : List (Rule α) :=
  (operators.mapIdx fun i op => (i, op)).map fun (i, op) =>
    .literal ("op$" ++ toString i) .operator op action

def distinctOperatorRules (l : Lexicon) : List StateRule :=
  go [] (operatorRules l.operators .stay)
where
  /-- Drops a rule whose text occurred before. -/
  go (seen : List String) : List StateRule → List StateRule
    | [] => []
    | r :: rest =>
      match r.chunk with
      | some op => if seen.contains op then go seen rest else r :: go (op :: seen) rest
      | none => r :: go seen rest

def bracketRules (l : Lexicon) : List StateRule :=
  (l.brackets.mapIdx fun i b =>
    let name := "bracket$" ++ toString i
    [.literal (name ++ "$start") .bracketLeft b.opening .stay,
     .literal (name ++ "$end") .bracketRight b.closing .stay]).flatten

def stringStartRules (l : Lexicon) : List StateRule :=
  l.strings.mapIdx fun i s =>
    .literal ((LexState.string i).name ++ "$start") .stringStart s.opening (.push (.string i))

/-- The rules of ordinary code. -/
def rootRules (l : Lexicon) : Except GrammarError (List StateRule) := do
  let symbols ← LexRegex.read .symbol l.symbols
  let numbers ← LexRegex.read .number l.numbers
  return Rule.sort <|
    [.pattern "newline" .newline LexRegex.newline .stay,
     .pattern "whitespace" .whitespace (LexRegex.whitespace l.lineJoin) .stay] ++
    commentRules l ++
    [.pattern "symbol" .symbol symbols .stay, .pattern "number" .number numbers .stay] ++
    distinctOperatorRules l ++ bracketRules l ++ stringStartRules l ++
    [.fallback "unknown" .unknown .stay]

def referenceRules (opening : String) (operators : List String) (symbol : Regex) :
    List PartRule :=
  Rule.sort <|
    [.literal "start" .templateStart opening (), .pattern "symbol" .symbol symbol ()] ++
    operatorRules operators () ++ [.fallback "unknown" .unknown ()]

/-- The rule of a template inside the string form `i`. -/
def templateRule (i j : Nat) (t : TemplateForm) : Except GrammarError StateRule := do
  let state := LexState.template i j
  match t with
  | .code opening _ =>
    return .literal (state.name ++ "$start") .templateStart opening (.push state)
  | .reference opening symbols operators =>
    let _ ← LexRegex.read .template (LexRegex.referenceText opening symbols operators)
    let symbol ← LexRegex.read .templateSymbol symbols
    return (Rule.pattern state.name .templateStart (LexRegex.reference opening operators symbol)
      (.split (referenceRules opening operators symbol))).withChunk opening

/-- The rules of the content of the string form `i`. -/
def stringRules (i : Nat) (s : StringForm) : Except GrammarError (List StateRule) := do
  let name := (LexState.string i).name
  let templates ← (s.templates.mapIdx fun j t => templateRule i j t).mapM id
  let escapes : List StateRule := s.escape.toList.map fun text =>
    (Rule.pattern (name ++ "$escape") .stringValue (LexRegex.escape text) .stay).withChunk text
  return Rule.sort <|
    [.literal (name ++ "$end") .stringEnd s.ending .pop] ++ templates ++ escapes ++
    [.fallback (name ++ "$value") .stringValue .stay]

/-- Replaces the first rule for the given text, or adds a rule at the end. -/
def replaceLiteral (text : String) (r : StateRule) : List StateRule → List StateRule
  | [] => [r]
  | s :: rest =>
    if s.literalText? = some text then r :: rest else s :: replaceLiteral text r rest

/-- The rules of code inside a template: those of ordinary code, except that the closing text
ends the template. -/
def templateRules (root : List StateRule) (state : LexState) (closing : String) :
    List StateRule :=
  Rule.sort (replaceLiteral closing (.literal (state.name ++ "$end") .templateEnd closing .pop) root)

def templateStates (root : List StateRule) (i : Nat) (s : StringForm) :
    List (LexState × List StateRule) :=
  (s.templates.mapIdx fun j t =>
    match t with
    | .code _ closing =>
      let state := LexState.template i j
      [(state, templateRules root state closing)]
    | .reference .. => []).flatten

def ofLexicon (l : Lexicon) : Except GrammarError RuleTable := do
  l.check
  let root ← rootRules l
  let bodies ← (l.strings.mapIdx fun i s => stringRules i s).mapM id
  let strings := bodies.mapIdx fun i rules => (LexState.string i, rules)
  let templates := (l.strings.mapIdx fun i s => templateStates root i s).flatten
  return { states := (.root, root) :: strings ++ templates }

/-! ### Describing a table -/

def describeRule (r : StateRule) : String := r.describe ++ r.action.describe LexState.name

/-- A state as a text: a line with its name, and a line for each rule, after which the rules of its
own stand, if it has any. -/
def describeState {α : Type} (level : Nat) (name : String) (rules : List (Rule α))
    (line inside : Rule α → String) : String :=
  let pad := String.ofList (List.replicate (2 * level) ' ')
  pad ++ "state " ++ name ++ "\n" ++
    String.join (rules.map fun r => pad ++ "  " ++ line r ++ "\n" ++ inside r)

/-- The rules that cut up the text of a rule, as a state two levels further in. -/
def describeParts (level : Nat) (r : StateRule) : String :=
  match r.action with
  | .split parts => describeState (level + 2) LexState.root.name parts Rule.describe fun _ => ""
  | _ => ""

/-- The table as a text, state by state in the order in which rules are tried. -/
def describe (t : RuleTable) : String :=
  String.join <| t.states.map fun (state, rules) =>
    describeState 0 state.name rules describeRule (describeParts 0)

/-! ### Showing a table -/

/-- The lines of a rule: its own, and those of the rules that cut up its text. -/
def ruleLines (p : Palette) (r : StateRule) : List String :=
  ("  " ++ describeRule r) ::
    match r.action with
    | .split parts =>
      ("    " ++ p.kind ("state " ++ LexState.root.name)) ::
        parts.map fun part => "      " ++ part.describe
    | _ => []

/-- The table line by line, with the names of its states in colour. -/
def render (t : RuleTable) (p : Palette) : String :=
  String.join <| t.states.flatMap fun (state, rules) =>
    (p.kind ("state " ++ state.name) :: rules.flatMap (ruleLines p)).map (· ++ "\n")

end RuleTable

end Nesting
