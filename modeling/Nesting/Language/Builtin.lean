import Nesting.Grammar
import Nesting.Language.Numbers

/-! # Built-in grammars

The grammars of Groovy, Python, Scala and Starlark, with the names and the file extensions that
the languages go by. -/

namespace Nesting.Builtin

/-! ### Parts that the languages share -/

def brackets : List BracketForm :=
  [{ opening := "\x7b", closing := "\x7d" },
   { opening := "[", closing := "]" },
   { opening := "(", closing := ")" }]

/-- A backslash joins lines, and makes the next character of a string content. -/
def backslash : String := "\\"

/-- Letters, digits and underscores that do not begin with a digit. -/
def identifier : String := "[_a-zA-Z][_a-zA-Z0-9]*"

/-- A string that begins and ends with the same text and has escapes. -/
def escaped (quote : String) : StringForm := { opening := quote, escape := some backslash }

/-- The templates of a string: names behind a dollar sign, and code in braces behind it. -/
def dollarTemplates (operators : List String) : List TemplateForm :=
  [.reference "$" "[a-zA-Z_][a-zA-Z0-9_]*" operators, .code "$\x7b" "\x7d"]

/-! ### Groovy -/

def groovyOperators : List String :=
  ["+", "-", "*", "/", "%", "**",
   "++", "--",
   "+=", "-=", "*=", "/=", "%=", "**=",
   "==", "!=", "<", "<=", ">", ">=", "===", "!==", "<=>",
   "&&", "||", "!",
   "&", "|", "^", "~",
   "<<", ">>", ">>>",
   "?", "?:",
   "=", "?=",
   ".", "?.", ".@", ".&", "::",
   "=~", "==~",
   "*.", ":",
   "..", "..<",
   "<>",
   "<<=", ">>=", ">>>=", "&=", "^=", "|=",
   "->",
   ",", ";"]

def groovy : Grammar where
  lexicon :=
    { lineJoin := some backslash
      comments := [.line "#!", .line "//", .multiline "/*" "*/"]
      symbols := "[a-zA-Z$_][a-zA-Z0-9$_]*"
      numbers := Numbers.pattern true
      operators := groovyOperators
      brackets
      strings :=
        [escaped "'", escaped "'''",
         { escaped "\"" with templates := dollarTemplates ["."] },
         { escaped "\"\"\"" with templates := dollarTemplates ["."] }] }

/-! ### Python -/

def pythonOperators : List String :=
  ["+", "-", "*", "**", "/", "//", "%", "@",
   "<<", ">>", "&", "|", "^", "~", ":=",
   "<", ">", "<=", ">=", "==", "!=",
   ".", ",", ":", ";", "=", "->", "!",
   "+=", "-=", "*=", "/=", "//=", "%=", "@=",
   "&=", "|=", "^=", ">>=", "<<=", "**="]

/-- The strings of Python that have a given letter in front: with escapes or without, with code
in braces or without. -/
def pythonStrings (letters : String) (escapes formatted : Bool) : List StringForm :=
  ["'''", "\"\"\"", "'", "\""].map fun quote =>
    { opening := letters ++ quote
      closing := some quote
      escape := if escapes then some backslash else none
      templates := if formatted then [.code "\x7b" "\x7d"] else [] }

def python : Grammar where
  lexicon :=
    { lineJoin := some backslash
      comments := [.line "#"]
      symbols := identifier
      numbers := Numbers.pattern true
      operators := pythonOperators
      brackets
      strings :=
        pythonStrings "" true false ++ pythonStrings "b" true false ++
        pythonStrings "u" true false ++ pythonStrings "r" false false ++
        pythonStrings "rb" false false ++ pythonStrings "br" false false ++
        pythonStrings "f" true true ++ pythonStrings "rf" false true }
  layout := { indentBlocks := true }

/-! ### Scala -/

def scalaOperators : List String :=
  ["+", "-", "*", "/", "%", "%%", "%%%", "**",
   "++", "--",
   "+=", "++=", "-=", "*=", "/=", "%=", "**=",
   "==", "!=", "<", "<=", ">", ">=", "===", "!==", "<=>",
   "&&", "||", "!",
   "&", "|", "^", "~",
   "<<", ">>", ">>>",
   "?", "?:",
   ":=", "=", "?=",
   ".", "?.", ".@", ".&", "::", ":::",
   "=~", "==~",
   "*.", ":",
   "..", "..<",
   "<>",
   "<<=", ">>=", ">>>=", "&=", "^=", "|=",
   "->",
   ",", ";"]

/-- A string of Scala with templates behind a letter. -/
def scalaInterpolated (letter : String) : StringForm :=
  { opening := letter ++ "\""
    closing := some "\""
    escape := some backslash
    templates := dollarTemplates [] }

def scala : Grammar where
  lexicon :=
    { lineJoin := some backslash
      comments := [.line "//", .multiline "/*" "*/"]
      symbols := identifier
      numbers := Numbers.pattern false
      operators := scalaOperators
      brackets
      strings :=
        [escaped "\"", { opening := "raw\"", closing := some "\"" },
         scalaInterpolated "s", scalaInterpolated "f"] }

/-! ### Starlark -/

def starlarkOperators : List String :=
  ["+", "-", "*", "//", "%", "**",
   "~", "&", "|", "^", "<<", ">>",
   ".", ",", "=", ";", ":",
   "<", ">", ">=", "<=", "==", "!=",
   "+=", "-=", "*=", "//=", "%=",
   "&=", "|=", "^=", "<<=", ">>="]

/-- The raw strings of Starlark that have given letters in front. -/
def starlarkRaw (letters : String) : List StringForm :=
  ["'", "\""].map fun quote => { opening := letters ++ quote, closing := some quote }

def starlark : Grammar where
  lexicon :=
    { lineJoin := some backslash
      comments := [.line "#"]
      symbols := identifier
      numbers := Numbers.pattern false
      operators := starlarkOperators
      brackets
      strings :=
        ["'", "\"", "'''", "\"\"\""].map escaped ++
        starlarkRaw "r" ++ starlarkRaw "rb" ++ starlarkRaw "br" }
  layout := { indentBlocks := true }

end Nesting.Builtin
