import Nesting.Grammar.Json
import Nesting.Language.Builtin
import Nesting.Lexer.Tokenize
import Nesting.Tree.Build

/-! # Languages

A `Language` is a grammar with a name and the rule table that it compiles to.  It turns a source
into tokens and into a tree.  Four languages are built in and found by name or by file extension,
without regard to case; others are loaded from JSON. -/

namespace Nesting

/-- A compiled grammar. -/
structure Language where
  name : String
  grammar : Grammar
  rules : RuleTable

namespace Language

def ofGrammar (name : String) (grammar : Grammar) : Except GrammarError Language := do
  return { name, grammar, rules := ← RuleTable.ofLexicon grammar.lexicon }

def tokenize (l : Language) (source : String) : List Token := l.rules.tokenize source

def parse (l : Language) (source : String) : Except BuildError Tree :=
  Tree.ofTokens l.grammar.layout (l.tokenize source)

def describe (l : Language) : String :=
  "Lang \x7b name: " ++ Quoting.full.quote l.name ++ ", .. \x7d"

end Language

/-! ### Built-in languages -/

/-- What a built-in language goes by. -/
structure LanguageEntry where
  name : String
  /-- The names that the language is found by, its own name first. -/
  aliases : List String
  extensions : List String
  grammar : Grammar

namespace LanguageEntry

def all : List LanguageEntry :=
  [{ name := "groovy", aliases := ["groovy", "gradle"],
     extensions := ["groovy", "gradle", "gvy", "gy", "gsh"], grammar := Builtin.groovy },
   { name := "python", aliases := ["python", "py", "python3"],
     extensions := ["py", "pyi", "pyw"], grammar := Builtin.python },
   { name := "scala", aliases := ["scala"],
     extensions := ["scala", "sc", "sbt"], grammar := Builtin.scala },
   { name := "starlark", aliases := ["starlark", "star", "bazel", "bzl"],
     extensions := ["star", "bzl", "bazel", "sky"], grammar := Builtin.starlark }]

/-- A text with the capital letters of the first alphabet made small. -/
def lowered (s : String) : String := String.ofList (s.toList.map Char.toLower)

def ofName? (s : String) : Option LanguageEntry :=
  all.find? fun e => e.aliases.contains (lowered s)

def ofExtension? (s : String) : Option LanguageEntry :=
  all.find? fun e => e.extensions.contains (lowered s)

def compile (e : LanguageEntry) : Except GrammarError Language :=
  Language.ofGrammar e.name e.grammar

end LanguageEntry

/-! ### Loading -/

/-- Why a text describes no language. -/
inductive LoadError
  | json (e : JsonError)
  | grammar (e : GrammarError)

namespace Language

def ofJson (name text : String) : Except LoadError Language :=
  match Decoder.run Grammar.decoder text with
  | .error e => .error (.json e)
  | .ok grammar =>
    match ofGrammar name grammar with
    | .error e => .error (.grammar e)
    | .ok l => .ok l

end Language

end Nesting
