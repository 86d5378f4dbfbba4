import Nesting.Grammar
import Nesting.Json.Decode

/-! # Grammars as JSON

`Grammar.toJson` writes every field of a grammar, and `Grammar.decoder` reads what it writes;
a reader may leave out the fields that have a default. -/

namespace Nesting

/-! ### Writing -/

def CommentForm.toJson : CommentForm → Json
  | line opening => .record [("type", .string "line-comment"), ("startsWith", .string opening)]
  | multiline opening closing =>
    .record [("type", .string "multiline-comment"), ("startsWith", .string opening),
      ("endsWith", .string closing)]

def BracketForm.toJson (b : BracketForm) : Json :=
  .record [("startsWith", .string b.opening), ("endsWith", .string b.closing)]

def TemplateForm.toJson : TemplateForm → Json
  | code opening closing =>
    .record [("type", .string "expr"), ("startsWith", .string opening),
      ("endsWith", .string closing)]
  | reference opening symbols operators =>
    .record [("type", .string "var"), ("startsWith", .string opening),
      ("symbols", .string symbols), ("operators", .strings operators)]

def StringForm.toJson (s : StringForm) : Json :=
  .record [("startsWith", .string s.opening), ("endsWith", .optional s.closing),
    ("escapeChar", .optional s.escape), ("templates", .list (s.templates.map (·.toJson)))]

def Lexicon.toJson (l : Lexicon) : Json :=
  .record [("joinLines", .optional l.lineJoin),
    ("comments", .list (l.comments.map (·.toJson))),
    ("symbols", .string l.symbols),
    ("numbers", .string l.numbers),
    ("operators", .strings l.operators),
    ("brackets", .list (l.brackets.map (·.toJson))),
    ("strings", .list (l.strings.map (·.toJson)))]

def Layout.toJson (l : Layout) : Json := .record [("useIndentBlocks", .bool l.indentBlocks)]

def Grammar.toJson (g : Grammar) : Json :=
  .record [("lexer", g.lexicon.toJson), ("parser", g.layout.toJson)]

/-! ### Reading -/

open Decoder

/-- Reads a comment, which lies inside three arrays and objects and is one itself. -/
def CommentForm.decoder : Decoder CommentForm :=
  let opening : RecordField CommentForm := required "startsWith" text fun
    | .line _, s => .line s
    | .multiline _ closing, s => .multiline s closing
  let closing : RecordField CommentForm := required "endsWith" text fun
    | .line opening, _ => .line opening
    | .multiline opening _, s => .multiline opening s
  tagged "CommentOption" (greatestDepth - 4)
    [{ name := "line-comment", owner := "LineComment", fields := [opening], start := .line "" },
     { name := "multiline-comment", owner := "MultilineComment", fields := [opening, closing],
       start := .multiline "" "" }]

def BracketForm.decoder : Decoder BracketForm :=
  record "BracketOption"
    [required "startsWith" text fun b s => { b with opening := s },
     required "endsWith" text fun b s => { b with closing := s }]
    { opening := "", closing := "" }

/-- Reads a template, which lies inside five arrays and objects and is one itself. -/
def TemplateForm.decoder : Decoder TemplateForm :=
  let opening : RecordField TemplateForm := required "startsWith" text fun
    | .code _ closing, s => .code s closing
    | .reference _ symbols operators, s => .reference s symbols operators
  let closing : RecordField TemplateForm := required "endsWith" text fun
    | .code opening _, s => .code opening s
    | t, _ => t
  let symbols : RecordField TemplateForm := required "symbols" text fun
    | .reference opening _ operators, s => .reference opening s operators
    | t, _ => t
  let operators : RecordField TemplateForm := defaulted "operators" (list text) fun
    | .reference opening symbols _, ss => .reference opening symbols ss
    | t, _ => t
  tagged "TemplateOption" (greatestDepth - 6)
    [{ name := "expr", owner := "Expr", fields := [opening, closing], start := .code "" "" },
     { name := "var", owner := "Var", fields := [opening, symbols, operators],
       start := .reference "" "" [] }]

def StringForm.decoder : Decoder StringForm :=
  record "StringOption"
    [required "startsWith" text fun f s => { f with opening := s },
     defaulted "endsWith" (optional text) fun f s => { f with closing := s },
     defaulted "escapeChar" (optional text) fun f s => { f with escape := s },
     defaulted "templates" (list TemplateForm.decoder) fun f ts => { f with templates := ts }]
    { opening := "" }

def Lexicon.decoder : Decoder Lexicon :=
  record "LexerConfig"
    [defaulted "joinLines" (optional text) fun l s => { l with lineJoin := s },
     defaulted "comments" (list CommentForm.decoder) fun l cs => { l with comments := cs },
     required "symbols" text fun l s => { l with symbols := s },
     required "numbers" text fun l s => { l with numbers := s },
     defaulted "operators" (list text) fun l ops => { l with operators := ops },
     defaulted "brackets" (list BracketForm.decoder) fun l bs => { l with brackets := bs },
     defaulted "strings" (list StringForm.decoder) fun l ss => { l with strings := ss }]
    { symbols := "", numbers := "" }

def Layout.decoder : Decoder Layout :=
  record "ParserConfig"
    [defaulted "useIndentBlocks" boolean fun l b => { l with indentBlocks := b }] {}

def Grammar.decoder : Decoder Grammar :=
  record "LanguageConfig"
    [required "lexer" Lexicon.decoder fun g l => { g with lexicon := l },
     defaulted "parser" Layout.decoder fun g l => { g with layout := l }]
    { lexicon := { symbols := "", numbers := "" } }

end Nesting
