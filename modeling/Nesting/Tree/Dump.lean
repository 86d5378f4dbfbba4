import Nesting.Text.Palette
import Nesting.Text.Quoted
import Nesting.Tree.Basic

/-! # Dumps

A dump shows a node line by line, children two blanks further in than their tree.  A tree's line
holds its kind and the texts of its delimiters, a token's line its kind and its text; a marker
shows its kind alone. -/

namespace Nesting

/-- What a dump shows, and in which colours. -/
structure DumpStyle where
  /-- Tokens show their line and column. -/
  spans : Bool := false
  palette : Palette := .off

namespace DumpStyle

def quoted (s : DumpStyle) (text : String) : String := s.palette.text (Quoting.plain.quote text)

def indent (level : Nat) : String := String.ofList (List.replicate (2 * level) ' ')

def tokenLine (s : DumpStyle) (level : Nat) (t : Token) : String :=
  let content :=
    if t.kind.isMarker then s.palette.detail t.kind.name
    else t.kind.name ++ " " ++ s.quoted t.value
  let span :=
    if s.spans then " " ++ s.palette.detail (toString t.pos.line ++ ":" ++ toString t.pos.col)
    else ""
  indent level ++ content ++ span ++ "\n"

/-- The line of a tree; a closing token without text is not shown. -/
def treeLine (s : DumpStyle) (level : Nat) (kind : TreeKind) (opening closing : Option Token) :
    String :=
  let opening := match opening with
    | some t => " " ++ s.quoted t.value
    | none => ""
  let closing := match closing with
    | some t => if t.isZeroWidth then "" else " " ++ s.quoted t.value
    | none => ""
  indent level ++ s.palette.kind kind.name ++ opening ++ closing ++ "\n"

mutual

def nodeLines (s : DumpStyle) (level : Nat) : Node → List String
  | .token t => [s.tokenLine level t]
  | .tree kind opening closing children =>
    s.treeLine level kind opening closing :: childLines s (level + 1) children

def childLines (s : DumpStyle) (level : Nat) : List Node → List String
  | [] => []
  | n :: ns => nodeLines s level n ++ childLines s level ns

end

def dump (s : DumpStyle) (n : Node) : String := String.join (s.nodeLines 0 n)

def dumpTokens (s : DumpStyle) (ts : List Token) : String :=
  String.join (ts.map (s.tokenLine 0))

end DumpStyle

end Nesting
