import Nesting.Json.Decode
import Nesting.Tree.Basic

/-! # Tokens and trees as JSON

Every node is an object that begins with its kind.  Tokens can be read back. -/

namespace Nesting

/-! ### Writing -/

def Token.toJson (t : Token) : Json :=
  .record [("type", .string t.kind.name), ("value", .string t.value),
    ("offset", .nat t.pos.offset), ("line", .nat t.pos.line), ("col", .nat t.pos.col),
    ("lineBreaks", .nat t.lineBreaks)]

namespace Node

def delimiterToJson (name : String) : Option Token → List (String × Json)
  | none => []
  | some t => [(name, t.toJson)]

mutual

def toJson : Node → Json
  | .token t => t.toJson
  | .tree kind opening closing children =>
    .record <|
      ("type", .string kind.name) ::
        (delimiterToJson "startsWith" opening ++ delimiterToJson "endsWith" closing ++
          [("children", .list (toJsonAll children))])

def toJsonAll : List Node → List Json
  | [] => []
  | n :: ns => toJson n :: toJsonAll ns

end

end Node

/-! ### Reading -/

namespace TokenKind

/-- The kind of a name that a text gives. -/
def named (s : String) : Except JsonError TokenKind :=
  match ofName? s with
  | some kind => .ok kind
  | none => .error (.unknownVariant s (all.map name))

/-- Reads a kind: its name, or an object whose only key is its name and whose value is null. -/
def decoder : Decoder TokenKind
  | .string s => named s
  | .broken .truncated => .error .truncated
  | .object ((key, j) :: rest) cut => do
    let kind ← named key
    match j with
    | .null =>
      match rest, cut with
      | [], none => return kind
      | [], some .truncated => throw .truncated
      | _, _ => throw .malformed
    | j => Decoder.reject .unit j
  | .object [] (some fault) => .error (.ofFault fault)
  | _ => .error .malformed

end TokenKind

open Decoder in
def Token.decoder : Decoder Token :=
  record "Token"
    [required "type" TokenKind.decoder fun t k => { t with kind := k },
     required "value" text fun t s => { t with value := s },
     required "offset" count fun t n => { t with pos := { t.pos with offset := n } },
     required "line" count fun t n => { t with pos := { t.pos with line := n } },
     required "col" count fun t n => { t with pos := { t.pos with col := n } },
     required "lineBreaks" count fun t n => { t with lineBreaks := n }]
    { kind := .unknown, value := "", pos := {}, lineBreaks := 0 }

end Nesting
