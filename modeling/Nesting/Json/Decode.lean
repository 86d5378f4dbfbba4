import Nesting.Json.Reader

/-! # Decoding JSON values

A decoder turns a value into a value of some type, or says why it cannot (`JsonError`).  It walks
over the value in the order of the text, so of several faults the first one is reported; that a
field is missing shows only at the end of its object.

Records (`record`) are objects, in which unknown fields are passed over, or arrays of their
fields in order.  Tagged records (`tagged`) name their variant in a field of its own. -/

namespace Nesting

/-! ### Errors -/

/-- What a decoder asked for. -/
inductive JsonShape
  | string
  | boolean
  | sequence
  | count
  | unit
  | record (name : String)
  | tagged (name : String)
  | variantName
  deriving DecidableEq, Repr

def JsonShape.describe : JsonShape → String
  | string => "a string"
  | boolean => "a boolean"
  | sequence => "a sequence"
  | count => "usize"
  | unit => "unit"
  | record name => "struct " ++ name
  | tagged name => "internally tagged enum " ++ name
  | variantName => "variant identifier"

/-- Why a text is no value of a type. -/
inductive JsonError
  | malformed
  | truncated
  | missingField (name : String)
  | duplicateField (name : String)
  | invalidType (found : Json) (expected : JsonShape)
  /-- A count below zero, given without its sign. -/
  | negativeCount (n : Nat)
  | unknownVariant (name : String) (known : List String)
  | invalidLength (found : Nat) (owner : String) (expected : Nat)
  /-- A sequence of a known length has further items. -/
  | surplusItems (found expected : Nat)
  deriving Repr

namespace JsonError

/-- The error of a fault of the text. -/
def ofFault : JsonFault → JsonError
  | .malformed | .meaningless _ => malformed
  | .truncated | .truncatedAfterComma | .truncatedWord | .truncatedNumber => truncated

/-- The error of a value that is passed over and in which reading stops. -/
def ofStop : JsonStop → JsonError
  | .malformed => malformed
  | .truncated => truncated

def describeFound : Json → String
  | .null => "null"
  | .bool b => "boolean `" ++ (if b then "true" else "false") ++ "`"
  | .number (.float isNegative d) => "floating point `" ++ d.render isNegative ++ "`"
  | .number n => "integer `" ++ String.ofList (Json.numberText n) ++ "`"
  | .string s => "string " ++ Quoting.full.quote s
  | .array .. => "sequence"
  | .object .. => "map"
  | .broken _ => ""

def describeKnown (known : List String) : String :=
  match known.map fun name => "`" ++ name ++ "`" with
  | [a] => a
  | [a, b] => a ++ " or " ++ b
  | names => "one of " ++ ", ".intercalate names

def describeCount (n : Nat) : String :=
  toString n ++ (if n = 1 then " element" else " elements")

/-- The message for the user; faults of the text have none. -/
def message : JsonError → String
  | malformed | truncated => ""
  | missingField name => "missing field `" ++ name ++ "`"
  | duplicateField name => "duplicate field `" ++ name ++ "`"
  | invalidType found expected =>
    "invalid type: " ++ describeFound found ++ ", expected " ++ expected.describe
  | negativeCount n =>
    "invalid value: integer `-" ++ toString n ++ "`, expected " ++ JsonShape.count.describe
  | unknownVariant name known =>
    "unknown variant `" ++ name ++ "`, expected " ++ describeKnown known
  | invalidLength found owner expected =>
    "invalid length " ++ toString found ++ ", expected " ++ owner ++ describeCount expected
  | surplusItems found expected =>
    "invalid length " ++ toString found ++ ", expected " ++ describeCount expected ++
      " in sequence"

end JsonError

/-! ### Decoders -/

/-- A way to read values of a type. -/
abbrev Decoder (α : Type) := Json → Except JsonError α

namespace Decoder

/-- Rejects a value that has the wrong shape, or a fault. -/
def reject {α : Type} (expected : JsonShape) : Decoder α
  | .broken fault => .error (.ofFault fault)
  | j => .error (.invalidType j expected)

def passFault : Option JsonFault → Except JsonError Unit
  | none => .ok ()
  | some fault => .error (.ofFault fault)

def text : Decoder String
  | .string s => .ok s
  | j => reject .string j

def boolean : Decoder Bool
  | .bool b => .ok b
  | j => reject .boolean j

def count : Decoder Nat
  | .number (.natural n) => .ok n
  | .number (.negative n) => .error (.negativeCount n)
  | j => reject .count j

/-- A value or null. -/
def optional {α : Type} (d : Decoder α) : Decoder (Option α)
  | .null => .ok none
  | j => some <$> d j

def list {α : Type} (d : Decoder α) : Decoder (List α)
  | .array items cut => do
    let values ← items.mapM d
    passFault cut
    return values
  | j => reject .sequence j

/-! ### Records -/

/-- A field of a record of type `α`. -/
structure RecordField (α : Type) where
  name : String
  required : Bool
  /-- Sets the field. -/
  read : α → Json → Except JsonError α

def required {α β : Type} (name : String) (d : Decoder β) (set : α → β → α) : RecordField α :=
  { name, required := true, read := fun a j => set a <$> d j }

def defaulted {α β : Type} (name : String) (d : Decoder β) (set : α → β → α) : RecordField α :=
  { name, required := false, read := fun a j => set a <$> d j }

/-- Reads the members of an object one after the other; `seen` holds the fields that have been
read. -/
def membersFrom {α : Type} (fields : List (RecordField α)) (seen : List String) (a : α) :
    List (String × Json) → Except JsonError (List String × α)
  | [] => .ok (seen, a)
  | (key, j) :: rest => do
    match fields.find? (·.name == key) with
    | none =>
      if let some stop := j.skipped? then throw (.ofStop stop)
      membersFrom fields seen a rest
    | some field =>
      if seen.contains key then throw (.duplicateField key)
      membersFrom fields (key :: seen) (← field.read a j) rest

/-- A record written as an object. -/
def ofMembers {α : Type} (fields : List (RecordField α)) (start : α) (members : List (String × Json))
    (cut : Option JsonFault) : Except JsonError α := do
  let (seen, a) ← membersFrom fields [] start members
  passFault cut
  match fields.find? fun field => field.required && !seen.contains field.name with
  | some field => throw (.missingField field.name)
  | none => return a

/-- A record written as an array: its fields in order, of which those at the end may be missing.
The items that are left and the fault behind them come with it. -/
def itemsFrom {α : Type} (owner : String) (total index : Nat) (cut : Option JsonFault) (a : α) :
    List (RecordField α) → List Json → Except JsonError (α × List Json)
  | [], items => .ok (a, items)
  | field :: fields, [] => do
    passFault cut
    if field.required then throw (.invalidLength index owner total)
    itemsFrom owner total (index + 1) cut a fields []
  | field :: fields, j :: items => do
    itemsFrom owner total (index + 1) cut (← field.read a j) fields items

/-- The end of an array that holds all fields of a record. -/
def endOfItems (items : List Json) (cut : Option JsonFault) : Except JsonError Unit :=
  match items, cut with
  | [], none => .ok ()
  | [], some .truncated => .error .truncated
  | _, _ => .error .malformed

/-- A record, as an object or as an array. -/
def record {α : Type} (name : String) (fields : List (RecordField α)) (start : α) : Decoder α
  | .object members cut => ofMembers fields start members cut
  | .array items cut => do
    let (a, items) ← itemsFrom ("struct " ++ name ++ " with ") fields.length 0 cut start fields items
    endOfItems items cut
    return a
  | j => reject (.record name) j

/-! ### Tagged records -/

/-- How many arrays and objects may lie inside each other, except in what is passed over. -/
def greatestDepth : Nat := 127

/-- Keeps a value for later, which may hold `room` arrays and objects inside each other. -/
def keep (room : Nat) (j : Json) : Except JsonError Unit :=
  if room < j.depth then .error .malformed else passFault j.fault?

structure Variant (α : Type) where
  name : String
  /-- How the variant is called in messages about its length. -/
  owner : String
  fields : List (RecordField α)
  start : α

def tag {α : Type} (variants : List (Variant α)) : Decoder (Variant α)
  | .string s =>
    match variants.find? (·.name == s) with
    | some v => .ok v
    | none => .error (.unknownVariant s (variants.map (·.name)))
  | j => reject .variantName j

/-- The field that names the variant. -/
def tagField : String := "type"

/-- Reads the members of a tagged record: the variant and the other members, whose faults are
reported here and whose contents are left for later.  There is room for `room` arrays and objects
inside each of them. -/
def taggedMembers {α : Type} (variants : List (Variant α)) (room : Nat)
    (variant : Option (Variant α)) :
    List (String × Json) → Except JsonError (Option (Variant α) × List (String × Json))
  | [] => .ok (variant, [])
  | (key, j) :: rest => do
    if key = tagField then
      if variant.isSome then throw (.duplicateField key)
      taggedMembers variants room (some (← tag variants j)) rest
    else
      keep room j
      let (variant, members) ← taggedMembers variants room variant rest
      return (variant, (key, j) :: members)

/-- A tagged record, as an object or as an array that begins with the tag. -/
def tagged {α : Type} (name : String) (room : Nat) (variants : List (Variant α)) : Decoder α
  | .object members cut => do
    let (variant, members) ← taggedMembers variants room none members
    passFault cut
    match variant with
    | none => throw (.missingField tagField)
    | some v => ofMembers v.fields v.start members none
  | .array items cut => do
    match items with
    | [] =>
      passFault cut
      throw (.missingField tagField)
    | j :: items =>
      let v ← tag variants j
      items.forM (keep room)
      passFault cut
      let (a, more) ←
        itemsFrom ("struct variant " ++ name ++ "::" ++ v.owner ++ " with ") v.fields.length 0 none
          v.start v.fields items
      if more.isEmpty then return a
      else throw (.surplusItems items.length v.fields.length)
  | j => reject (.tagged name) j

/-! ### Whole texts -/

def run {α : Type} (d : Decoder α) (s : String) : Except JsonError α := do
  let (j, after) := Json.read s
  let a ← d j
  passFault after
  return a

end Decoder

end Nesting
