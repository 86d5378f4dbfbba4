import Nesting.Json.Basic

/-! # Reading JSON

`Json.read` reads a text from left to right and leaves faults in the value at the point where it
meets them; it goes on behind a number that is too great and half of a surrogate pair, and stops
at everything else (`JsonFault`).  Texts hold no raw control characters; numbers have no leading
zeros. -/

namespace Nesting.Json.Reader

/-- A reader of one part: its value and the text after it. -/
abbrev Result (α : Type) := Except JsonFault (α × List Char)

def skipBlanks (cs : List Char) : List Char :=
  cs.dropWhile fun c => c = ' ' || c = '\n' || c = '\t' || c = '\r'

/-! ### Texts -/

def hexValue? (c : Char) : Option Nat :=
  if c.isDigit then some (c.toNat - '0'.toNat)
  else if 'a' ≤ c && c ≤ 'f' then some (c.toNat - 'a'.toNat + 10)
  else if 'A' ≤ c && c ≤ 'F' then some (c.toNat - 'A'.toNat + 10)
  else none

def fourDigits (cs : List Char) : Result Nat :=
  if (String.ofList (cs.take 4)).utf8ByteSize < 4 then .error .truncated
  else
    match (cs.take 4).mapM hexValue? with
    | some ds => .ok (ds.foldl (fun n d => 16 * n + d) 0, cs.drop 4)
    | none => .error .malformed

def isHighSurrogate (n : Nat) : Bool := 0xD800 ≤ n && n < 0xDC00

def isLowSurrogate (n : Nat) : Bool := 0xDC00 ≤ n && n < 0xE000

/-- The character of a surrogate pair whose second half should follow as an escape of its own;
none if something else follows. -/
def secondHalf (high : Nat) (cs : List Char) : Result (Option Char) :=
  match cs with
  | '\\' :: 'u' :: rest =>
    match fourDigits rest with
    | .error fault => .error fault
    | .ok (low, rest) =>
      if isLowSurrogate low then
        .ok (some (Char.ofNat (0x10000 + (high - 0xD800) * 0x400 + (low - 0xDC00))), rest)
      else .ok (none, cs)
  | [] => .error .truncated
  | ['\\'] => .error .truncated
  | _ => .ok (none, cs)

/-- The character of a numeric escape; none for half of a surrogate pair. -/
def numericEscape (cs : List Char) : Result (Option Char) :=
  match fourDigits cs with
  | .error fault => .error fault
  | .ok (n, rest) =>
    if isLowSurrogate n then .ok (none, rest)
    else if isHighSurrogate n then secondHalf n rest
    else .ok (some (Char.ofNat n), rest)

/-- The character of an escape, after the backslash; none for half of a surrogate pair. -/
def escape : List Char → Result (Option Char)
  | [] => .error .truncated
  | 'u' :: cs => numericEscape cs
  | c :: cs =>
    match c with
    | '"' => .ok (some '"', cs)
    | '\\' => .ok (some '\\', cs)
    | '/' => .ok (some '/', cs)
    | 'b' => .ok (some '\x08', cs)
    | 'f' => .ok (some '\x0c', cs)
    | 'n' => .ok (some '\n', cs)
    | 'r' => .ok (some '\r', cs)
    | 't' => .ok (some '\t', cs)
    | _ => .error .malformed

/-- Stops at a fault, unless what has been read has no meaning already. -/
def stopAfter {α : Type} (done : Option (List Char)) (fault : JsonFault) : Result α :=
  .error (if done.isSome then fault else .meaningless fault.whenSkipped?)

/-- A text after its opening quote; `done` holds what has been read of it, the latest first, and
nothing once it has no meaning. -/
def textFrom : Nat → Option (List Char) → List Char → Result (Option String)
  | 0, done, _ => stopAfter done .truncated
  | fuel + 1, done, cs =>
    match cs with
    | [] => stopAfter done .truncated
    | '"' :: cs => .ok (done.map fun done => String.ofList done.reverse, cs)
    | '\\' :: cs =>
      match escape cs with
      | .error fault => stopAfter done fault
      | .ok (c?, rest) => textFrom fuel (c?.bind fun c => done.map (c :: ·)) rest
    | c :: cs =>
      if c.toNat < 0x20 then stopAfter done .malformed
      else textFrom fuel (done.map (c :: ·)) cs

/-- A text after its opening quote; none if it holds half of a surrogate pair. -/
def text (cs : List Char) : Result (Option String) := textFrom (cs.length + 1) (some []) cs

/-! ### Numbers -/

/-- The greatest whole number that is kept as it is. -/
def greatestNatural : Nat := Nat.pow 2 64 - 1

def digitValue (c : Char) : Nat := c.toNat - '0'.toNat

/-- Digits before the point: their value as far as it is small enough, how many digits follow
that are left out of it, and the text after them. -/
def wholePart (value : Nat) : List Char → Nat × Nat × List Char
  | [] => (value, 0, [])
  | c :: cs =>
    if c.isDigit then
      let next := 10 * value + digitValue c
      if next ≤ greatestNatural then wholePart next cs
      else (value, 1 + (cs.takeWhile Char.isDigit).length, cs.dropWhile Char.isDigit)
    else (value, 0, c :: cs)

/-- Digits after the point, appended to a value as long as it is small enough: the value, how
many digits were appended, and the text after all of them. -/
def fractionPart (value appended : Nat) : List Char → Nat × Nat × List Char
  | [] => (value, appended, [])
  | c :: cs =>
    if c.isDigit then
      let next := 10 * value + digitValue c
      if next ≤ greatestNatural then fractionPart next (appended + 1) cs
      else (value, appended, cs.dropWhile Char.isDigit)
    else (value, appended, c :: cs)

/-- A rounded number; none if it is too great. -/
def rounded (isNegative : Bool) (value : Nat) (power : Int) (rest : List Char) :
    Result (Option JsonNumber) :=
  .ok ((Double.ofDecimal? value power).map (.float isNegative), rest)

def greatestExponent : Nat := Nat.pow 2 31 - 1

/-- An exponent, after its letter. -/
def exponent (isNegative : Bool) (value : Nat) (power : Int) (cs : List Char) :
    Result (Option JsonNumber) :=
  let (isBelow, cs) : Bool × List Char := match cs with
    | '+' :: cs => (false, cs)
    | '-' :: cs => (true, cs)
    | cs => (false, cs)
  let digits := cs.takeWhile Char.isDigit
  let rest := cs.dropWhile Char.isDigit
  if digits.isEmpty then .error (if rest.isEmpty then .truncatedNumber else .malformed)
  else
    let n := digits.foldl (fun n c => 10 * n + digitValue c) 0
    if greatestExponent < n then
      if value ≠ 0 && !isBelow then .ok (none, rest)
      else .ok (some (.float isNegative { mantissa := 0, exponent := 0 }), rest)
    else rounded isNegative value (if isBelow then power - n else power + n) rest

/-- What may follow the digits of a number that has to be rounded. -/
def exponentOrEnd (isNegative : Bool) (value : Nat) (power : Int) (cs : List Char) :
    Result (Option JsonNumber) :=
  match cs with
  | 'e' :: cs => exponent isNegative value power cs
  | 'E' :: cs => exponent isNegative value power cs
  | cs => rounded isNegative value power cs

/-- A number that has no point and no exponent. -/
def whole (isNegative : Bool) (value : Nat) (rest : List Char) :
    Result (Option JsonNumber) :=
  if !isNegative then .ok (some (.natural value), rest)
  else if value = 0 || Nat.pow 2 63 < value then rounded true value 0 rest
  else .ok (some (.negative value), rest)

/-- What follows the digits before the point, `dropped` of which are not part of the value. -/
def afterWhole (isNegative : Bool) (value dropped : Nat) (cs : List Char) :
    Result (Option JsonNumber) :=
  match cs with
  | '.' :: cs =>
    match cs with
    | [] => .error .truncatedNumber
    | c :: _ =>
      if c.isDigit then
        let (value, appended, rest) := fractionPart value 0 cs
        exponentOrEnd isNegative value (dropped - appended : Int) rest
      else .error .malformed
  | 'e' :: cs => exponent isNegative value dropped cs
  | 'E' :: cs => exponent isNegative value dropped cs
  | cs => if dropped = 0 then whole isNegative value cs else rounded isNegative value dropped cs

/-- A number after its sign; none if it is too great. -/
def number (isNegative : Bool) (cs : List Char) : Result (Option JsonNumber) :=
  match cs with
  | [] => .error .truncatedNumber
  | '0' :: cs =>
    if cs.head?.any Char.isDigit then .error .malformed else afterWhole isNegative 0 0 cs
  | c :: _ =>
    if c.isDigit then
      let (value, dropped, rest) := wholePart 0 cs
      afterWhole isNegative value dropped rest
    else .error .malformed

/-! ### Values -/

def word (value : Json) : List Char → List Char → Result (Option Json)
  | [], cs => .ok (some value, cs)
  | _ :: _, [] => .error .truncatedWord
  | w :: ws, c :: cs => if w = c then word value ws cs else .error .malformed

/-- A value and the text after it; no text is left once reading has stopped at a fault. -/
structure Reading (α : Type) where
  value : α
  rest : Option (List Char)

/-- A part that holds no other values. -/
def leaf {α : Type} (make : α → Json) (r : Result (Option α)) : Reading Json :=
  match r with
  | .ok (some a, rest) => ⟨make a, some rest⟩
  | .ok (none, rest) => ⟨.broken (.meaningless none), some rest⟩
  | .error fault => ⟨.broken fault, none⟩

/-- The items of an array, or the members of an object, and the fault behind them. -/
abbrev Parts (α : Type) := Reading (List α × Option JsonFault)

def Parts.stop {α : Type} (fault : JsonFault) : Parts α := ⟨([], some fault), none⟩

/-- A first part in front of more parts, unless reading has stopped in it. -/
def Parts.cons {α : Type} (first : α) (rest : Option (List Char))
    (more : List Char → Parts α) : Parts α :=
  match rest with
  | none => ⟨([first], none), none⟩
  | some cs =>
    let r := more cs
    ⟨(first :: r.value.1, r.value.2), r.rest⟩

/-- A member whose key has no meaning: no more members, and a fault. -/
def Parts.afterKey (rest : Option (List Char)) (value : Json)
    (more : List Char → Parts (String × Json)) : Parts (String × Json) :=
  let r := Parts.cons ("", value) rest more
  ⟨([], some (.meaningless (Json.skipped? (.object r.value.1 r.value.2)))), r.rest⟩

/-- What stands before the next part of an array or an object: its closing character, a comma, or
nothing before the first part. -/
def separator (closing : Char) (isFirst : Bool) (cs : List Char) :
    Except JsonFault (Option (List Char) × List Char) :=
  match skipBlanks cs with
  | [] => .error .truncated
  | c :: rest =>
    if c = closing then .ok (none, rest)
    else if isFirst then .ok (some (c :: rest), rest)
    else if c = ',' then
      match skipBlanks rest with
      | [] => .error .truncatedAfterComma
      | d :: ds => if d = closing then .error .malformed else .ok (some (d :: ds), ds)
    else .error .malformed

def colon (cs : List Char) : Except JsonFault (List Char) :=
  match skipBlanks cs with
  | [] => .error .truncated
  | ':' :: rest => .ok rest
  | _ => .error .malformed

mutual

/-- A value. Every step consumes a character, so the length of the text bounds the fuel. -/
def value : Nat → List Char → Reading Json
  | 0, _ => ⟨.broken .truncated, none⟩
  | fuel + 1, cs =>
    match skipBlanks cs with
    | [] => ⟨.broken .truncated, none⟩
    | 'n' :: cs => leaf id (word .null ['u', 'l', 'l'] cs)
    | 't' :: cs => leaf id (word (.bool true) ['r', 'u', 'e'] cs)
    | 'f' :: cs => leaf id (word (.bool false) ['a', 'l', 's', 'e'] cs)
    | '"' :: cs => leaf .string (text cs)
    | '-' :: cs => leaf .number (number true cs)
    | '[' :: cs =>
      let r := items fuel true cs
      ⟨.array r.value.1 r.value.2, r.rest⟩
    | '\x7b' :: cs =>
      let r := members fuel true cs
      ⟨.object r.value.1 r.value.2, r.rest⟩
    | c :: cs =>
      if c.isDigit then leaf .number (number false (c :: cs))
      else ⟨.broken .malformed, none⟩

def items : Nat → Bool → List Char → Parts Json
  | 0, _, _ => Parts.stop .truncated
  | fuel + 1, isFirst, cs =>
    match separator ']' isFirst cs with
    | .error fault => Parts.stop fault
    | .ok (none, rest) => ⟨([], none), some rest⟩
    | .ok (some cs, _) =>
      let r := value fuel cs
      Parts.cons r.value r.rest (items fuel false)

def members : Nat → Bool → List Char → Parts (String × Json)
  | 0, _, _ => Parts.stop .truncated
  | fuel + 1, isFirst, cs =>
    match separator '\x7d' isFirst cs with
    | .error fault => Parts.stop fault
    | .ok (none, rest) => ⟨([], none), some rest⟩
    | .ok (some ('"' :: cs), _) =>
      match text cs with
      | .error fault => Parts.stop fault
      | .ok (key?, rest) =>
        let r : Reading Json := match colon rest with
          | .error fault => ⟨.broken fault, none⟩
          | .ok rest => value fuel rest
        match key? with
        | some key => Parts.cons (key, r.value) r.rest (members fuel false)
        | none => Parts.afterKey r.rest r.value (members fuel false)
    | .ok (some _, _) => Parts.stop .malformed

end

end Nesting.Json.Reader

namespace Nesting.Json

/-- The value of a text, and the fault behind it. -/
def read (s : String) : Json × Option JsonFault :=
  let cs := s.toList
  let r := Reader.value (2 * cs.length + 2) cs
  match r.rest with
  | none => (r.value, none)
  | some rest => (r.value, if (Reader.skipBlanks rest).isEmpty then none else some .malformed)

end Nesting.Json
