/-! # Numbers of double precision

A `Double` is a number `mantissa * 2 ^ exponent` that is not negative; those made by
`Double.nearest?` have at most 53 binary digits.  All arithmetic here is on natural numbers.

`Double.digits` is the decimal number with the fewest digits that lies closer to a double than
to any other, and `Double.render` writes it. -/

namespace Nesting

/-- The number `mantissa * 2 ^ exponent`. -/
structure Double where
  mantissa : Nat
  exponent : Int
  deriving DecidableEq, Repr, Inhabited

namespace Double

/-! ### Fractions -/

structure Fraction where
  num : Nat
  den : Nat

def Fraction.scale (f : Fraction) (base : Nat) (power : Int) : Fraction :=
  if 0 ≤ power then { f with num := f.num * Nat.pow base power.toNat }
  else { f with den := f.den * Nat.pow base (-power).toNat }

def Fraction.below (f g : Fraction) : Bool := f.num * g.den < g.num * f.den

def toFraction (d : Double) : Fraction :=
  Fraction.scale { num := d.mantissa, den := 1 } 2 d.exponent

/-! ### Rounding -/

def leastExponent : Int := -1074

/-- The quotient of a fraction, where a half goes to the even neighbour. -/
def Fraction.rounded (f : Fraction) : Nat :=
  let q := f.num / f.den
  let twice := 2 * (f.num % f.den)
  if twice < f.den then q
  else if f.den < twice then q + 1
  else if q % 2 = 0 then q else q + 1

/-- The exponent at which a fraction has 53 binary digits before the point. -/
def exponentOf (f : Fraction) : Int :=
  let guess : Int := (Nat.log2 f.num : Int) - (Nat.log2 f.den : Int) - 52
  let digits := Nat.log2 ((f.scale 2 (-guess)).num / (f.scale 2 (-guess)).den)
  if digits < 52 then guess - 1 else guess

/-- The double nearest to a fraction; none if it is too great. -/
def nearest? (f : Fraction) : Option Double :=
  if f.num = 0 then some { mantissa := 0, exponent := 0 }
  else
    let exponent := max (exponentOf f) leastExponent
    let d : Double := { mantissa := (f.scale 2 (-exponent)).rounded, exponent }
    if Fraction.below d.toFraction { num := Nat.pow 2 1024, den := 1 } then some d else none

/-- The double nearest to a power of ten. -/
def tenTo (n : Nat) : Fraction :=
  match nearest? { num := Nat.pow 10 n, den := 1 } with
  | some d => d.toFraction
  | none => { num := Nat.pow 10 n, den := 1 }

def times? (d : Double) (f : Fraction) : Option Double :=
  let g := d.toFraction
  nearest? { num := g.num * f.num, den := g.den * f.den }

def over? (d : Double) (f : Fraction) : Option Double :=
  d.times? { num := f.den, den := f.num }

/-- The greatest power of ten that one step multiplies or divides by. -/
def greatestPower : Nat := 308

/-- Divides by powers of ten, in steps while the power is too great for one. -/
def divideByTens : Nat → Double → Nat → Option Double
  | 0, d, _ => some d
  | fuel + 1, d, n =>
    if n ≤ greatestPower then d.over? (tenTo n)
    else if d.mantissa = 0 then some d
    else do divideByTens fuel (← d.over? (tenTo greatestPower)) (n - greatestPower)

/-- The number `significand * 10 ^ power`: the significand is rounded first, then the product. -/
def ofDecimal? (significand : Nat) (power : Int) : Option Double := do
  let d ← nearest? { num := significand, den := 1 }
  if 0 ≤ power then
    let n := power.toNat
    if n ≤ greatestPower then d.times? (tenTo n)
    else if d.mantissa = 0 then some d
    else none
  else divideByTens 4 d (-power).toNat

/-! ### The shortest decimal -/

/-- A double with as many binary digits before the point as it can have. -/
def normalized (d : Double) : Double :=
  if d.mantissa = 0 then d
  else
    let shift := min (52 - Nat.log2 d.mantissa) (d.exponent - leastExponent).toNat
    { mantissa := d.mantissa * Nat.pow 2 shift, exponent := d.exponent - shift }

/-- The bounds of the numbers that round to a double, and whether they do so themselves. -/
def bounds (d : Double) : Fraction × Fraction × Bool :=
  let atEdge := d.mantissa = Nat.pow 2 52 && leastExponent < d.exponent
  let low : Double :=
    if atEdge then { mantissa := 4 * d.mantissa - 1, exponent := d.exponent - 2 }
    else { mantissa := 2 * d.mantissa - 1, exponent := d.exponent - 1 }
  let high : Double := { mantissa := 2 * d.mantissa + 1, exponent := d.exponent - 1 }
  (low.toFraction, high.toFraction, d.mantissa % 2 = 0)

/-- The power of ten of the first digit of a fraction that is below one. -/
def firstDigitBelowOne (f : Fraction) : Nat → Int
  | 0 => 0
  | fuel + 1 =>
    if f.num < f.den then firstDigitBelowOne { f with num := 10 * f.num } fuel - 1 else 0

def firstDigit (f : Fraction) : Int :=
  if f.den ≤ f.num then (Nat.toDigits 10 (f.num / f.den)).length - 1
  else firstDigitBelowOne f 400

/-- The decimal with the given number of digits that is nearest to a double among those that
round to it. -/
def digitsOf? (d : Double) (count : Nat) : Option (Nat × Int) :=
  let f := d.toFraction
  let (low, high, closed) := d.bounds
  let power := firstDigit f - count + 1
  let grid := f.scale 10 (-power)
  let down := grid.num / grid.den
  let rounds (n : Nat) : Bool :=
    let g := Fraction.scale { num := n, den := 1 } 10 power
    (Fraction.below low g && Fraction.below g high) ||
      (closed && !Fraction.below g low && !Fraction.below high g)
  let upIsNearer := grid.den < 2 * (grid.num % grid.den)
  match rounds down, rounds (down + 1) with
  | true, true => some (if upIsNearer then down + 1 else down, power)
  | true, false => some (down, power)
  | false, true => some (down + 1, power)
  | false, false => none

/-- A decimal without the zeros at its end. -/
def stripZeros : Nat → Nat × Int → Nat × Int
  | 0, d => d
  | fuel + 1, (n, power) =>
    if n % 10 = 0 then stripZeros fuel (n / 10, power + 1) else (n, power)

/-- The shortest decimal that rounds to a double, as its digits and a power of ten. -/
def digits (d : Double) : Nat × Int :=
  stripZeros 17
    (((List.range 17).findSome? fun n => d.normalized.digitsOf? (n + 1)).getD (0, 0))

/-- The text of a double: positional up to sixteen digits before the point and down to five
places after it, with a signed exponent beyond. -/
def render (negative : Bool) (d : Double) : String :=
  let sign := if negative then "-" else ""
  if d.mantissa = 0 then sign ++ "0.0"
  else
    let (n, power) := d.digits
    let ds := Nat.toDigits 10 n
    let point : Int := ds.length + power
    let zeros (count : Int) : List Char := List.replicate count.toNat '0'
    let text : List Char :=
      if 0 ≤ power && point ≤ 16 then ds ++ zeros power ++ ['.', '0']
      else if 0 < point && point ≤ 16 then ds.take point.toNat ++ ['.'] ++ ds.drop point.toNat
      else if -5 < point && point ≤ 0 then ['0', '.'] ++ zeros (-point) ++ ds
      else
        let fraction := if ds.length = 1 then [] else '.' :: ds.drop 1
        let sign := if 0 < point then ['+'] else []
        ds.take 1 ++ fraction ++ ['e'] ++ sign ++ (toString (point - 1)).toList
    sign ++ String.ofList text

end Double

end Nesting
