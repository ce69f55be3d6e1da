/-!
# Double-precision numbers

A double is its 64 bits: a sign, an exponent field and a fraction. The module decodes the bits into
`mantissa * 2 ^ exponent`, and rounds a ratio of natural numbers to the nearest double, ties to the even
mantissa. All arithmetic is exact, on natural numbers.

The magnitudes of the non-negative finite doubles, read as numbers, are ordered as their values are; that
is why rounding up a mantissa may simply carry into the exponent field.
-/

namespace PageTemplates

/-- A number in the 64-bit binary format. -/
structure Double where
  /-- Sign, exponent field and fraction, from the highest bit down. -/
  bits : UInt64
  deriving DecidableEq, Inhabited

namespace Double

/-! ## §1 Fields -/

/-- The lowest bit of the exponent field. -/
def fractionLimit : Nat := Nat.pow 2 52

/-- The magnitude of infinity; every larger magnitude is not a number. -/
def infiniteMagnitude : Nat := 2047 * Nat.pow 2 52

/-- The bits below the sign. -/
def magnitude (d : Double) : Nat := d.bits.toNat % Nat.pow 2 63

/-- The sign bit is set. -/
def isNegative (d : Double) : Bool := decide (Nat.pow 2 63 ≤ d.bits.toNat)

/-- The double with a sign and a magnitude. -/
def ofMagnitude (negative : Bool) (magnitude : Nat) : Double :=
  ⟨UInt64.ofNat (if negative then Nat.pow 2 63 + magnitude else magnitude)⟩

/-- The number is not a number. -/
def isNaN (d : Double) : Bool := decide (infiniteMagnitude < d.magnitude)

/-- The number is infinite, of either sign. -/
def isInfinite (d : Double) : Bool := d.magnitude == infiniteMagnitude

/-- The number that is not a number. -/
def nan : Double := ofMagnitude false (infiniteMagnitude + Nat.pow 2 51)

/-- The infinity of a sign. -/
def infinity (negative : Bool) : Double := ofMagnitude negative infiniteMagnitude

/-- The zero of a sign. -/
def zero (negative : Bool) : Double := ofMagnitude negative 0

/-! ## §2 Value of a finite magnitude -/

/-- The integer `m` with value `m * 2 ^ exponentOf magnitude`. -/
def mantissaOf (magnitude : Nat) : Nat :=
  if magnitude / fractionLimit = 0 then magnitude % fractionLimit
  else fractionLimit + magnitude % fractionLimit

/-- The exponent of two that belongs to the mantissa. -/
def exponentOf (magnitude : Nat) : Int :=
  if magnitude / fractionLimit = 0 then -1074 else (magnitude / fractionLimit : Nat) - 1075

/-! ## §3 Rounding -/

/-- The quotient rounded to the nearest natural number, a half to the even one. -/
def roundQuotient (num den : Nat) : Nat :=
  let q := num / den
  let r := num % den
  if 2 * r < den then q
  else if den < 2 * r then q + 1
  else if q % 2 = 0 then q else q + 1

/-- The ratio `num / den` divided by `2 ^ e`, as a ratio again. -/
def scaleDown (num den : Nat) (e : Int) : Nat × Nat :=
  match e with
  | .ofNat k => (num, den * Nat.pow 2 k)
  | .negSucc k => (num * Nat.pow 2 (k + 1), den)

/-- The exponent at which the ratio has a mantissa of 53 bits, but never below that of the smallest double. -/
def exponentFor (num den : Nat) : Int :=
  -- the two logarithms leave the exponent open by one
  let guess : Int := (Nat.log2 num : Int) - Nat.log2 den - 53
  let wide := scaleDown num den guess
  let exact : Int := if wide.1 / wide.2 < Nat.pow 2 53 then guess else guess + 1
  max exact (-1074)

/-- The magnitude nearest to a ratio of positive numbers; a value too large for a finite double is infinite. -/
def magnitudeOfRatio (num den : Nat) : Nat :=
  let e := exponentFor num den
  let scaled := scaleDown num den e
  -- a mantissa that is rounded up to the next power of two carries into the exponent field
  min ((e + 1074).toNat * fractionLimit + roundQuotient scaled.1 scaled.2) infiniteMagnitude

/-- The double nearest to a ratio; `den` is positive. -/
def ofRatio (negative : Bool) (num den : Nat) : Double :=
  if num = 0 then zero negative else ofMagnitude negative (magnitudeOfRatio num den)

/-- The double nearest to an integer. -/
def ofInt (i : Int) : Double := ofRatio (decide (i < 0)) i.natAbs 1

/-! ## §4 Equality of numbers -/

/-- Equality of numbers: the two zeros are equal, and what is not a number equals nothing. -/
def same (a b : Double) : Bool :=
  !a.isNaN && !b.isNaN && (a == b || (a.magnitude == 0 && b.magnitude == 0))

end Double

end PageTemplates
