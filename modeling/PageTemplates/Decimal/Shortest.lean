import PageTemplates.Decimal.Double
import PageTemplates.Text.Integer

/-!
# Shortest decimal text of a double

The text of a finite double has the fewest digits that read back as the same double, and among those the
digits nearest to its value; an exact tie goes up. The digits are found on decimal grids: for one digit,
two digits and so on, the two grid points around the value are tested, and the first grid with a point in
the interval of numbers that round to the double gives the digits.

Numbers are written positionally whatever their size, and without a point when they are whole.
-/

namespace PageTemplates.Double

/-! ## §1 Ratios -/

/-- The ratio `num / den` times a power of ten. -/
def scaleTen (num den : Nat) (e : Int) : Nat × Nat :=
  match e with
  | .ofNat k => (num * Nat.pow 10 k, den)
  | .negSucc k => (num, den * Nat.pow 10 (k + 1))

/-- A multiple of a power of two as a ratio. -/
def binaryRatio (m : Nat) (e : Int) : Nat × Nat :=
  match e with
  | .ofNat k => (m * Nat.pow 2 k, 1)
  | .negSucc k => (m, Nat.pow 2 (k + 1))

/-- The exponent of the leading decimal digit of a positive ratio. -/
def leadingExponent (num den : Nat) : Int :=
  if den ≤ num then ((Nat.toDigits 10 (num / den)).length : Int) - 1
  else
    let inverse := (den + num - 1) / num
    Int.negOfNat (Nat.toDigits 10 (inverse - 1)).length

/-! ## §2 The interval of numbers that round to a double -/

/-- The numbers that round to a double, with the value itself, in quarters of the unit of its mantissa. -/
structure Neighbourhood where
  low : Nat
  value : Nat
  high : Nat
  /-- The exponent of two of a quarter unit. -/
  exponent : Int
  /-- The ends belong to the interval. -/
  closed : Bool

/-- The interval around the value of a finite positive magnitude. Below a power of two the next double is only
half as far away; the ends round to the value exactly if its mantissa is even. -/
def neighbourhood (magnitude : Nat) : Neighbourhood :=
  let m := mantissaOf magnitude
  let narrow := magnitude % fractionLimit = 0 ∧ 1 < magnitude / fractionLimit
  { low := if narrow then 4 * m - 1 else 4 * m - 2
    value := 4 * m
    high := 4 * m + 2
    exponent := exponentOf magnitude - 2
    closed := m % 2 == 0 }

/-! ## §3 Digits -/

/-- Digits `digits * 10 ^ exponent`. -/
structure Digits where
  /-- The digits as one number. -/
  digits : Nat
  /-- The power of ten of the last one. -/
  exponent : Int
  deriving DecidableEq

/-- The better of the two points of the grid of step `10 ^ step` around the value, if one lies in the interval. -/
def onGrid? (n : Neighbourhood) (step : Int) : Option Digits :=
  let quarter := binaryRatio 1 n.exponent
  let unit := scaleTen quarter.1 quarter.2 (-step)
  let below := n.value * unit.1 / unit.2
  let above := below + 1
  let inside (p : Nat) : Bool :=
    if n.closed then n.low * unit.1 ≤ p * unit.2 && p * unit.2 ≤ n.high * unit.1
    else n.low * unit.1 < p * unit.2 && p * unit.2 < n.high * unit.1
  let nearerAbove : Bool := decide ((above + below) * unit.2 ≤ 2 * (n.value * unit.1))
  match inside below, inside above with
  | true, true => some ⟨if nearerAbove then above else below, step⟩
  | true, false => some ⟨below, step⟩
  | false, true => some ⟨above, step⟩
  -- the grid is too coarse
  | false, false => none

/-- The digits on the first grid that has any, starting from a grid and going on for some finer ones. -/
def firstGrid (n : Neighbourhood) (step : Int) : (finer : Nat) → Digits
  | 0 => (onGrid? n step).getD ⟨0, 0⟩
  | finer + 1 => (onGrid? n step).getD (firstGrid n (step - 1) finer)

/-- The shortest digits of a finite positive magnitude; seventeen digits always suffice. -/
def shortest (magnitude : Nat) : Digits :=
  let n := neighbourhood magnitude
  let value := binaryRatio n.value n.exponent
  firstGrid n (leadingExponent value.1 value.2) 17

/-! ## §4 Text -/

/-- Digits after the point, without zeros at their end. -/
def trimZeros (cs : List Char) : List Char := (cs.reverse.dropWhile (· == '0')).reverse

def Digits.chars (d : Digits) : List Char :=
  let cs := Nat.toDigits 10 d.digits
  match d.exponent with
  | .ofNat k => cs ++ List.replicate k '0'
  | .negSucc k =>
    let places := k + 1
    let padded := List.replicate (places + 1 - cs.length) '0' ++ cs
    let whole := padded.take (padded.length - places)
    match trimZeros (padded.drop (padded.length - places)) with
    | [] => whole
    | fraction => whole ++ '.' :: fraction

def text (d : Double) : String :=
  if d.isNaN then "NaN"
  else
    let digits := if d.isInfinite then "inf".toList
      else if d.magnitude = 0 then ['0']
      else (shortest d.magnitude).chars
    String.ofList (if d.isNegative then '-' :: digits else digits)

end PageTemplates.Double
