import PageTemplates.Decimal.Double
import PageTemplates.Text.Integer

/-!
# Doubles written in decimal

A number is an optional sign, digits with an optional point among or around them (at least one digit in
all), and an optional exponent. The words `inf`, `infinity` and `nan` are read as well, whatever the case of
their letters. The result is the double nearest to the number that is written.
-/

namespace PageTemplates.Double

open PageTemplates.Text

/-! ## §1 Scanning -/

/-- A character is an ASCII digit. -/
def isDigit (c : Char) : Bool := (digit? c).isSome

/-- The number that a run of digits writes; an empty run writes zero. -/
def digitsValue (cs : List Char) : Nat := (digitsFrom? 0 cs).getD 0

/-- The exponent at the end of a number: nothing, or `e` and an integer. -/
def exponentPart? : List Char → Option Int
  | [] => some 0
  | 'e' :: cs => integer? cs
  | 'E' :: cs => integer? cs
  | _ => none

/-- A decimal number `digits * 10 ^ exponent` without its sign, with the count of its digits. -/
structure Decimal where
  /-- All digits as one integer. -/
  digits : Nat
  /-- The power of ten of the last digit. -/
  exponent : Int
  /-- How many digits were written. -/
  count : Nat
  deriving DecidableEq

/-- Reads an unsigned decimal number. -/
def decimal? (cs : List Char) : Option Decimal :=
  let whole := cs.takeWhile isDigit
  let rest := cs.dropWhile isDigit
  let (fraction, rest) := match rest with
    | '.' :: more => (more.takeWhile isDigit, more.dropWhile isDigit)
    | _ => ([], rest)
  if whole.isEmpty && fraction.isEmpty then none
  else (exponentPart? rest).map fun e =>
    ⟨digitsValue (whole ++ fraction), e - fraction.length, whole.length + fraction.length⟩

/-! ## §2 Value -/

/-- The double nearest to a decimal number. Numbers whose magnitude is far outside the range are decided by
their count of digits, so that no large power of ten is computed for them. -/
def ofDecimal (negative : Bool) (d : Decimal) : Double :=
  if d.digits = 0 then zero negative
  else
    let digits := (Nat.toDigits 10 d.digits).length
    -- the greatest double has 309 digits, and the smallest has its first one 324 places after the point
    if digits + d.exponent > 310 then infinity negative
    else if digits + d.exponent < -330 then zero negative
    else match d.exponent with
      | .ofNat k => ofRatio negative (d.digits * Nat.pow 10 k) 1
      | .negSucc k => ofRatio negative d.digits (Nat.pow 10 (k + 1))

/-- Reads a number without sign. -/
def unsigned? (negative : Bool) (cs : List Char) : Option Double :=
  let word := cs.map Char.toLower
  if word = "inf".toList ∨ word = "infinity".toList then some (infinity negative)
  else if word = "nan".toList then some nan
  else (decimal? cs).map (ofDecimal negative)

/-- Reads a number from the whole of a text. -/
def ofChars? : List Char → Option Double
  | '+' :: cs => unsigned? false cs
  | '-' :: cs => unsigned? true cs
  | cs => unsigned? false cs

/-- Reads a number from the whole of a text. -/
def ofText? (s : String) : Option Double := ofChars? s.toList

end PageTemplates.Double
