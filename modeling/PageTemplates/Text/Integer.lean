/-!
# Decimal integers in texts

An integer is written as an optional sign and one or more ASCII digits. Nothing else is allowed: no
blanks, no separators, no other digits.
-/

namespace PageTemplates.Text

/-- The value of an ASCII digit. -/
def digit? (c : Char) : Option Nat :=
  if '0' ≤ c ∧ c ≤ '9' then some (c.toNat - '0'.toNat) else none

/-- Reads digits onto a number that has been read so far. -/
def digitsFrom? (read : Nat) : List Char → Option Nat
  | [] => some read
  | c :: cs => match digit? c with
    | some d => digitsFrom? (10 * read + d) cs
    | none => none

/-- The number written by one or more digits. -/
def natural? : List Char → Option Nat
  | [] => none
  | c :: cs => digitsFrom? 0 (c :: cs)

/-- The integer written by an optional sign and one or more digits. -/
def integer? : List Char → Option Int
  | '+' :: cs => (natural? cs).map Int.ofNat
  | '-' :: cs => (natural? cs).map (fun n => -(n : Int))
  | cs => (natural? cs).map Int.ofNat

/-- The integer that a text writes, if it lies between two bounds. -/
def integerIn? (low high : Int) (s : String) : Option Int :=
  match integer? s.toList with
  | some i => if low ≤ i ∧ i ≤ high then some i else none
  | none => none

/-- The decimal text of a number. -/
def ofNatural (n : Nat) : String := String.ofList (Nat.toDigits 10 n)

/-- The decimal text of an integer, with a sign only when it is negative. -/
def ofInteger : Int → String
  | .ofNat n => ofNatural n
  | .negSucc n => "-" ++ ofNatural (n + 1)

end PageTemplates.Text
