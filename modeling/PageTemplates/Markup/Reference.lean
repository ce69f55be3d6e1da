import PageTemplates.Markup.Character
import PageTemplates.Text.Integer

/-!
# References and line ends

What the characters between tags, and those of attribute values, stand for. A reference stands for its character,
whatever that is. A line end that stands in the document itself becomes one newline in text and one space in an
attribute value. Only a carriage return directly before a reference, or between a reference and the end of a text,
stays as it is.
-/

namespace PageTemplates.Markup

/-! ## §1 References -/

/-- The value of a hexadecimal digit. -/
def hexDigit? (c : Char) : Option Nat :=
  match Text.digit? c with
  | some d => some d
  | none =>
    if between 0x61 0x66 c.toNat then some (c.toNat - 0x61 + 10)
    else if between 0x41 0x46 c.toNat then some (c.toNat - 0x41 + 10)
    else none

/-- Reads hexadecimal digits onto a number that has been read so far. -/
def hexFrom? (read : Nat) : List Char → Option Nat
  | [] => some read
  | c :: cs => match hexDigit? c with
    | some d => hexFrom? (16 * read + d) cs
    | none => none

/-- The number of a numeric reference, without its number sign. -/
def codeOf? : List Char → Option Nat
  | 'x' :: c :: cs => hexFrom? 0 (c :: cs)
  | cs => Text.natural? cs

/-- The character of a number. Numbers of 32 bits that are no character give the replacement character. -/
def charOf? (n : Nat) : Option Char :=
  if Nat.pow 2 32 ≤ n then none
  else
    let c := if n.isValidChar then Char.ofNat n else Char.ofNat 0xFFFD
    if isAllowed c then some c else none

/-- The character that a reference stands for; the reference is given without its ampersand and semicolon. -/
def referenced? : List Char → Option Char
  | '#' :: cs => (codeOf? cs).bind charOf?
  | ['a', 'm', 'p'] => some '&'
  | ['l', 't'] => some '<'
  | ['g', 't'] => some '>'
  | ['q', 'u', 'o', 't'] => some '"'
  | ['a', 'p', 'o', 's'] => some '\''
  | _ => none

/-- A character, and how a document writes it. -/
inductive WrittenChar where
  | literal (c : Char)
  /-- A reference stands for it. -/
  | referenced (c : Char)
  deriving DecidableEq, Repr

/-- Reads references. Inside a reference, `open?` holds what has been read of it, the latest character first. -/
def dereference? (open? : Option (List Char)) : List Char → Option (List WrittenChar)
  | [] => if open?.isSome then none else some []
  | c :: cs => match open? with
    | none => if c = '&' then dereference? (some []) cs else (dereference? none cs).map (.literal c :: ·)
    | some read =>
      if c = ';' then match referenced? read.reverse with
        | some d => (dereference? none cs).map (.referenced d :: ·)
        | none => none
      else dereference? (some (c :: read)) cs

/-! ## §2 Line ends -/

/-- One newline for each line end. -/
def unifyLineEnds : List Char → List Char
  | [] => []
  | '\r' :: '\n' :: cs => '\n' :: unifyLineEnds cs
  | '\r' :: cs => '\n' :: unifyLineEnds cs
  | c :: cs => c :: unifyLineEnds cs

/-- The characters of a text, with one newline for each line end. A carriage return stays as it is directly before a
reference, and at the end of the text directly after one. `afterReference` says that a reference stands before the
characters. -/
def unifyWritten (afterReference : Bool) : List WrittenChar → List Char
  | [] => []
  | [.literal '\r'] => [if afterReference then '\r' else '\n']
  | .literal '\r' :: .literal '\n' :: ws => '\n' :: unifyWritten false ws
  | .literal '\r' :: .literal c :: ws => '\n' :: unifyWritten false (.literal c :: ws)
  | .literal '\r' :: .referenced c :: ws => '\r' :: c :: unifyWritten true ws
  | .literal c :: ws => c :: unifyWritten false ws
  | .referenced c :: ws => c :: unifyWritten true ws

/-- One space for each line end and each tab. -/
def flatten : List WrittenChar → List Char
  | [] => []
  | .literal '\r' :: .literal '\n' :: ws => ' ' :: flatten ws
  | .literal c :: ws => (if c = '\r' ∨ c = '\n' ∨ c = '\t' then ' ' else c) :: flatten ws
  | .referenced c :: ws => c :: flatten ws

/-- What the characters between two tags stand for. -/
def textContent? (raw : List Char) : Option (List Char) := (dereference? none raw).map (unifyWritten false)

/-- What the characters of an attribute value stand for. -/
def attributeContent? (raw : List Char) : Option (List Char) := (dereference? none raw).map flatten

end PageTemplates.Markup
