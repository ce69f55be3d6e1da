import PageTemplates.Json.Basic
import PageTemplates.Markup.Reference

/-!
# Reading JSON

A strict reader: blanks are spaces, tabs and line ends; control characters do not occur in strings; numbers
have no leading zeros; nothing but blanks follows the value. Two escapes may stand for the halves of one
character.
-/

namespace PageTemplates.Json

/-! ## §1 Blanks and numbers -/

/-- A blank between the parts of a value. -/
def isBlank (c : Char) : Bool := c == ' ' || c == '\t' || c == '\n' || c == '\r'

def skip (cs : List Char) : List Char := cs.dropWhile isBlank

def isDigit (c : Char) : Bool := (Text.digit? c).isSome

/-- Skips one or more digits. -/
def digits? (cs : List Char) : Option (List Char) :=
  match cs with
  | c :: rest => if isDigit c then some (rest.dropWhile isDigit) else none
  | [] => none

/-- Skips the whole part of a number. -/
def whole? : List Char → Option (List Char)
  | '0' :: rest => if rest.head?.any isDigit then none else some rest
  | cs => digits? cs

/-- Skips a fraction, if there is one. -/
def fraction? : List Char → Option (List Char)
  | '.' :: rest => digits? rest
  | cs => some cs

/-- Skips an exponent, if there is one. -/
def exponent? (cs : List Char) : Option (List Char) :=
  match cs with
  | c :: rest =>
    if c = 'e' ∨ c = 'E' then
      match rest with
      | '+' :: more => digits? more
      | '-' :: more => digits? more
      | more => digits? more
    else some cs
  | [] => some []

/-- Skips a number without its sign. -/
def unsigned? (cs : List Char) : Option (List Char) := ((whole? cs).bind fraction?).bind exponent?

/-! ## §2 Strings -/

/-- A part of a string: a character, or the number of an escape. -/
inductive Unit16 where
  | char (c : Char)
  | code (n : Nat)
  deriving DecidableEq

/-- The number of four hexadecimal digits. -/
def hex4? (a b c d : Char) : Option Nat := Markup.hexFrom? 0 [a, b, c, d]

/-- The parts of a string up to its closing quote, and what follows it. -/
def parts : List Char → Option (List Unit16 × List Char)
  | [] => none
  | '"' :: rest => some ([], rest)
  | '\\' :: 'u' :: a :: b :: c :: d :: rest =>
    match hex4? a b c d, parts rest with
    | some n, some (us, rest) => some (.code n :: us, rest)
    | _, _ => none
  | '\\' :: e :: rest =>
    let c? : Option Char := match e with
      | '"' => some '"'
      | '\\' => some '\\'
      | '/' => some '/'
      | 'b' => some '\x08'
      | 'f' => some '\x0c'
      | 'n' => some '\n'
      | 'r' => some '\r'
      | 't' => some '\t'
      | _ => none
    match c?, parts rest with
    | some c, some (us, rest) => some (.char c :: us, rest)
    | _, _ => none
  | c :: rest =>
    if c.toNat < 0x20 then none
    else (parts rest).map fun r => (.char c :: r.1, r.2)

/-- The characters of a string. Escapes for the two halves of a character stand next to each other. -/
def join : List Unit16 → Option (List Char)
  | [] => some []
  | .char c :: rest => (join rest).map (c :: ·)
  | .code n :: .code m :: rest =>
    if Markup.between 0xD800 0xDBFF n then
      if Markup.between 0xDC00 0xDFFF m then
        (join rest).map (Char.ofNat (0x10000 + (n - 0xD800) * 0x400 + (m - 0xDC00)) :: ·)
      else none
    else if Markup.between 0xDC00 0xDFFF n then none
    else (join (.code m :: rest)).map (Char.ofNat n :: ·)
  | .code n :: rest =>
    if Markup.between 0xD800 0xDFFF n then none else (join rest).map (Char.ofNat n :: ·)

def textOf (us : List Unit16) : Option String := (join us).map String.ofList

/-! ## §3 Values -/

mutual

/-- Reads a value. Every step takes a character or ends an array or object, so twice the length of the text bounds
the steps. -/
def value (bound : Nat) (cs : List Char) : Option (Json × List Char) :=
  match bound with
  | 0 => none
  | bound + 1 => match skip cs with
    | 'n' :: 'u' :: 'l' :: 'l' :: rest => some (.null, rest)
    | 't' :: 'r' :: 'u' :: 'e' :: rest => some (.bool true, rest)
    | 'f' :: 'a' :: 'l' :: 's' :: 'e' :: rest => some (.bool false, rest)
    | '"' :: rest => (parts rest).map fun r => (.text (textOf r.1), r.2)
    | '[' :: rest => match skip rest with
      | ']' :: rest => some (.array [], rest)
      | rest => (items bound rest).map fun r => (.array r.1, r.2)
    | '\x7b' :: rest => match skip rest with
      | '\x7d' :: rest => some (.object [], rest)
      | rest => (members bound rest).map fun r => (.object r.1, r.2)
    | '-' :: rest => (unsigned? rest).map fun rest => (.number, rest)
    | rest => (unsigned? rest).map fun rest => (.number, rest)

/-- Reads the items of an array that is not empty, and its closing bracket. -/
def items (bound : Nat) (cs : List Char) : Option (List Json × List Char) :=
  match bound with
  | 0 => none
  | bound + 1 => match value bound cs with
    | none => none
    | some (v, rest) => match skip rest with
      | ',' :: rest => (items bound rest).map fun r => (v :: r.1, r.2)
      | ']' :: rest => some ([v], rest)
      | _ => none

/-- Reads the members of an object that is not empty, and its closing brace. -/
def members (bound : Nat) (cs : List Char) : Option (List (Option String × Json) × List Char) :=
  match bound with
  | 0 => none
  | bound + 1 => match skip cs with
    | '"' :: rest => match parts rest with
      | none => none
      | some (us, rest) => match skip rest with
        | ':' :: rest => match value bound rest with
          | none => none
          | some (v, rest) => match skip rest with
            | ',' :: rest => (members bound rest).map fun r => ((textOf us, v) :: r.1, r.2)
            | '\x7d' :: rest => some ([(textOf us, v)], rest)
            | _ => none
        | _ => none
    | _ => none

end

/-- The value that a text writes. -/
def ofText? (s : String) : Option Json :=
  match value (2 * s.length + 2) s.toList with
  | some (v, rest) => if (skip rest).isEmpty then some v else none
  | none => none

end PageTemplates.Json
