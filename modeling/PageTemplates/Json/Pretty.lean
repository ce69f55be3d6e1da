import PageTemplates.Json.Basic

/-!
# Writing JSON

JSON text over several lines: each item of an array and each member of an object stands on a line of its
own, two spaces further in than the line of its bracket. Empty arrays and objects are written without
anything between their brackets. Characters are escaped only where they have to be.
-/

namespace PageTemplates.Json

/-! ## §1 Strings -/

def hexDigit (n : Nat) : Char := if n < 10 then Char.ofNat (0x30 + n) else Char.ofNat (0x61 + n - 10)

/-- A character inside a string. -/
def escape (c : Char) : List Char :=
  if c = '"' then ['\\', '"']
  else if c = '\\' then ['\\', '\\']
  else if c = '\n' then ['\\', 'n']
  else if c = '\r' then ['\\', 'r']
  else if c = '\t' then ['\\', 't']
  else if c = '\x08' then ['\\', 'b']
  else if c = '\x0c' then ['\\', 'f']
  else if c.toNat < 0x20 then ['\\', 'u', '0', '0', hexDigit (c.toNat / 16), hexDigit (c.toNat % 16)]
  else [c]

/-- A string with its quotes. -/
def quote (s : String) : List Char := '"' :: (s.toList.flatMap escape ++ ['"'])

/-! ## §2 Values -/

/-- A line end, and the beginning of a line that is `depth` steps in. -/
def newline (depth : Nat) : List Char := '\n' :: List.replicate (2 * depth) ' '

mutual

/-- A value whose first line is `depth` steps in. -/
def pretty (depth : Nat) : Json → List Char
  | .null => "null".toList
  | .bool true => "true".toList
  | .bool false => "false".toList
  | .number => ['0']
  | .text s => quote (s.getD "")
  | .array [] => ['[', ']']
  | .array (v :: vs) => '[' :: (newline (depth + 1) ++ (v.pretty (depth + 1) ++
      (prettyItems (depth + 1) vs ++ (newline depth ++ [']']))))
  | .object [] => ['\x7b', '\x7d']
  | .object ((name, v) :: ms) => '\x7b' :: (newline (depth + 1) ++ (quote (name.getD "") ++ (':' :: ' ' ::
      (v.pretty (depth + 1) ++ (prettyMembers (depth + 1) ms ++ (newline depth ++ ['\x7d']))))))

/-- The items of an array after the first. -/
def prettyItems (depth : Nat) : List Json → List Char
  | [] => []
  | v :: vs => ',' :: (newline depth ++ (v.pretty depth ++ prettyItems depth vs))

/-- The members of an object after the first. -/
def prettyMembers (depth : Nat) : List (Option String × Json) → List Char
  | [] => []
  | (name, v) :: ms =>
    ',' :: (newline depth ++ (quote (name.getD "") ++ (':' :: ' ' :: (v.pretty depth ++ prettyMembers depth ms))))

end

/-- The text of a value. -/
def toText (v : Json) : String := String.ofList (v.pretty 0)

end PageTemplates.Json
