import PageTemplates.Text.Hidden

/-!
# Quoted texts

A text between double quotes, for people to read. Quotes, backslashes and line ends are escaped, and so are
characters that do not show by themselves. The escape of such a character gives its number.
-/

namespace PageTemplates.Text

/-- A character between quotes. -/
def quoteChar (c : Char) : List Char :=
  if c = '"' then ['\\', '"']
  else if c = '\\' then ['\\', '\\']
  else if c = '\n' then ['\\', 'n']
  else if c = '\r' then ['\\', 'r']
  else if c = '\t' then ['\\', 't']
  else if c.toNat = 0 then ['\\', '0']
  else if isHidden c then '\\' :: 'u' :: '\x7b' :: (Nat.toDigits 16 c.toNat ++ ['\x7d'])
  else [c]

/-- A text between quotes. -/
def quoted (s : String) : String := String.ofList ('"' :: (s.toList.flatMap quoteChar ++ ['"']))

end PageTemplates.Text
