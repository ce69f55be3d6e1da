/-!
# Characters of markup

The classes of characters that XML distinguishes: blanks between the parts of a tag, characters that may
occur at all, and those that may begin or continue a name.
-/

namespace PageTemplates.Markup

/-- A blank between the parts of a tag. -/
def isSpace (c : Char) : Bool := c == ' ' || c == '\t' || c == '\n' || c == '\r'

/-- The character may occur in a document. -/
def isAllowed (c : Char) : Bool :=
  if c.toNat < 0x20 then isSpace c else c.toNat != 0xFFFE && c.toNat != 0xFFFF

/-- The number lies between two others. -/
def between (low high n : Nat) : Bool := low ≤ n && n ≤ high

/-- The character may begin a name. -/
def isNameStart (c : Char) : Bool :=
  let n := c.toNat
  between 0x41 0x5A n || between 0x61 0x7A n || c == ':' || c == '_' ||
  between 0xC0 0xD6 n || between 0xD8 0xF6 n || between 0xF8 0x2FF n || between 0x370 0x37D n ||
  between 0x37F 0x1FFF n || between 0x200C 0x200D n || between 0x2070 0x218F n ||
  between 0x2C00 0x2FEF n || between 0x3001 0xD7FF n || between 0xF900 0xFDCF n ||
  between 0xFDF0 0xFFFD n || between 0x10000 0xEFFFF n

/-- The character may stand in a name after the first one. -/
def isNameChar (c : Char) : Bool :=
  let n := c.toNat
  isNameStart c || between 0x30 0x39 n || c == '-' || c == '.' || n == 0xB7 ||
  between 0x300 0x36F n || between 0x203F 0x2040 n

end PageTemplates.Markup
