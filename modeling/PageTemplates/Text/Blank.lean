/-!
# Blank characters

The characters with the Unicode property White_Space, and trimming by them. Texts are handled as lists
of characters; the functions on `String` are thin wrappers.

Core's `Char.isWhitespace` knows four of these characters only.
-/

namespace PageTemplates.Text

/-! ## §1 The property -/

/-- A character has the property White_Space. -/
def isBlank (c : Char) : Bool :=
  let n := c.toNat
  (0x09 ≤ n && n ≤ 0x0D) || n == 0x20 || n == 0x85 || n == 0xA0 || n == 0x1680 ||
  (0x2000 ≤ n && n ≤ 0x200A) || n == 0x2028 || n == 0x2029 || n == 0x202F || n == 0x205F || n == 0x3000

/-! ## §2 Trimming -/

/-- The characters after the leading blank ones. -/
def trimStart (cs : List Char) : List Char := cs.dropWhile isBlank

/-- The characters before the trailing blank ones. -/
def trimEnd (cs : List Char) : List Char := (cs.reverse.dropWhile isBlank).reverse

/-- The characters between the leading and the trailing blank ones. -/
def trimChars (cs : List Char) : List Char := trimEnd (trimStart cs)

/-- A text without its leading and trailing blank characters. -/
def trim (s : String) : String := String.ofList (trimChars s.toList)

/-- Trimming keeps every character that is not blank, and only drops blank ones at the two ends. -/
theorem trimStart_append (cs : List Char) : cs.takeWhile isBlank ++ trimStart cs = cs :=
  List.takeWhile_append_dropWhile

end PageTemplates.Text
