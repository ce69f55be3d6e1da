import PageTemplates.Markup.Character
import PageTemplates.Text.Affix

/-!
# Tokens of markup

A document as a row of tokens: tags, the text between them, comments and processing instructions. Scanning
checks how each token is written; that tags match and namespaces are declared is checked when the tokens
become a document.

A token takes at least one character, so the number of characters bounds the number of tokens.
-/

namespace PageTemplates.Markup

/-! ## §1 Tokens -/

/-- Why a text is not a document. -/
inductive Malformed where
  | unexpectedEnd
  | badName
  | badCharacter
  | badReference
  | badComment
  | badTag
  | badDeclaration
  | documentType
  | strayText
  | mismatchedTag
  | unknownNamespace
  | reservedNamespace
  | duplicateNamespace
  | duplicateAttribute
  | noRoot
  | unclosedElement
  deriving DecidableEq, Repr

/-- The reason in words. -/
def Malformed.message : Malformed → String
  | .unexpectedEnd => "unexpected end of text"
  | .badName => "invalid name"
  | .badCharacter => "invalid character"
  | .badReference => "malformed or unknown reference"
  | .badComment => "malformed comment"
  | .badTag => "malformed tag"
  | .badDeclaration => "misplaced or malformed declaration"
  | .documentType => "document type declarations are not read"
  | .strayText => "text outside the root element"
  | .mismatchedTag => "closing tag without its opening tag"
  | .unknownNamespace => "undeclared namespace"
  | .reservedNamespace => "reserved namespace"
  | .duplicateNamespace => "namespace declared twice"
  | .duplicateAttribute => "attribute given twice"
  | .noRoot => "no root element"
  | .unclosedElement => "element without a closing tag"

/-- A name as it is written: what stands before the colon, if anything, and what stands after it. -/
structure WrittenName where
  /-- Before the colon. -/
  qualifier : String
  /-- After the colon, or the whole name. -/
  localName : String
  deriving DecidableEq, Repr

/-- An attribute as it is written. -/
structure WrittenAttribute where
  name : WrittenName
  /-- The characters between the quotes. -/
  raw : List Char
  deriving DecidableEq, Repr

/-- A part of a document. -/
inductive Token where
  /-- An opening tag, and how many characters follow its beginning in the document. -/
  | opening (name : WrittenName) (attributes : List WrittenAttribute) (closed : Bool) (left : Nat)
  | closing (name : WrittenName)
  /-- The characters between two tags. -/
  | text (raw : List Char)
  /-- Characters in which nothing is a tag or a reference. -/
  | literal (raw : List Char)
  | comment (raw : List Char)
  | instruction (target : String) (data : List Char)
  deriving DecidableEq, Repr

/-- What is left of the text after a part of it has been read. -/
abbrev Scan (α : Type) := List Char → Except Malformed (α × List Char)

namespace Scan

/-! ## §2 Pieces of a token -/

def skipSpaces (cs : List Char) : List Char := cs.dropWhile isSpace

/-- Reads a fixed text. -/
def expect (mark : List Char) (cause : Malformed) : Scan Unit := fun cs =>
  match Text.after? mark cs with
  | some rest => .ok ((), rest)
  | none => .error cause

/-- The character may begin a name, and is not the colon between its parts. -/
def beginsPart (cs : List Char) : Bool :=
  match cs with
  | c :: _ => isNameStart c && c != ':'
  | [] => false

/-- A name with at most one colon. Nothing need stand before the colon. -/
def writtenName : Scan WrittenName := fun cs =>
  let word := cs.takeWhile isNameChar
  let rest := cs.dropWhile isNameChar
  let first := word.takeWhile (· != ':')
  match word.dropWhile (· != ':') with
  | [] => if beginsPart first then .ok (⟨"", String.ofList first⟩, rest) else .error .badName
  | _ :: second =>
    if (first.isEmpty || beginsPart first) && beginsPart second && !second.contains ':' then
      .ok (⟨String.ofList first, String.ofList second⟩, rest)
    else .error .badName

/-- A name in which the colon has no meaning. -/
def plainName : Scan String := fun cs =>
  match cs with
  | [] => .error .unexpectedEnd
  | c :: _ =>
    if isNameStart c then .ok (String.ofList (cs.takeWhile isNameChar), cs.dropWhile isNameChar)
    else .error .badName

/-- Characters up to a mark, and the mark; all of them may occur in a document. -/
def upTo (mark : List Char) : List Char → Except Malformed (List Char × List Char)
  | [] => .error .unexpectedEnd
  | c :: cs => match Text.after? mark (c :: cs) with
    | some rest => .ok ([], rest)
    | none =>
      if isAllowed c then (upTo mark cs).map fun r => (c :: r.1, r.2)
      else .error .badCharacter

/-- An attribute: a name, an equals sign, and a value between quotes. -/
def quotedAttribute : Scan WrittenAttribute := fun cs => do
  let (name, cs) ← writtenName cs
  let (_, cs) ← expect ['='] .badTag (skipSpaces cs)
  match skipSpaces cs with
  | q :: cs =>
    if q = '"' ∨ q = '\'' then do
      let (raw, cs) ← upTo [q] cs
      -- the mark may not stand in a value, but a reference to it may
      if raw.contains '<' then .error .badCharacter else .ok (⟨name, raw⟩, cs)
    else .error .badTag
  | [] => .error .unexpectedEnd

/-- The attributes of an opening tag and its end; the flag says that the tag closes itself. Each attribute follows
a blank. -/
def attributes : (bound : Nat) → Scan (List WrittenAttribute × Bool)
  | 0, _ => .error .unexpectedEnd
  | bound + 1, cs =>
    match skipSpaces cs with
    | [] => .error .unexpectedEnd
    | '>' :: rest => .ok (([], false), rest)
    | '/' :: '>' :: rest => .ok (([], true), rest)
    | '/' :: _ => .error .badTag
    | _ :: _ =>
      if cs.head?.any isSpace then do
        let (a, rest) ← quotedAttribute (skipSpaces cs)
        let ((more, closed), rest) ← attributes bound rest
        .ok ((a :: more, closed), rest)
      else .error .badTag

/-! ## §3 Tokens -/

/-- The rest of a comment. Two hyphens may stand at its end only. -/
def comment : Scan Token := fun cs => do
  let (raw, rest) ← upTo ['-', '-', '>'] cs
  if (Text.afterFirst? ['-', '-'] raw).isSome || raw.getLast? == some '-' then .error .badComment
  else .ok (.comment raw, rest)

/-- The rest of a section of literal characters. -/
def literal : Scan Token := fun cs => do
  let (raw, rest) ← upTo [']', ']', '>'] cs
  .ok (.literal raw, rest)

/-- The rest of a processing instruction. -/
def instruction : Scan Token := fun cs => do
  if (Text.after? "xml ".toList cs).isSome then .error .badDeclaration
  else
    let (target, cs) ← plainName cs
    let (data, rest) ← upTo ['?', '>'] (skipSpaces cs)
    .ok (.instruction target data, rest)

/-- The rest of a closing tag. -/
def closingTag : Scan Token := fun cs => do
  let (name, cs) ← writtenName cs
  let (_, rest) ← expect ['>'] .badTag (skipSpaces cs)
  .ok (.closing name, rest)

/-- The rest of an opening tag; `left` counts the characters from its beginning. -/
def openingTag (left : Nat) : Scan Token := fun cs => do
  let (name, cs) ← writtenName cs
  let ((attributes, closed), rest) ← attributes (cs.length + 1) cs
  .ok (.opening name attributes closed left, rest)

/-- The characters up to the next tag. -/
def textRun (cs : List Char) : Except Malformed (Token × List Char) :=
  let raw := cs.takeWhile (· != '<')
  if !raw.all isAllowed then .error .badCharacter
  else if (Text.afterFirst? [']', ']', '>'] raw).isSome then .error .badCharacter
  else .ok (.text raw, cs.dropWhile (· != '<'))

/-- The next token of a text that is not empty. -/
def token (cs : List Char) : Except Malformed (Token × List Char) :=
  match cs with
  | '<' :: '/' :: rest => closingTag rest
  | '<' :: '?' :: rest => instruction rest
  | '<' :: '!' :: rest =>
    match Text.after? ['-', '-'] rest, Text.after? "[CDATA[".toList rest with
    | some rest, _ => comment rest
    | none, some rest => literal rest
    | none, none => .error .documentType
  | '<' :: rest => openingTag cs.length rest
  | cs => textRun cs

/-- All tokens of a text. -/
def tokens : (bound : Nat) → List Char → Except Malformed (List Token)
  | _, [] => .ok []
  | 0, _ :: _ => .error .unexpectedEnd
  | bound + 1, c :: cs => do
    let (t, rest) ← token (c :: cs)
    let more ← tokens bound rest
    .ok (t :: more)

/-! ## §4 The beginning of a document -/

/-- A pseudo-attribute of the declaration; its value is not looked at. -/
def declared (name : List Char) : Scan Unit := fun cs => do
  if (Text.after? name cs).isSome then
    let (_, rest) ← quotedAttribute cs
    .ok ((), rest)
  else .ok ((), cs)

/-- Blanks, or the end of the declaration. -/
def separated : Scan Unit := fun cs =>
  if cs.head?.any isSpace || (Text.after? ['?', '>'] cs).isSome || cs.isEmpty then .ok ((), skipSpaces cs)
  else .error .badDeclaration

/-- The declaration at the beginning of a document, after its first word. -/
def declaration : Scan Unit := fun cs => do
  let (_, cs) ← separated cs
  if (Text.after? "version".toList cs).isNone then .error .badDeclaration
  else
    let (_, cs) ← declared "version".toList cs
    let (_, cs) ← separated cs
    let (hasEncoding, cs) := ((Text.after? "encoding".toList cs).isSome, cs)
    let (_, cs) ← declared "encoding".toList cs
    let (_, cs) ← if hasEncoding then separated cs else .ok ((), cs)
    let (_, cs) ← declared "standalone".toList cs
    expect ['?', '>'] .badDeclaration (skipSpaces cs)

/-- Skips a byte-order mark and a declaration. -/
def start (cs : List Char) : Except Malformed (List Char) :=
  let cs := match cs with
    | '\ufeff' :: rest => rest
    | cs => cs
  match Text.after? "<?xml ".toList cs with
  -- the blank after the first word is left for the declaration to check
  | some _ => (declaration (cs.drop 5)).map Prod.snd
  | none => .ok cs

end Scan

/-- The tokens of a document. -/
def Token.scan (cs : List Char) : Except Malformed (List Token) := do
  let rest ← Scan.start cs
  Scan.tokens rest.length rest

end PageTemplates.Markup
