import PageTemplates.Error
import PageTemplates.Markup.Reference
import PageTemplates.Markup.Token

/-!
# Documents

A document is its root element. Elements and attributes have names in namespaces; an element also knows
where its opening tag begins. Between its tags an element holds other elements, text, comments and
processing instructions.

The tokens of a text are put together on a stack of open elements. Namespace declarations hold for the
element they stand on and everything inside it; the innermost declaration counts.
-/

namespace PageTemplates.Markup

/-! ## §1 Elements -/

/-- A name in a namespace, or in none. -/
structure Name where
  namespaceUri : Option String
  /-- The name in the namespace. -/
  localName : String
  deriving DecidableEq, Repr

/-- An attribute. -/
structure Attribute where
  name : Name
  /-- Its value, with all references replaced. -/
  value : String
  deriving DecidableEq, Repr

/-- What stands between the tags of an element. -/
inductive Piece (ε : Type) where
  | element (e : ε)
  /-- Text, with all references replaced. -/
  | text (s : String)
  | comment (s : String)
  | instruction (target data : String)

/-- An element with all that it holds. -/
structure Element where
  name : Name
  /-- Its attributes, without namespace declarations, in order. -/
  attributes : List Attribute
  /-- What stands between its tags, in order. -/
  content : List (Piece Element)
  /-- Where its opening tag begins. -/
  location : Location

/-! ## §2 Namespaces -/

/-- A namespace that belongs to the language itself, by the path that tells it from the others. -/
def reservedUri (path : String) : String := "http:" ++ "//www.w3.org/" ++ path

/-- The namespace that the prefix `xml` always has. -/
def xmlUri : String := reservedUri "XML/1998/namespace"

/-- The namespace of namespace declarations, which may not be declared. -/
def xmlnsUri : String := reservedUri "2000/xmlns/"

/-- Declared namespaces by qualifier, the innermost first. The empty qualifier stands for the default namespace. -/
abbrev Namespaces := List (String × String)

def namespaceOf? (scope : Namespaces) (qualifier : String) : Except Malformed (Option String) :=
  match scope.lookup qualifier with
  | some uri => .ok (some uri)
  | none => if qualifier = "" then .ok none else .error .unknownNamespace

/-- What an attribute of a tag turns out to be. -/
inductive Declared where
  | binding (qualifier uri : String)
  /-- A declaration that says what holds anyway. -/
  | nothing
  | proper (name : WrittenName) (value : String)

def declaredBy (a : WrittenAttribute) : Except Malformed Declared :=
  match attributeContent? a.raw with
  | none => .error .badReference
  | some cs =>
    let value := String.ofList cs
    if a.name.qualifier = "xmlns" then
      if value = xmlnsUri then .error .reservedNamespace
      else if a.name.localName = "xml" then
        -- its prefix may be declared, but only as what it is anyway
        if value = xmlUri then .ok .nothing else .error .reservedNamespace
      else if value = xmlUri then .error .reservedNamespace
      else .ok (.binding a.name.localName value)
    else if a.name.localName = "xmlns" then
      if value = xmlUri ∨ value = xmlnsUri then .error .reservedNamespace
      else .ok (.binding "" value)
    else .ok (.proper a.name value)

/-- The namespaces that a tag declares, in order. A qualifier is declared once at most. -/
def declaredNamespaces : List Declared → Except Malformed Namespaces
  | [] => .ok []
  | .binding qualifier uri :: rest => do
    let more ← declaredNamespaces rest
    if qualifier ≠ "" ∧ (more.lookup qualifier).isSome then .error .duplicateNamespace
    else .ok ((qualifier, uri) :: more)
  | _ :: rest => declaredNamespaces rest

/-- The attributes proper of a tag. No two of them have the same name. -/
def properAttributes (scope : Namespaces) (seen : List Attribute) : List Declared → Except Malformed (List Attribute)
  | [] => .ok seen.reverse
  | .proper name value :: rest => do
    let uri ← if name.qualifier = "xml" then .ok (some xmlUri)
      else if name.qualifier = "" then .ok none
      else namespaceOf? scope name.qualifier
    let a : Attribute := ⟨⟨uri, name.localName⟩, value⟩
    if seen.any (·.name == a.name) then .error .duplicateAttribute
    else properAttributes scope (a :: seen) rest
  | _ :: rest => properAttributes scope seen rest

/-! ## §3 Putting tokens together -/

/-- An element whose closing tag has not been met. -/
structure OpenElement where
  /-- The name in its opening tag. -/
  written : WrittenName
  /-- The element as far as it is known, its content the latest first. -/
  element : Element
  scope : Namespaces

/-- A document as far as it is known. -/
structure Assembly where
  /-- The open elements, the innermost first. -/
  opened : List OpenElement
  /-- The root element, once it is complete. -/
  root : Option Element

namespace Assembly

/-- Puts a piece into the innermost open element. -/
def put (a : Assembly) (p : Piece Element) : Assembly :=
  match a.opened with
  | [] => a
  | o :: rest => { a with opened := { o with element := { o.element with content := p :: o.element.content } } :: rest }

/-- Puts a complete element into the innermost open one, or takes it as the root. -/
def putElement (a : Assembly) (e : Element) : Assembly :=
  match a.opened with
  | [] => { a with root := some e }
  | _ :: _ => a.put (.element e)

/-- The element of an opening tag, still empty, with the namespaces inside it. -/
def element (scope : Namespaces) (name : WrittenName) (attributes : List WrittenAttribute) (location : Location) :
    Except Malformed (Element × Namespaces) := do
  if name.qualifier = "xmlns" then .error .reservedNamespace
  else
    let declared ← attributes.mapM declaredBy
    let own ← declaredNamespaces declared
    let scope := own ++ scope
    let proper ← properAttributes scope [] declared
    let uri ← namespaceOf? scope name.qualifier
    .ok (⟨⟨uri, name.localName⟩, proper, [], location⟩, scope)

/-- Takes one more token. `locate` gives the place of a tag. -/
def step (locate : Nat → Location) (a : Assembly) : Token → Except Malformed Assembly
  | .opening name attributes closed left =>
    if a.opened.isEmpty && a.root.isSome then .error .strayText
    else do
      let scope := (a.opened.head?.map (·.scope)).getD []
      let (e, scope) ← element scope name attributes (locate left)
      if closed then .ok (a.putElement e)
      else .ok { a with opened := ⟨name, e, scope⟩ :: a.opened }
  | .closing name => match a.opened with
    | [] => .error .mismatchedTag
    | o :: rest =>
      if o.written = name then
        .ok ({ a with opened := rest }.putElement { o.element with content := o.element.content.reverse })
      else .error .mismatchedTag
  | .text raw =>
    if a.opened.isEmpty then if raw.all isSpace then .ok a else .error .strayText
    else match textContent? raw with
      | some cs => .ok (a.put (.text (String.ofList cs)))
      | none => .error .badReference
  | .literal raw =>
    if a.opened.isEmpty then .error .strayText
    else .ok (a.put (.text (String.ofList (unifyLineEnds raw))))
  | .comment raw => .ok (a.put (.comment (String.ofList raw)))
  | .instruction target data => .ok (a.put (.instruction target (String.ofList data)))

/-- The root element of a complete document. -/
def complete (a : Assembly) : Except Malformed Element :=
  match a.opened, a.root with
  | _ :: _, _ => .error .unclosedElement
  | [], none => .error .noRoot
  | [], some e => .ok e

end Assembly

/-! ## §4 Reading -/

/-- The place in a text at which some number of characters are left. -/
def locate (text : List Char) (left : Nat) : Location :=
  let read := text.take (text.length - left)
  ⟨1 + read.count '\n', 1 + (read.reverse.takeWhile (· != '\n')).length⟩

/-- The root element of the document that a text writes. -/
def Element.read (text : String) : Except Malformed Element := do
  let cs := text.toList
  let tokens ← Token.scan cs
  let a ← tokens.foldlM (Assembly.step (locate cs)) ⟨[], none⟩
  a.complete

end PageTemplates.Markup
