import PageTemplates.Markup.Document
import PageTemplates.Markup.Problem
import PageTemplates.Template.Compile
import PageTemplates.Text.Blank
import PageTemplates.Tree.Basic

/-!
# Compiling documents

A document becomes a tree of controls. Every element is a control, except those whose name begins with
`this.`. Such an element gives a property to the element around it: its text, or, if it holds elements, the
objects that they describe. The element `this.facets` holds the facets of the element around it, each under
the key that its key attribute gives.

An object given for a property may have properties itself, but no controls.
-/

namespace PageTemplates.Markup

/-! ## §1 Property elements -/

/-- How the name of a property element begins. -/
def propertyMark : List Char := "this.".toList

/-- The name of the element that holds facets, after the mark. -/
def facetsName : String := "facets"

/-- The name of the attribute that holds the key of a facet. -/
def keyName : String := "key"

/-- The property that an element of this name gives, if it is a property element. -/
def propertyOf? (n : Name) : Option String :=
  (Text.after? propertyMark n.localName.toList).map String.ofList

def Piece.isElement {ε : Type} : Piece ε → Bool
  | .element _ => true
  | .text _ | .comment _ | .instruction .. => false

/-- The text pieces among some pieces, joined. Property elements are read as text only if they hold no elements. -/
def textOf {ε : Type} : List (Piece ε) → String
  | [] => ""
  | .text s :: rest => s ++ textOf rest
  | .element _ :: rest | .comment _ :: rest | .instruction .. :: rest => textOf rest

def firstControl? : List (Piece Element) → Option Element
  | [] => none
  | .element e :: rest => if (propertyOf? e.name).isNone then some e else firstControl? rest
  | .text _ :: rest | .comment _ :: rest | .instruction .. :: rest => firstControl? rest

/-- What is compiled: the page it belongs to, and the namespace of facet keys. -/
structure Setting where
  /-- The page, unless it is loose content. -/
  uri : Option PageUri
  /-- The namespace of facet keys. -/
  keyNamespace : String

/-! ## §2 Templates -/

/-- Compiles the attributes without a namespace as properties, in order. -/
def compileAttributes (t : Template) : List Attribute → Compile Template
  | [] => pure t
  | a :: rest =>
    match a.name.namespaceUri with
    | some _ => compileAttributes t rest
    | none => do
      let t ← t.addText a.name.localName a.value
      compileAttributes t rest

/-- Fails because of the document. -/
def fail {α : Type} (e : MarkupProblem) : Compile α := .ofExcept (.error e.toError)

/-- An object for a property may neither be a property element nor hold controls. -/
def checkObject (property : Name) (e : Element) : Compile Unit :=
  if (propertyOf? e.name).isSome then fail (.unexpectedElement e.name.localName property.localName e.location)
  else match firstControl? e.content with
    | some control => fail (.unexpectedElement control.name.localName e.name.localName control.location)
    | none => pure ()

mutual

/-- The template of an element: its attributes, then its property elements. -/
def compileElement (s : Setting) : Element → Compile Template
  | ⟨name, attributes, content, _⟩ => do
    let t ← Compile.create s.uri (name.namespaceUri.getD "") name.localName
    let t ← compileAttributes t attributes
    compileProperties s t content

/-- Compiles the property elements among some pieces, in order; facets are left aside. -/
def compileProperties (s : Setting) (t : Template) : List (Piece Element) → Compile Template
  | [] => pure t
  | .element ⟨name, _, content, _⟩ :: rest =>
    match propertyOf? name with
    | none => compileProperties s t rest
    | some property =>
      -- facets belong to the walk over controls
      if property = facetsName then compileProperties s t rest
      else if content.any Piece.isElement then do
        let objects ← compileObjects s name content
        let t ← t.add property (.objects objects)
        compileProperties s t rest
      else do
        -- without elements the property is its text, blanks at the ends left out
        let t ← t.addText property (Text.trim (textOf content))
        compileProperties s t rest
  | .text _ :: rest | .comment _ :: rest | .instruction .. :: rest => compileProperties s t rest

/-- The templates of the objects in a property element. -/
def compileObjects (s : Setting) (property : Name) : List (Piece Element) → Compile (List Template)
  | [] => pure []
  | .element e :: rest => do
    checkObject property e
    let t ← compileElement s e
    let ts ← compileObjects s property rest
    pure (t :: ts)
  | .text _ :: rest | .comment _ :: rest | .instruction .. :: rest => compileObjects s property rest

end

/-! ## §3 Controls -/

/-- What has been attached to a control so far, and the next index. -/
structure Growth where
  /-- The tag of the control. -/
  tag : String
  children : List Control
  facets : List (String × Control)
  next : Nat

def facetKey (s : Setting) (name : Name) (attributes : List Attribute) (location : Location) : Compile String :=
  match attributes.find? fun a => a.name == ⟨some s.keyNamespace, keyName⟩ with
  | some a => pure a.value
  | none => fail (.missingKey name.localName keyName location)

mutual

/-- The control of an element with all that is below it, and the next index after them. -/
def compileControl (s : Setting) (index : Nat) (t : Template) : Element → Compile (Control × Nat)
  | ⟨_, _, content, _⟩ => do
    -- indices go in the order of the document, so those below come right after this one
    let g ← attach s ⟨t.tag, [], [], index + 1⟩ content
    pure (.node index t g.children g.facets, g.next)

/-- Attaches the controls and facets among some pieces. -/
def attach (s : Setting) (g : Growth) : List (Piece Element) → Compile Growth
  | [] => pure g
  | .element e :: rest =>
    match propertyOf? e.name with
    | some property =>
      if property = facetsName then do
        let g ← attachFacets s g e
        attach s g rest
      else attach s g rest
    | none => do
      let t ← compileElement s e
      let (c, next) ← compileControl s g.next t e
      attach s { g with children := g.children ++ [c], next := next } rest
  | .text _ :: rest | .comment _ :: rest | .instruction .. :: rest => attach s g rest

/-- Attaches the facets in an element that holds facets. -/
def attachFacets (s : Setting) (g : Growth) : Element → Compile Growth
  | ⟨_, _, content, _⟩ => attachFacetPieces s g content

/-- Attaches the facets among some pieces. -/
def attachFacetPieces (s : Setting) (g : Growth) : List (Piece Element) → Compile Growth
  | [] => pure g
  | .element e :: rest => do
    let key ← facetKey s e.name e.attributes e.location
    let t ← compileElement s e
    -- a taken key is noticed only after the template of the facet has been made
    if (NameMap.lookup key g.facets).isSome then .ofExcept (.error (.duplicateFacet g.tag key))
    else
      let (c, next) ← compileControl s g.next t e
      attachFacetPieces s { g with facets := NameMap.place key c g.facets, next := next } rest
  | .text _ :: rest | .comment _ :: rest | .instruction .. :: rest => attachFacetPieces s g rest

end

def compileDocument (s : Setting) (root : Element) : Compile Tree := do
  let t ← compileElement s root
  let (c, next) ← compileControl s 0 t root
  pure ⟨c, next⟩

/-- The tree of the document that a text writes. -/
def compileText (s : Setting) (text : String) : Compile Tree :=
  match Element.read text with
  | .ok root => compileDocument s root
  | .error m => fail (.malformed m)

end PageTemplates.Markup
