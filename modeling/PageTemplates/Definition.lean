import PageTemplates.Component.Blueprint

/-!
# Definitions

A definition describes a tag: the properties that it declares, the page that it includes if any, and the
component that it builds. A registry finds the definition of a tag in a namespace.

A registry gives each definition that it takes an address of its own, so that two definitions have different
addresses even if they describe the same tag in the same way.
-/

namespace PageTemplates

/-! ## §1 Properties -/

/-- How a property is written. -/
inductive PropertyKind where
  /-- A scalar, by one write. -/
  | simple
  | complex
  /-- Any number of elements, each by an operation that adds one. -/
  | collection (addMethod itemType : String)
  | method
  deriving DecidableEq, Repr

/-- A way of writing in words. -/
def PropertyKind.text : PropertyKind → String
  | .simple => "simple"
  | .complex => "complex"
  | .collection addMethod itemType => "collection " ++ addMethod ++ " " ++ itemType
  | .method => "method"

/-- A declared property. -/
structure Property where
  name : String
  kind : PropertyKind
  /-- The name of its declared type. -/
  declaredType : String
  /-- A live value may be installed. -/
  allowsRunTime : Bool
  deriving DecidableEq, Repr

namespace Property

/-- A scalar property of a declared type. -/
def simple (name declaredType : String) : Property := ⟨name, .simple, declaredType, true⟩

/-- A property that holds a nested object. -/
def complex (name declaredType : String) : Property := ⟨name, .complex, declaredType, true⟩

/-- A property with any number of elements. -/
def collection (name addMethod itemType : String) : Property :=
  ⟨name, .collection addMethod itemType, "java.util.List", false⟩

/-- A property that holds a callable. -/
def method (name : String) : Property := ⟨name, .method, "javax.faces.el.MethodBinding", false⟩

end Property

/-! ## §2 Definitions -/

/-- What is known of a tag. -/
structure Definition where
  /-- Its identity. -/
  address : Nat
  /-- The namespace of the tag. -/
  namespaceUri : String
  tag : String
  /-- The name of the type of component. -/
  componentType : String
  /-- The declared properties by name. -/
  properties : NameMap Property
  /-- The page that the component includes. -/
  includedPage : Option String
  /-- What a new component looks like. -/
  blueprint : Blueprint

/-- The property declared under a name. -/
def Definition.property? (d : Definition) (name : String) : Option Property := d.properties.find? name

/-! ## §3 Registries -/

/-- The definitions by namespace and tag. -/
structure Registry where
  /-- At most one definition for each tag of a namespace. -/
  definitions : List Definition
  /-- The address of the next definition. -/
  nextAddress : Nat

namespace Registry

/-- The registry without definitions. -/
def empty : Registry := ⟨[], 0⟩

def describes (namespaceUri tag : String) (d : Definition) : Bool :=
  d.namespaceUri == namespaceUri && d.tag == tag

/-- Adds a definition under an address of its own, in place of an earlier definition for the same tag. -/
def register (r : Registry) (d : Definition) : Registry :=
  ⟨{ d with address := r.nextAddress } :: r.definitions.filter fun e => !describes d.namespaceUri d.tag e,
    r.nextAddress + 1⟩

def find? (r : Registry) (namespaceUri tag : String) : Option Definition :=
  r.definitions.find? (describes namespaceUri tag)

/-- The number of tags that have a definition. -/
def size (r : Registry) : Nat := r.definitions.length

/-- A definition that is found is one for the tag that was looked for. -/
theorem describes_of_find? {r : Registry} {namespaceUri tag : String} {d : Definition}
    (h : r.find? namespaceUri tag = some d) : d.namespaceUri = namespaceUri ∧ d.tag = tag := by
  have := List.find?_some h
  simpa [describes] using this

end Registry

end PageTemplates
