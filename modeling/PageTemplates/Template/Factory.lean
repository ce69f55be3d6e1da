import PageTemplates.Definition
import PageTemplates.Error

/-!
# Setter factories

A factory knows how one property of one definition is written. It makes an assignment out of a text, of a
typed value, or of nested objects; what does not fit the declared type is refused.

An assignment is parametric in the nested objects `τ` it may hold: assignments made of texts and values hold
none.
-/

namespace PageTemplates

/-! ## §1 Assignments -/

/-- An element of a collection. -/
inductive Item (τ : Type) where
  | value (v : Value)
  /-- An object to be built. -/
  | object (template : τ)

/-- Where a callable comes from. -/
inductive CallableSource (τ : Type) where
  | expression (text : String)
  /-- An object to be built, which stands for a callable. -/
  | object (template : τ)
  /-- A callable that exists already. -/
  | ready (callable : Callable)

/-- What is to be written to a property. -/
inductive Assignment (τ : Type) where
  /-- A value of the declared type. -/
  | scalar (name : String) (value : Value) (type : ValueType)
  | id (text : String)
  /-- Whether the component is shown. -/
  | rendered (flag : Bool)
  /-- An object to be built. -/
  | object (name : String) (template : τ)
  /-- Elements to be added one by one. -/
  | collection (name addMethod : String) (items : List (Item τ))
  | method (name : String) (source : CallableSource τ)

/-- The name of the id property. -/
def idName : String := "id"

/-- The name of the property that says whether a component is shown. -/
def renderedName : String := "rendered"

/-- The name of the pseudo-property that says whether a node is built at all. -/
def loadedName : String := "loaded"

/-- The property that is written. -/
def Assignment.name {τ : Type} : Assignment τ → String
  | .scalar name .. | .object name _ | .collection name .. | .method name _ => name
  | .id _ => idName
  | .rendered _ => renderedName

/-! ## §2 Coercion to scalar types -/

namespace Coercion

/-- The least and the greatest integer of 32 bits. -/
def intBounds : Int × Int := (-2147483648, 2147483647)

/-- The failure for a text or value that is none of a type. -/
def mismatch (property literal : String) (type : ValueType) : Error := .typeCoercion property literal type.name

/-- A truth value is written `true` or `false` and in no other way. -/
def ofTruthText (property text : String) : Except Error Bool :=
  if text = "true" then .ok true
  else if text = "false" then .ok false
  else .error (mismatch property text .boolean)

/-- The value of a type that a text writes. -/
def ofText (property text : String) (type : ValueType) : Except Error Value :=
  match type with
  | .object | .string => .ok (.text text)
  | .int => match Text.integerIn? intBounds.1 intBounds.2 text with
    | some i => .ok (.int (Int64.ofInt i))
    | none => .error (mismatch property text type)
  | .double => match Double.ofText? text with
    | some d => .ok (.double d)
    | none => .error (mismatch property text type)
  | .boolean => (ofTruthText property text).map .bool

/-- The integer has 32 bits. -/
def isInt (i : Int64) : Bool := decide (intBounds.1 ≤ i.toInt) && decide (i.toInt ≤ intBounds.2)

/-- The value of a type that a value stands for. -/
def ofValue (property : String) (value : Value) (type : ValueType) : Except Error Value :=
  match type, value with
  | .object, v => .ok v
  | type, .text s => ofText property s type
  | .string, .null => .ok .null
  | .string, .bool b => .ok (.text (Value.bool b).display)
  | .string, .int i => .ok (.text (Value.int i).display)
  | .string, .double d => .ok (.text (Value.double d).display)
  | .int, .int i => if isInt i then .ok (.int i) else .error (mismatch property (Value.int i).display .int)
  | .double, .double d => .ok (.double d)
  | .double, .int i => .ok (.double (Double.ofInt i.toInt))
  | .boolean, .bool b => .ok (.bool b)
  | type, v => .error (mismatch property v.display type)

end Coercion

/-! ## §3 Factories -/

/-- How the values of a property become assignments. -/
inductive FactoryKind where
  | id
  /-- Whether the component is shown. -/
  | rendered
  | complex
  /-- Elements of a scalar type, or objects alone if there is no such type. -/
  | collection (addMethod : String) (itemType : Option ValueType)
  | method
  | scalar (type : ValueType)
  deriving DecidableEq, Repr

/-- The type that a live value for a property should have; whatever has no scalar type takes any object. -/
def FactoryKind.liveType : FactoryKind → ValueType
  | .scalar type => type
  | .rendered => .boolean
  | .id => .string
  | .complex | .collection .. | .method => .object

/-- Makes the assignments for one property of one definition. -/
structure Factory where
  property : String
  /-- The name of its declared type. -/
  declaredType : String
  /-- A live value may be installed. -/
  allowsRunTime : Bool
  kind : FactoryKind
  deriving DecidableEq, Repr

namespace Factory

/-- The way in which a property of a tag is written, by its declaration. -/
def kindOf (tag name : String) (p : Property) : Except Error FactoryKind :=
  match p.kind with
  | .complex => .ok .complex
  | .collection addMethod itemType => .ok (.collection addMethod (ValueType.ofDeclared? itemType))
  | .method => .ok .method
  | .simple => match ValueType.ofDeclared? p.declaredType with
    | some type => .ok (.scalar type)
    | none => .error (.unsupportedProperty tag name ("no setter for declared type '" ++ p.declaredType ++ "'"))

/-- The factory for the properties that every definition has; declarations of these names count only for whether
a live value may be installed. -/
def builtIn? (d : Definition) (name : String) : Option Factory :=
  if name = idName then some ⟨idName, "java.lang.String", false, .id⟩
  else if name = renderedName then
    some ⟨renderedName, "boolean", ((d.property? name).map (·.allowsRunTime)).getD true, .rendered⟩
  else none

def ofProperty (d : Definition) (name : String) : Except Error Factory :=
  match builtIn? d name with
  | some f => .ok f
  | none => match d.property? name with
    | none => .error (.unknownProperty d.tag name)
    | some p => (kindOf d.tag name p).map fun kind => ⟨name, p.declaredType, p.allowsRunTime, kind⟩

/-- The type that a live value for the property should have. -/
def expectedType (f : Factory) : ValueType := f.kind.liveType

variable {τ : Type}

/-- The failure for a text or value in the place of something that is described in words. -/
def unfit (f : Factory) (literal expected : String) : Error := .typeCoercion f.property literal expected

/-- The assignment that a plain text stands for. -/
def assignText (f : Factory) (text : String) : Except Error (Assignment τ) :=
  match f.kind with
  | .id => .ok (.id text)
  | .rendered => (Coercion.ofTruthText f.property text).map .rendered
  | .scalar type => (Coercion.ofText f.property text type).map fun v => .scalar f.property v type
  | .complex => .error (f.unfit text "a nested object")
  | .collection addMethod (some type) =>
    (Coercion.ofText f.property text type).map fun v => .collection f.property addMethod [.value v]
  | .collection _ none => .error (f.unfit text "a list of nested objects")
  | .method => .ok (.method f.property (.expression text))

/-- The element that a value stands for. -/
def itemOf (f : Factory) (itemType : Option ValueType) (v : Value) : Except Error (Item τ) :=
  match v, itemType with
  | .object h, _ => .ok (.value (.object h))
  | v, some type => (Coercion.ofValue f.property v type).map .value
  | v, none => .error (f.unfit v.display "a nested object")

/-- The elements that a value stands for: those of a list, or the value itself. -/
def elements : Value → List Value
  | .list vs => vs
  | v => [v]

/-- The assignment that a typed value stands for. -/
def assignValue (f : Factory) (v : Value) : Except Error (Assignment τ) :=
  match f.kind with
  | .id => match v with
    | .text s => .ok (.id s)
    | .int _ | .double _ | .bool _ => .ok (.id v.display)
    | v => .error (f.unfit v.display ValueType.string.name)
  | .rendered => match Coercion.ofValue f.property v .boolean with
    | .error e => .error e
    | .ok (.bool b) => .ok (.rendered b)
    | .ok other => .error (f.unfit other.display ValueType.boolean.name)
  | .scalar type => (Coercion.ofValue f.property v type).map fun w => .scalar f.property w type
  | .complex => match v with
    -- the object exists already, so there is nothing left to build
    | .object h => .ok (.scalar f.property (.object h) .object)
    | v => .error (f.unfit v.display "a nested object")
  | .collection addMethod itemType =>
    ((elements v).mapM (f.itemOf itemType)).map (.collection f.property addMethod)
  | .method => match v with
    | .text s => .ok (.method f.property (.expression s))
    | .object h => match h.yields with
      | some c => .ok (.method f.property (.ready c))
      | none => .error (f.unfit h.typeName "a callable")
    | v => .error (f.unfit v.display "a callable")

/-- The only one of some objects. -/
def single (f : Factory) : List τ → Except Error τ
  | [t] => .ok t
  | ts => .error (f.unfit (Text.ofNatural ts.length ++ " objects") "exactly one nested object")

/-- The assignment that nested objects stand for. -/
def assignObjects (f : Factory) (objects : List τ) : Except Error (Assignment τ) :=
  match f.kind with
  | .complex | .scalar .object => (f.single objects).map (.object f.property)
  | .collection addMethod _ => .ok (.collection f.property addMethod (objects.map .object))
  | .method => (f.single objects).map fun t => .method f.property (.object t)
  | .id | .rendered | .scalar _ => .error (f.unfit "nested object" f.expectedType.name)

end Factory

end PageTemplates
