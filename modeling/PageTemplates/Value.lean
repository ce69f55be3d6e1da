import PageTemplates.Decimal.Shortest

/-!
# Values

What is written into components: scalars, lists, and finished components. A finished component is known by a
handle: its place in the store of components, which is also its identity, the name of its type, and the
callable that it stands for, if any.

A callable knows how it behaves when it is wired to the node and the component it is installed on, and when
it is invoked; that behaviour is its `manner`.
-/

namespace PageTemplates

/-! ## §1 Declared scalar types -/

/-- The types a simple property may have. -/
inductive ValueType where
  | object
  | string
  | int
  | double
  | boolean
  deriving DecidableEq, Repr

namespace ValueType

/-- The short name, as it is shown. -/
def name : ValueType → String
  | .object => "Object"
  | .string => "String"
  | .int => "int"
  | .double => "double"
  | .boolean => "boolean"

/-- The type behind a declared name. All other names have no scalar type. -/
def ofDeclared? : String → Option ValueType
  | "Object" | "java.lang.Object" => some .object
  | "String" | "java.lang.String" => some .string
  | "int" | "java.lang.Integer" => some .int
  | "double" | "java.lang.Double" => some .double
  | "boolean" | "java.lang.Boolean" => some .boolean
  | _ => none

/-- The name in stored data. -/
def storedName : ValueType → String
  | .object => "Object"
  | .string => "String"
  | .int => "Int"
  | .double => "Double"
  | .boolean => "Boolean"

/-- The type with a name in stored data. -/
def ofStored? : String → Option ValueType
  | "Object" => some .object
  | "String" => some .string
  | "Int" => some .int
  | "Double" => some .double
  | "Boolean" => some .boolean
  | _ => none

end ValueType

/-! ## §2 Callables -/

/-- The node a callable is installed on. -/
structure Owner where
  /-- The tag of the node. -/
  tag : String
  /-- The literal id of the node. -/
  id : Option String
  deriving DecidableEq, Repr

/-- How a callable behaves. -/
inductive Callable.Manner where
  /-- Evaluates its expression, and takes note of its owner and its component. -/
  | scoped
  /-- Returns its arguments as a list. -/
  | echo
  /-- Returns the number of its arguments. -/
  | count
  /-- As `count`, but it cannot be given an owner. -/
  | refusesOwner
  /-- As `count`, but it cannot be given a component. -/
  | refusesComponent
  deriving DecidableEq, Repr

/-- Something that can be invoked by the component it is installed on. -/
structure Callable where
  manner : Callable.Manner
  expression : String
  /-- The node it has been wired to. -/
  owner : Option Owner
  /-- The type of the component it has been wired to. -/
  componentType : Option String
  deriving DecidableEq, Repr

/-- A callable that has not been wired. -/
def Callable.bare (manner : Callable.Manner) (expression : String) : Callable :=
  ⟨manner, expression, none, none⟩

/-! ## §3 Values -/

/-- A finished component, as a value. -/
structure Handle where
  /-- Its place in the store; two handles are the same object if they agree here. -/
  ref : Nat
  typeName : String
  /-- The callable it stands for. -/
  yields : Option Callable
  deriving DecidableEq, Repr

/-- What literals, expressions and built components produce. -/
inductive Value where
  | null
  | bool (b : Bool)
  | int (i : Int64)
  | double (d : Double)
  | text (s : String)
  | list (items : List Value)
  | object (h : Handle)
  deriving Inhabited

namespace Value

/-- The name of the kind of a value, for messages. -/
def label : Value → String
  | .null => "null"
  | .bool _ => "boolean"
  | .int _ => "int"
  | .double _ => "double"
  | .text _ => "String"
  | .list _ => "list"
  | .object _ => "object"

/-- The text of a truth value. -/
def boolText (b : Bool) : String := if b then "true" else "false"

mutual

/-- The text of a value. -/
def display : Value → String
  | .null => "null"
  | .bool b => boolText b
  | .int i => Text.ofInteger i.toInt
  | .double d => d.text
  | .text s => s
  | .list items => "[" ++ displayItems items ++ "]"
  | .object h => "<" ++ h.typeName ++ ">"

/-- The texts of the items of a list, separated by a comma and a space. -/
def displayItems : List Value → String
  | [] => ""
  | [v] => v.display
  | v :: rest => v.display ++ ", " ++ displayItems rest

end

mutual

/-- Equality of values: numbers are compared as numbers, objects by identity. -/
def same : Value → Value → Bool
  | .null, .null => true
  | .bool a, .bool b => a == b
  | .int a, .int b => a == b
  | .double a, .double b => a.same b
  | .text a, .text b => a == b
  | .list xs, .list ys => sameItems xs ys
  | .object a, .object b => a.ref == b.ref
  | _, _ => false

/-- Equality of lists of values, item by item. -/
def sameItems : List Value → List Value → Bool
  | [], [] => true
  | x :: xs, y :: ys => x.same y && sameItems xs ys
  | _, _ => false

end

/-- The truth value, if it is one. -/
def asBool? : Value → Option Bool
  | .bool b => some b
  | _ => none

def asText? : Value → Option String
  | .text s => some s
  | _ => none

/-- The integer, if it is one. -/
def asInt? : Value → Option Int64
  | .int i => some i
  | _ => none

def asDouble? : Value → Option Double
  | .double d => some d
  | _ => none

def isNull : Value → Bool
  | .null => true
  | _ => false

end Value

end PageTemplates
