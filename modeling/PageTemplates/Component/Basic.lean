import PageTemplates.Expression.Scope

/-!
# Components

The live objects that templates are built into. A component is changed by writes alone, and may refuse one;
it may include a page. There are two kinds. A bag records whatever is written to it. Of a plain component
nothing is known but its conduct: how it answers a write, and for which callable it stands, after the writes
that have been asked of it so far.
-/

namespace PageTemplates

/-! ## §1 Writes and refusals -/

/-- One change of a component. -/
inductive Write where
  /-- A value under a property name. -/
  | property (name : String) (value : Value)
  | id (text : String)
  /-- Whether the component is shown. -/
  | rendered (flag : Bool)
  /-- One more element, by the operation that adds it. -/
  | item (addMethod : String) (value : Value)
  /-- A live value under a property name. -/
  | liveValue (name : String) (binding : LiveValue)
  /-- A callable under a property name. -/
  | callable (name : String) (callable : Callable)

/-- Why a component refuses a write. -/
inductive WriteError where
  /-- The component has no such operation. -/
  | unsupported (operation property : String)
  /-- The value is not one that the property takes. -/
  | invalidValue (property reason : String)
  /-- Any other failure, in words. -/
  | failed (reason : String)
  deriving DecidableEq, Repr

/-- The name of a cause. -/
def WriteError.name : WriteError → String
  | .unsupported .. => "Unsupported"
  | .invalidValue .. => "InvalidValue"
  | .failed _ => "Failed"

/-- The text of a refusal. -/
def WriteError.message : WriteError → String
  | .unsupported o p => o ++ " is not supported for '" ++ p ++ "'"
  | .invalidValue p r => "Invalid value for '" ++ p ++ "': " ++ r
  | .failed r => r

/-! ## §2 Bags -/

/-- What lets an included page be built: the evaluator and the scope in which it is built. -/
structure PageBuilder where
  evaluator : Evaluator
  scope : Scope

/-- The state of a component that includes a page. -/
structure Inclusion where
  page : Option String
  builder : Option PageBuilder

/-- Nothing has been wired yet. -/
def Inclusion.unwired : Inclusion := ⟨none, none⟩

/-- A component that records everything that is written to it. -/
structure Bag where
  typeName : String
  /-- The id written last. -/
  id : Option String
  properties : NameMap Value
  /-- Added elements with the operation that added them, in order. -/
  items : List (String × Value)
  /-- Live values by property name. -/
  liveValues : NameMap LiveValue
  callables : NameMap Callable
  /-- Present in a component that can include a page. -/
  inclusion : Option Inclusion

namespace Bag

/-- A bag to which nothing has been written. -/
def empty (typeName : String) : Bag := ⟨typeName, none, .empty, [], .empty, .empty, none⟩

/-- An empty bag that can include a page. -/
def including (typeName : String) : Bag := { empty typeName with inclusion := some .unwired }

/-- Records a write. A bag keeps the shown flag among its properties. -/
def write (b : Bag) : Write → Bag
  | .property name v => { b with properties := b.properties.insert name v }
  | .id text => { b with id := some text }
  | .rendered flag => { b with properties := b.properties.insert "rendered" (.bool flag) }
  | .item method v => { b with items := b.items ++ [(method, v)] }
  | .liveValue name v => { b with liveValues := b.liveValues.insert name v }
  | .callable name c => { b with callables := b.callables.insert name c }

/-- Names the page to include. A bag that cannot include one stays as it is. -/
def setPage (b : Bag) (page : String) : Bag :=
  { b with inclusion := b.inclusion.map fun i => { i with page := some page } }

/-- Gives the bag what builds the page. A bag that cannot include one stays as it is. -/
def setBuilder (b : Bag) (builder : PageBuilder) : Bag :=
  { b with inclusion := b.inclusion.map fun i => { i with builder := some builder } }

end Bag

/-! ## §3 Plain components -/

/-- The property write that a write amounts to: the id and the shown flag are properties of those names. -/
def Write.asProperty? : Write → Option (String × Value)
  | .property name v => some (name, v)
  | .id text => some ("id", .text text)
  | .rendered flag => some ("rendered", .bool flag)
  | .item .. | .liveValue .. | .callable .. => none

/-- How a component behaves, whatever it does inside. -/
structure Conduct where
  /-- What comes of a write, after the writes that have been asked before. -/
  answer : List Write → Write → Except WriteError Unit
  /-- The callable that the component stands for, after the writes that have been asked. -/
  yields : List Write → Option Callable

/-- A component that is known by its conduct. -/
structure Plain where
  typeName : String
  conduct : Conduct
  /-- The writes that have been asked of the component, in order. -/
  asked : List Write
  /-- Present in a component that can include a page. -/
  inclusion : Option Inclusion

namespace Plain

/-- Answers a write. A component remembers also what it has refused. -/
def write (p : Plain) (w : Write) : Except WriteError Unit × Plain :=
  (p.conduct.answer p.asked w, { p with asked := p.asked ++ [w] })

/-- The properties among the writes that are answered with success, after those that have been asked before. -/
def taken (k : Conduct) (before : List Write) : List Write → NameMap Value → NameMap Value
  | [], m => m
  | w :: rest, m => taken k (before ++ [w]) rest (match k.answer before w, w.asProperty? with
    | .ok (), some (name, v) => m.insert name v
    | _, _ => m)

/-- The properties that the component has taken. -/
def properties (p : Plain) : NameMap Value := taken p.conduct [] p.asked .empty

end Plain

/-- How a component refuses a property. -/
inductive Refusal where
  | unsupported
  | invalid
  | failed
  deriving DecidableEq, Repr

/-- The error for a refused property. -/
def Refusal.error (name : String) (v : Value) : Refusal → WriteError
  | .unsupported => .unsupported "write" name
  | .invalid => .invalidValue name ("rejected " ++ v.display)
  | .failed => .failed (name ++ " refused")

namespace Conduct

/-- The conduct of a component that answers property writes, and supports nothing else. -/
def ofProperties (answer : List Write → String → Value → Except WriteError Unit) : Conduct where
  answer before
    | .property name v => answer before name v
    | .id text => answer before "id" (.text text)
    | .rendered flag => answer before "rendered" (.bool flag)
    | .item method _ => .error (.unsupported "add" method)
    | .liveValue name _ => .error (.unsupported "value binding" name)
    | .callable name _ => .error (.unsupported "method binding" name)
  yields _ := none

/-- The conduct of a component that refuses some properties and takes all others. -/
def refusing (refusals : NameMap Refusal) : Conduct :=
  .ofProperties fun _ name v => match refusals.find? name with
    | some r => .error (r.error name v)
    | none => .ok ()

/-- The same conduct, but the component stands for a callable. -/
def yielding (k : Conduct) (callable : Option Callable) : Conduct := { k with yields := fun _ => callable }

end Conduct

/-! ## §4 Components -/

/-- A component of either kind. -/
inductive Component where
  | bag (b : Bag)
  | plain (p : Plain)

namespace Component

def typeName : Component → String
  | .bag b => b.typeName
  | .plain p => p.typeName

/-- What comes of a write, and the component afterwards. -/
def write : Component → Write → Except WriteError Unit × Component
  | .bag b, w => (.ok (), .bag (b.write w))
  | .plain p, w => ((p.write w).1, .plain (p.write w).2)

/-- The callable that a component stands for. -/
def yields : Component → Option Callable
  | .bag _ => none
  | .plain p => p.conduct.yields p.asked

/-- What a component has been given for including a page, if it can include one. -/
def inclusion? : Component → Option Inclusion
  | .bag b => b.inclusion
  | .plain p => p.inclusion

/-- The component can include a page. -/
def isInclude (c : Component) : Bool := c.inclusion?.isSome

/-- Wires the page to include, and what builds it if there is such. -/
def wirePage (page : String) (builder : Option PageBuilder) : Component → Component
  | .bag b => .bag (match builder with
    | some d => (b.setPage page).setBuilder d
    | none => b.setPage page)
  | .plain p => .plain { p with inclusion := p.inclusion.map fun i => ⟨some page, builder.or i.builder⟩ }

end Component

end PageTemplates
