import PageTemplates.Component.Store

/-!
# Blueprints

A blueprint says how a new component looks: its kind, the name of its type, and properties that are written
to it at once. A property may itself be a component to be built, so that building a blueprint may build
several. Plain components report the property writes they are asked for; a build collects these reports.
-/

namespace PageTemplates

/-- A property write that a plain component has been asked for. -/
structure WriteReport where
  /-- The name of the type of the component. -/
  typeName : String
  property : String
  /-- The text of the value. -/
  value : String
  deriving DecidableEq, Repr

/-- The report of a write on a component, if it makes one. -/
def Component.report? : Component → Write → Option WriteReport
  | .bag _, _ => none
  | .plain p, w => w.asProperty?.map fun (name, v) => ⟨p.typeName, name, v.display⟩

/-! ## §1 Drafts of values and components -/

/-- What a blueprint is going to build. -/
inductive BlueprintKind where
  | bag
  /-- A bag that can include a page. -/
  | including
  /-- A plain component that refuses some properties. -/
  | plain (refusals : NameMap Refusal)
  /-- A plain component that refuses some properties and stands for a callable. -/
  | callable (refusals : NameMap Refusal) (yields : Option Callable)
  /-- A plain component of any conduct, which may be able to include a page. -/
  | foreign (conduct : Conduct) (includes : Bool)

mutual

/-- A value, some parts of which have still to be built. -/
inductive Draft where
  | ready (v : Value)
  | list (items : List Draft)
  /-- A component to be built. -/
  | object (b : Blueprint)

/-- A component to be built. -/
inductive Blueprint where
  | mk (kind : BlueprintKind) (typeName : String) (properties : List (String × Draft))

end

instance : Inhabited Draft := ⟨.ready .null⟩

instance : Inhabited Blueprint := ⟨.mk .bag "" []⟩

namespace Blueprint

def typeName : Blueprint → String
  | .mk _ typeName _ => typeName

/-- The component before its properties are written. -/
def initial (kind : BlueprintKind) (typeName : String) : Component :=
  match kind with
  | .bag => .bag (.empty typeName)
  | .including => .bag (.including typeName)
  | .plain refusals => .plain ⟨typeName, .refusing refusals, [], none⟩
  | .callable refusals yields => .plain ⟨typeName, (Conduct.refusing refusals).yielding yields, [], none⟩
  | .foreign conduct includes => .plain ⟨typeName, conduct, [], if includes then some .unwired else none⟩

end Blueprint

/-! ## §2 Building -/

/-- The store, and the reports made so far, the latest first. -/
structure Workshop where
  store : Store
  reports : List WriteReport

/-- Writes a property to the component at a place; a refusal is ignored. -/
def Workshop.write (w : Workshop) (ref : Nat) (name : String) (v : Value) : Workshop :=
  let reports := match (w.store.get? ref).bind (·.report? (.property name v)) with
    | some r => r :: w.reports
    | none => w.reports
  ⟨(w.store.write ref (.property name v)).2, reports⟩

mutual

/-- Builds what a draft has still to be built. -/
def Draft.build (w : Workshop) : Draft → Value × Workshop
  | .ready v => (v, w)
  | .list items =>
    let (vs, w) := buildDrafts w items
    (.list vs, w)
  | .object b =>
    let (i, w) := b.build w
    (.object (w.store.handle i), w)

/-- Builds drafts in order. -/
def buildDrafts (w : Workshop) : List Draft → List Value × Workshop
  | [] => ([], w)
  | d :: rest =>
    let (v, w) := d.build w
    let (vs, w) := buildDrafts w rest
    (v :: vs, w)

/-- Builds a component and writes its properties. -/
def Blueprint.build (w : Workshop) : Blueprint → Instance × Workshop
  | .mk kind typeName properties =>
    let (i, store) := w.store.add (Blueprint.initial kind typeName)
    (i, writeDrafts i.ref ⟨store, w.reports⟩ properties)

/-- Writes properties to a component, each built just before it is written. -/
def writeDrafts (ref : Nat) (w : Workshop) : List (String × Draft) → Workshop
  | [] => w
  | (name, d) :: rest =>
    let (v, w) := d.build w
    writeDrafts ref (w.write ref name v) rest

end

end PageTemplates
