import PageTemplates.Build.Request
import PageTemplates.Template.Basic

/-!
# Building a component

A component is built from a template in three steps: it is constructed, each setter is applied to it in the
order of attachment, and the page it includes is wired to it.

Every write, every evaluation and every binding is checked just before it is done. A failure ends the build.

The nested objects of an assignment are built by programs; `Template.instantiate` puts the programs of the
nested templates in the place of the templates.
-/

namespace PageTemplates

/-- An object that is still to be built: its tag, and the program that builds it. -/
structure Nested where
  tag : String
  build : Build Instance

/-- The component to which setters are applied: the node it is built for, and the component itself. -/
structure Site where
  owner : Owner
  component : Instance

namespace Site

/-- What the checks at a site are about. -/
def target (s : Site) : Target := ⟨s.owner.tag, some s.component⟩

/-! ## §1 Assignments -/

/-- Checks a value and then writes it. -/
def writeChecked (s : Site) (property : String) (shown : Value) (w : Write) : Build Unit := do
  Build.check (.write s.target property shown)
  Build.write property s.component w

/-- The value of an element of a collection. -/
def itemValue : Item Nested → Build Value
  | .value v => pure v
  | .object n => do
    let i ← n.build
    let h ← Build.finish i
    pure (.object h)

/-- Adds elements one by one; each is built, checked and added before the next. -/
def addItems (s : Site) (property addMethod : String) : List (Item Nested) → Build Unit
  | [] => pure ()
  | item :: rest => do
    let v ← itemValue item
    s.writeChecked property v (.item addMethod v)
    s.addItems property addMethod rest

/-- The callable that a source stands for. -/
def callableOf (property : String) : CallableSource Nested → Build Callable
  | .expression e => Build.bindCallable property e
  | .ready c => pure c
  | .object n => do
    let i ← n.build
    match ← Build.yielded i with
    | some c => pure c
    | none => Build.fail (.bindingResolution property n.tag (i.typeName ++ " does not yield a callable"))

/-- Installs a callable: it is wired to the node, then to the component, then checked as it is. -/
def installCallable (s : Site) (property : String) (source : CallableSource Nested) : Build Unit := do
  let c ← callableOf property source
  -- being wired may give another callable, and it is this one that is checked
  let c ← Build.wireOwner property c s.owner
  let c ← Build.wireComponent property c s.component
  Build.check (.method s.target property c)
  Build.write property s.component (.callable property c)

/-- Carries out an assignment. -/
def assign (s : Site) : Assignment Nested → Build Unit
  | .scalar name v _ => s.writeChecked name v (.property name v)
  | .id text => s.writeChecked idName (.text text) (.id text)
  | .rendered flag => s.writeChecked renderedName (.bool flag) (.rendered flag)
  | .object name n => do
    let i ← n.build
    let h ← Build.finish i
    s.writeChecked name (.object h) (.property name (.object h))
  | .collection name addMethod items => s.addItems name addMethod items
  | .method name source => s.installCallable name source

/-! ## §2 Setters -/

/-- The assignment that the value of a load-time expression stands for. -/
def resolved (property expression : String) (f : Factory) (v : Value) : Build (Assignment Nested) :=
  match f.assignValue v with
  | .ok a => pure a
  | .error e => Build.fail (.bindingResolution property expression e.message)

def apply (s : Site) : Setter Nested → Build Unit
  | .assign a => s.assign a
  | .loadTime name e f => do
    Build.check (.loadTime s.target name e)
    let v ← Build.evaluate name e
    let a ← resolved name e f v
    s.assign a
  | .runTime name e type => do
    -- the live value is made first, because the check is about it
    let b ← Build.bindValue name e type
    Build.check (.runTime s.target name b)
    Build.write name s.component (.liveValue name b)
  | .loaded _ => pure ()

/-- Applies setters in order. -/
def applyAll (s : Site) : List (Setter Nested) → Build Unit
  | [] => pure ()
  | first :: rest => do
    s.apply first
    s.applyAll rest

end Site

/-! ## §3 Templates -/

namespace Template

/-- Builds a component for a definition with setters whose nested objects are programs. -/
def assemble (d : Definition) (owner : Owner) (setters : List (Setter Nested)) : Build Instance := do
  let i ← Build.construct d
  Site.applyAll ⟨owner, i⟩ setters
  match d.includedPage with
  | some page => Build.wirePage i page
  | none => pure ()
  pure i

mutual

/-- Builds a new component, whatever is said about whether it is built at all. -/
def instantiate : Template → Build Instance
  -- the condition of the template is for `component?` to look at
  | ⟨d, _, setters, _⟩ => assemble d ⟨d.tag, idOf setters⟩ (nestSetters setters)

/-- Setters with the programs of their nested templates. -/
def nestSetters : List (Setter Template) → List (Setter Nested)
  | [] => []
  | s :: rest => nestSetter s :: nestSetters rest

/-- A setter with the programs of its nested templates. -/
def nestSetter : Setter Template → Setter Nested
  | .assign a => .assign (nestAssignment a)
  | .loadTime name e f => .loadTime name e f
  | .runTime name e type => .runTime name e type
  | .loaded flag => .loaded flag

/-- An assignment with the programs of its nested templates. -/
def nestAssignment : Assignment Template → Assignment Nested
  | .scalar name v type => .scalar name v type
  | .id text => .id text
  | .rendered flag => .rendered flag
  | .object name t => .object name ⟨t.tag, t.instantiate⟩
  | .collection name addMethod items => .collection name addMethod (nestItems items)
  | .method name source => .method name (nestSource source)

/-- Elements with the programs of their templates. -/
def nestItems : List (Item Template) → List (Item Nested)
  | [] => []
  | item :: rest => nestItem item :: nestItems rest

/-- An element with the program of its template. -/
def nestItem : Item Template → Item Nested
  | .value v => .value v
  | .object t => .object ⟨t.tag, t.instantiate⟩

/-- The origin of a callable with the program of its template. -/
def nestSource : CallableSource Template → CallableSource Nested
  | .expression e => .expression e
  | .object t => .object ⟨t.tag, t.instantiate⟩
  | .ready c => .ready c

end

/-- Applies all setters of the template to a component. -/
def fill (t : Template) (component : Instance) : Build Unit :=
  Site.applyAll ⟨t.owner, component⟩ (nestSetters t.setters)

/-- Whether the template is built at all. An expression is evaluated anew each time, and must give a truth value. -/
def isLoaded (t : Template) : Build Bool :=
  match t.loaded with
  | none => pure true
  | some (.literal flag) => pure flag
  | some (.expression e) => do
    Build.check (.loadTime ⟨t.tag, none⟩ loadedName e)
    let v ← Build.evaluate loadedName e
    match v with
    | .bool b => pure b
    | v => Build.fail (.bindingResolution loadedName e ("expected a boolean, got " ++ v.label))

/-- Builds a new component, if the template is to be built at all. -/
def component? (t : Template) : Build (Option Instance) := do
  if ← t.isLoaded then
    let i ← t.instantiate
    pure (some i)
  else pure none

end Template

end PageTemplates
