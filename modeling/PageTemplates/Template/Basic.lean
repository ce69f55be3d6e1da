import PageTemplates.Template.Factory

/-!
# Templates

A template is the compiled form of one element: its definition, a setter for each property that was given,
and whether it is built at all. It is never changed by a build, so it can be built any number of times.

A setter is an assignment that is known already, or one that has to be found out while the component is
built, or a live binding. The nested objects of an assignment are templates themselves.
-/

namespace PageTemplates

/-! ## §1 Setters -/

/-- Whether a node is built. -/
inductive BuildCondition where
  /-- Known when the page is compiled. -/
  | literal (flag : Bool)
  /-- A load-time expression, evaluated whenever the question is asked. -/
  | expression (text : String)
  deriving DecidableEq, Repr

/-- The compiled form of one property. -/
inductive Setter (τ : Type) where
  | assign (a : Assignment τ)
  /-- An expression that is evaluated once; a factory makes an assignment of its value. -/
  | loadTime (name expression : String) (factory : Factory)
  | runTime (name expression : String) (type : ValueType)
  /-- Whether the node is built. It is looked at before the component is built, and writes nothing. -/
  | loaded (flag : BuildCondition)

/-- The property that a setter is for. -/
def Setter.name {τ : Type} : Setter τ → String
  | .assign a => a.name
  | .loadTime name .. | .runTime name .. => name
  | .loaded _ => loadedName

/-! ## §2 Templates -/

/-- The compiled form of an element. -/
structure Template where
  /-- What is known of its tag. -/
  definition : Definition
  /-- Which of the memos of factories it is compiled with. -/
  memo : Nat
  /-- The setters, in the order in which their properties were first given. -/
  setters : List (Setter Template)
  /-- Whether it is built; it is, unless something is said. -/
  loaded : Option BuildCondition

namespace Template

/-- The template of a tag without properties. -/
def empty (definition : Definition) (memo : Nat) : Template := ⟨definition, memo, [], none⟩

def tag (t : Template) : String := t.definition.tag

/-- The literal id of a list of setters. -/
def idOf {τ : Type} : List (Setter τ) → Option String
  | [] => none
  | .assign (.id text) :: _ => some text
  | _ :: rest => idOf rest

/-- The literal id, if there is one. -/
def id? (t : Template) : Option String := idOf t.setters

/-- What a component built from the template is to its callables. -/
def owner (t : Template) : Owner := ⟨t.tag, t.id?⟩

/-- Puts a setter in the place of the one for the same property, or at the end if there is none. -/
def replaceOrAdd {τ : Type} (s : Setter τ) : List (Setter τ) → List (Setter τ)
  | [] => [s]
  | first :: rest => if first.name = s.name then s :: rest else first :: replaceOrAdd s rest

/-- Attaches a setter. What decides whether the node is built is kept apart from the others. -/
def attach (t : Template) : Setter Template → Template
  | .loaded flag => { t with loaded := some flag }
  | s => { t with setters := replaceOrAdd s t.setters }

end Template

end PageTemplates
