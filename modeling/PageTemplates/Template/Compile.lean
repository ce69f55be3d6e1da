import PageTemplates.Program
import PageTemplates.Template.Basic

/-!
# Compiling properties

Making setters of attribute texts, typed values and nested objects. Compiling asks two things of its
surroundings: a new template for a tag, and the factory for a property of a definition. All the rest is
decided here.

A text is compiled by its kind. The name of the property is looked at first, so that an unknown property is
an error whatever its text; then load-time expressions, then run-time expressions, then plain texts. A typed
value is looked at as an expression only where it says whether the node is built.
-/

namespace PageTemplates

/-! ## §1 Requests -/

/-- What compiling asks for. -/
inductive CompileRequest where
  /-- A new template for a tag in a namespace, for a page or for loose content. -/
  | create (uri : Option PageUri) (namespaceUri tag : String)
  /-- The factory for a property of a definition, by one of the memos. -/
  | select (memo : Nat) (definition : Definition) (property : String)

def CompileRequest.Answer : CompileRequest → Type
  | .create .. => Except Error Template
  | .select .. => Except Error Factory

/-- A computation that may ask for templates and factories, and may fail. -/
abbrev Compile := ExceptT Error (Program CompileRequest.Answer)

namespace Compile

/-- Asks for a new template. -/
def create (uri : Option PageUri) (namespaceUri tag : String) : Compile Template :=
  ExceptT.mk (Program.request (A := CompileRequest.Answer) (.create uri namespaceUri tag))

/-- Asks for the factory of a property. -/
def select (memo : Nat) (d : Definition) (property : String) : Compile Factory :=
  ExceptT.mk (Program.request (A := CompileRequest.Answer) (.select memo d property))

/-- Takes over a result that is known already. -/
def ofExcept {α : Type} (r : Except Error α) : Compile α := ExceptT.mk (.done r)

end Compile

/-! ## §2 What is given for a property -/

/-- What is given for a property. -/
inductive Raw where
  /-- The text of an attribute, which may be an expression. -/
  | text (s : String)
  | value (v : Value)
  | objects (ts : List Template)

namespace Template

/-- Compiles a text that says whether the node is built. -/
def compileCondition (text : String) : Except Error (Setter Template) :=
  match ExpressionKind.classify text with
  | .loadTime => .ok (.loaded (.expression (Text.trim text)))
  | .runTime => .error (.bindingResolution loadedName text "'loaded' only accepts literals or load-time expressions")
  | .literal => (Coercion.ofTruthText loadedName text).map fun flag => .loaded (.literal flag)

/-- Compiles a text with the factory of its property. -/
def compileText (tag name text : String) (f : Factory) : Except Error (Setter Template) :=
  match ExpressionKind.classify text with
  | .loadTime => .ok (.loadTime name (Text.trim text) f)
  | .literal => (f.assignText text).map .assign
  | .runTime =>
    -- a callable is bound to the expression itself
    if f.kind = .method then (f.assignText text).map .assign
    else if f.allowsRunTime then .ok (.runTime name text f.expectedType)
    else .error (.bindingResolution name text ("'" ++ name ++ "' on '" ++ tag ++ "' does not accept runtime bindings"))

/-- Compiles a typed value that says whether the node is built. -/
def compileConditionValue : Value → Except Error (Setter Template)
  | .bool b => .ok (.loaded (.literal b))
  | .text s => compileCondition s
  | v => .error (.typeCoercion loadedName v.display "boolean")

/-- Compiles the text of a property, without attaching the setter. -/
def compileTextSetter (t : Template) (name text : String) : Compile (Setter Template) :=
  if name = loadedName then .ofExcept (compileCondition text)
  else do
    let f ← Compile.select t.memo t.definition name
    .ofExcept (compileText t.tag name text f)

/-- Compiles whatever is given for a property, without attaching the setter. -/
def compileSetter (t : Template) (name : String) : Raw → Compile (Setter Template)
  | .text s => t.compileTextSetter name s
  | .value v =>
    if name = loadedName then .ofExcept (compileConditionValue v)
    else do
      let f ← Compile.select t.memo t.definition name
      .ofExcept ((f.assignValue v).map .assign)
  | .objects ts =>
    if name = loadedName then .ofExcept (.error (.typeCoercion loadedName "nested object" "boolean"))
    else do
      let f ← Compile.select t.memo t.definition name
      .ofExcept ((f.assignObjects ts).map .assign)

/-- Compiles the text of a property and attaches the setter. -/
def addText (t : Template) (name text : String) : Compile Template := do
  let s ← t.compileTextSetter name text
  pure (t.attach s)

/-- Compiles whatever is given for a property and attaches the setter. -/
def add (t : Template) (name : String) (raw : Raw) : Compile Template := do
  let s ← t.compileSetter name raw
  pure (t.attach s)

end Template

end PageTemplates
