import PageTemplates.Template.Basic

/-!
# Summaries of setters

A summary of a setter names its property, its kind, and in words what it writes. Nested objects are
summarised by their tags.
-/

namespace PageTemplates

/-- What a setter does, in words. -/
structure SetterSummary where
  name : String
  /-- The kind of the setter. -/
  kind : String
  value : String
  deriving DecidableEq, Repr

/-- An element of a collection in words. -/
def Item.summary : Item Template → String
  | .value v => v.display
  | .object t => t.tag

/-- The origin of a callable in words. -/
def CallableSource.summary : CallableSource Template → String
  | .expression e => e
  | .object t => t.tag
  | .ready c => c.expression

def Assignment.kindName : Assignment Template → String
  | .scalar _ _ type => "generic:" ++ type.name
  | .id _ => "id"
  | .rendered _ => "rendered"
  | .object .. => "complex"
  | .collection _ addMethod _ => "collection:" ++ addMethod
  | .method .. => "method-binding"

/-- What an assignment writes, in words. -/
def Assignment.summary : Assignment Template → String
  | .scalar _ v _ => v.display
  | .id text => text
  | .rendered flag => Value.boolText flag
  | .object _ t => t.tag
  | .collection _ _ items => ", ".intercalate (items.map Item.summary)
  | .method _ source => source.summary

/-- Whether a node is built, in words. -/
def BuildCondition.text : BuildCondition → String
  | .literal flag => Value.boolText flag
  | .expression e => e

/-- What a setter does, in words. -/
def Setter.summary : Setter Template → SetterSummary
  | .assign a => ⟨a.name, a.kindName, a.summary⟩
  | .loadTime name e _ => ⟨name, "load-time", e⟩
  | .runTime name e _ => ⟨name, "run-time", e⟩
  | .loaded flag => ⟨loadedName, "loaded", flag.text⟩

end PageTemplates
