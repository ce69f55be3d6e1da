import PageTemplates.Security.Check

/-!
# What can go wrong

The causes for which a page is not fetched, not compiled or not built. Each cause keeps the data it is
about; its text is made by `message` alone. Every cause belongs to one broad class.
-/

namespace PageTemplates

/-! ## §1 Places in a text -/

/-- A place in a text; lines and columns count from one. -/
structure Location where
  line : Nat
  column : Nat
  deriving DecidableEq, Repr

/-- The text of a place. -/
def Location.text (l : Location) : String :=
  "line " ++ Text.ofNatural l.line ++ ", column " ++ Text.ofNatural l.column

/-! ## §2 Failures of a loader -/

/-- Why a page could not be loaded. -/
inductive LoadError where
  /-- There is no such page. -/
  | notFound (page : String)
  /-- The loader failed, in words. -/
  | loadFailed (uri reason : String)
  /-- The content of the page could not be read. -/
  | unreadable (uri cause : String)
  | io (cause : String)
  deriving DecidableEq, Repr

namespace LoadError

/-- The name of a cause. -/
def name : LoadError → String
  | .notFound _ => "NotFound"
  | .loadFailed .. => "LoadFailed"
  | .unreadable .. => "Read"
  | .io _ => "Io"

/-- The text of a failure. -/
def message : LoadError → String
  | .notFound page => "Page not found: " ++ page
  | .loadFailed uri reason => "Failed to load page '" ++ uri ++ "': " ++ reason
  | .unreadable uri cause => "Failed to read page '" ++ uri ++ "': " ++ cause
  | .io cause => "I/O error: " ++ cause

/-- The failure beneath, if there is one. -/
def source? : LoadError → Option String
  | .unreadable _ cause | .io cause => some cause
  | .notFound _ | .loadFailed .. => none

end LoadError

/-! ## §3 All failures -/

/-- The broad classes of failures. -/
inductive ErrorClass where
  | configuration
  | typeCoercion
  | security
  | reflection
  | bindingResolution
  | resourceUnreachable
  | parse
  deriving DecidableEq, Repr

def ErrorClass.name : ErrorClass → String
  | .configuration => "Configuration"
  | .typeCoercion => "TypeCoercion"
  | .security => "Security"
  | .reflection => "Reflection"
  | .bindingResolution => "BindingResolution"
  | .resourceUnreachable => "ResourceUnreachable"
  | .parse => "Parse"

/-- Why a page is not fetched, compiled or built. -/
inductive Error where
  /-- No definition for a tag. -/
  | unknownTag (namespaceUri tag : String)
  /-- The definition of the tag declares no such property. -/
  | unknownProperty (tag property : String)
  /-- A declared property cannot be written. -/
  | unsupportedProperty (tag property reason : String)
  /-- Two facets of a node have one name. -/
  | duplicateFacet (tag name : String)
  /-- A tree has no node of that index. -/
  | foreignNode (index : Nat)
  /-- A text or value is none of the expected type. -/
  | typeCoercion (property literal expected : String)
  /-- A check did not pass. -/
  | security (violation : Violation)
  /-- A component refused a write. -/
  | reflection (property target : String) (source : WriteError)
  /-- An expression has no suitable value. -/
  | bindingResolution (property expression reason : String)
  /-- A page cannot be fetched. -/
  | resourceUnreachable (uri : String) (reason : Option LoadError)
  /-- The markup cannot be read. -/
  | parse (reason : String) (location : Option Location)
  deriving DecidableEq, Repr

namespace Error

/-- The class of a failure. -/
def errorClass : Error → ErrorClass
  | .unknownTag .. | .unknownProperty .. | .unsupportedProperty .. | .duplicateFacet .. | .foreignNode .. =>
    .configuration
  | .typeCoercion .. => .typeCoercion
  | .security .. => .security
  | .reflection .. => .reflection
  | .bindingResolution .. => .bindingResolution
  | .resourceUnreachable .. => .resourceUnreachable
  | .parse .. => .parse

/-- The name of a cause. -/
def name : Error → String
  | .unknownTag .. => "UnknownTag"
  | .unknownProperty .. => "UnknownProperty"
  | .unsupportedProperty .. => "UnsupportedProperty"
  | .duplicateFacet .. => "DuplicateFacet"
  | .foreignNode _ => "ForeignNode"
  | .typeCoercion .. => "TypeCoercion"
  | .security _ => "Security"
  | .reflection .. => "Reflection"
  | .bindingResolution .. => "BindingResolution"
  | .resourceUnreachable .. => "ResourceUnreachable"
  | .parse .. => "Parse"

/-- The text of a failure. -/
def message : Error → String
  | .unknownTag ns tag => "Unknown tag '" ++ tag ++ "' in namespace '" ++ ns ++ "'"
  | .unknownProperty tag p => "Unknown property '" ++ p ++ "' on tag '" ++ tag ++ "'"
  | .unsupportedProperty tag p reason => "Unsupported property '" ++ p ++ "' on tag '" ++ tag ++ "': " ++ reason
  | .duplicateFacet tag name => "Duplicate facet '" ++ name ++ "' on tag '" ++ tag ++ "'"
  | .foreignNode i => "Node " ++ Text.ofNatural i ++ " does not belong to this tree"
  | .typeCoercion p literal expected =>
    "Cannot convert '" ++ literal ++ "' to " ++ expected ++ " for property '" ++ p ++ "'"
  | .security v => v.message
  | .reflection p target source =>
    "Failed to apply property '" ++ p ++ "' on " ++ target ++ ": " ++ source.message
  | .bindingResolution p e reason =>
    "Cannot resolve binding '" ++ e ++ "' for property '" ++ p ++ "': " ++ reason
  | .resourceUnreachable uri none => "Resource not reachable: " ++ uri
  | .resourceUnreachable uri (some reason) => "Resource not reachable: " ++ uri ++ " (" ++ reason.message ++ ")"
  | .parse reason none => "Markup parse error: " ++ reason
  | .parse reason (some l) => "Markup parse error: " ++ reason ++ " at " ++ l.text

/-- The text of the failure beneath, if there is one. -/
def source? : Error → Option String
  | .reflection _ _ source => some source.message
  | .resourceUnreachable _ reason => reason.map LoadError.message
  | _ => none

end Error

end PageTemplates
