import PageTemplates.Error
import PageTemplates.Markup.Token

/-!
# What can be wrong with a document

A text may be no document at all, an element may stand where none is expected, and a facet may lack its key.
-/

namespace PageTemplates

/-- What is wrong with a document. -/
inductive MarkupProblem where
  /-- The text is no document. -/
  | malformed (cause : Markup.Malformed)
  /-- An element stands inside another that cannot hold it. -/
  | unexpectedElement (tag parent : String) (location : Location)
  /-- A facet lacks the attribute that gives its key. -/
  | missingKey (tag key : String) (location : Location)
  deriving DecidableEq, Repr

namespace MarkupProblem

/-- The text of an error. -/
def message : MarkupProblem → String
  | .malformed m => "XML parsing error: " ++ m.message
  | .unexpectedElement tag parent _ => "Unexpected <" ++ tag ++ "> inside <" ++ parent ++ ">"
  | .missingKey tag key _ => "Facet <" ++ tag ++ "> has no '" ++ key ++ "' attribute"

/-- Where the element begins that the error is about. -/
def location? : MarkupProblem → Option Location
  | .malformed _ => none
  | .unexpectedElement _ _ l | .missingKey _ _ l => some l

/-- The error as a failure to compile. -/
def toError (e : MarkupProblem) : Error := .parse e.message e.location?

end MarkupProblem

end PageTemplates
