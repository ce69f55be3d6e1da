import PageTemplates.Text.Affix
import PageTemplates.Text.Blank

/-!
# Loose content

Content that is not a page of its own lacks the root element; it is wrapped in one, on which all namespaces
of the configuration are declared. Content that opens the root element somewhere is left as it is.
-/

namespace PageTemplates

/-- How loose content is wrapped. -/
structure PageConfig where
  /-- The name of the root element, as it is written. -/
  rootTag : String
  /-- The prefixes and namespaces declared on it. -/
  namespaces : List (String × String)
  deriving DecidableEq, Repr

namespace PageConfig

/-- The namespace of the core controls. -/
def coreNamespace : String := "http://www.ibm.com/xsp/core"

/-- The configuration that holds if none is given. -/
def standard : PageConfig where
  rootTag := "xp:view"
  namespaces := [("xp", coreNamespace), ("xc", "http://www.ibm.com/xsp/custom"),
    ("xe", "http://www.ibm.com/xsp/coreex")]

/-- What follows the name of an element in its opening tag: nothing, a blank, or the end of the tag. -/
def endsName : List Char → Bool
  | [] => true
  | c :: _ => Text.isBlank c || c == '>' || c == '/'

/-- Content opens the root element somewhere. -/
def opensRoot (config : PageConfig) (content : String) : Bool :=
  Text.anyAfter ('<' :: config.rootTag.toList) endsName 0 content.toList

/-- The declaration of a namespace. -/
def declaration (entry : String × String) : String := " xmlns:" ++ entry.1 ++ "=\"" ++ entry.2 ++ "\""

/-- Content inside the root element. -/
def wrap (config : PageConfig) (content : String) : String :=
  "<" ++ config.rootTag ++ String.join (config.namespaces.map declaration) ++ ">" ++ content ++
    "</" ++ config.rootTag ++ ">"

/-- Content as it is read: wrapped, unless it opens the root element itself. -/
def prepare (config : PageConfig) (content : String) : String :=
  if config.opensRoot content then content else config.wrap content

end PageConfig

end PageTemplates
