import PageTemplates.Component.Blueprint
import PageTemplates.Security.Check

/-!
# The journal

What happens while pages are fetched, compiled and built, in the order in which it happens: components that
are constructed, writes that are reported, checks, evaluations, and what is asked of the loader.
-/

namespace PageTemplates

/-- Something that happened. -/
inductive JournalEntry where
  /-- A component of a type was constructed for a definition. -/
  | constructed (typeName : String)
  /-- A component reported a write. -/
  | wrote (report : WriteReport)
  /-- A check was put to the gate. -/
  | checked (c : Check)
  | evaluated (expression : String)
  /-- A live value was made. -/
  | boundValue (expression : String) (type : ValueType)
  | boundCallable (expression : String)
  | loaded (uri : PageUri)
  | judged (uri : PageUri) (token : Token)

/-- What happened, the latest first. -/
abbrev Journal := List JournalEntry

namespace JournalEntry

/-- A target in words: the type of its component. -/
def targetText (t : Target) : String := (t.component.map (·.typeName)).getD "-"

/-- A callable in words. -/
def callableText (c : Callable) : String :=
  let owner := match c.owner with
    | some o => o.tag ++ "#" ++ o.id.getD "-"
    | none => "-"
  c.expression ++ " owner " ++ owner ++ " component " ++ c.componentType.getD "-"

/-- A check about a property in words. -/
def propertyLine (word : String) (t : Target) (property detail : String) : String :=
  word ++ ":" ++ t.tag ++ "." ++ property ++ "=" ++ detail ++ " on " ++ targetText t

/-- A check in words. -/
def checkLine : Check → String
  | .create uri ns tag => "create:" ++ (uri.map (·.text)).getD "-" ++ " \x7b" ++ ns ++ "\x7d" ++ tag
  | .write t p v => propertyLine "set" t p v.display
  | .loadTime t p e => propertyLine "loadtime" t p e
  | .runTime t p b => propertyLine "runtime" t p b.expression
  | .method t p c => propertyLine "method" t p (callableText c)

def line : JournalEntry → String
  | .constructed typeName => "new:" ++ typeName
  | .wrote r => "write:" ++ r.typeName ++ "." ++ r.property ++ "=" ++ r.value
  | .checked c => checkLine c
  | .evaluated e => "eval:" ++ e
  | .boundValue e type => "vbind:" ++ e ++ ":" ++ type.name
  | .boundCallable e => "mbind:" ++ e
  | .loaded uri => "load:" ++ uri.text
  | .judged uri token => "expired?:" ++ uri.text ++ " " ++ token.text

end JournalEntry

/-- The short form of a check, by which it can be vetoed: the word for its kind, the tag, and the property if it has
one. -/
def Check.key (c : Check) : String :=
  let word := match c with
    | .create .. => "create"
    | .write .. => "set"
    | .loadTime .. => "loadtime"
    | .runTime .. => "runtime"
    | .method .. => "method"
  word ++ ":" ++ c.tag ++ ((c.property?.map fun p => "." ++ p).getD "")

end PageTemplates
