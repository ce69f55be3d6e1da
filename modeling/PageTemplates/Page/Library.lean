import PageTemplates.Error
import PageTemplates.NameMap
import PageTemplates.Text.Integer

/-!
# Pages in memory

A library of pages, each with a version. Replacing a page raises its version, and the version is the token
that is handed out with the content, so the token of a replaced page is out of date.
-/

namespace PageTemplates

/-- The content of a page with the token to judge it by. -/
structure PageContent where
  content : String
  token : Token
  deriving DecidableEq, Repr

/-- A page with its version. -/
structure StoredPage where
  content : String
  /-- How often it has been stored since it was last absent. -/
  version : Nat
  deriving DecidableEq, Repr

def StoredPage.token (p : StoredPage) : Token := ⟨"v" ++ Text.ofNatural p.version⟩

/-- Pages by address. -/
structure PageLibrary where
  pages : NameMap StoredPage

namespace PageLibrary

/-- The library without pages. -/
def empty : PageLibrary := ⟨.empty⟩

/-- Stores a page, in place of an earlier one. -/
def add (l : PageLibrary) (uri : PageUri) (content : String) : PageLibrary :=
  let version := match l.pages.find? uri.text with
    | some p => p.version + 1
    -- nothing is known any more of a page that was dropped
    | none => 1
  ⟨l.pages.insert uri.text ⟨content, version⟩⟩

def remove (l : PageLibrary) (uri : PageUri) : PageLibrary := ⟨l.pages.erase uri.text⟩

def content? (l : PageLibrary) (uri : PageUri) : Option String := (l.pages.find? uri.text).map (·.content)

def load (l : PageLibrary) (uri : PageUri) : Except LoadError PageContent :=
  match l.pages.find? uri.text with
  | some p => .ok ⟨p.content, p.token⟩
  | none => .error (.notFound uri.text)

/-- A token is out of date unless it is that of the stored page. -/
def isExpired (l : PageLibrary) (uri : PageUri) (token : Token) : Bool :=
  match l.pages.find? uri.text with
  | some p => p.token != token
  | none => true

end PageLibrary

end PageTemplates
