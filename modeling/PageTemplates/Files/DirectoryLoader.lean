import PageTemplates.Files.FileTree
import PageTemplates.Page.Library

/-!
# Pages in a directory

A loader for the pages below a base directory. The address of a page is a path from there; slashes at its
beginning do not count. A page whose path leads out of the base directory is not loaded.

If the path leads somewhere and the base directory was there when the loader was made, the place where the
path leads has to lie below the place where the base directory led. Otherwise the path may not go up at all.

The token of a page is made of the moment of its last change and its size.
-/

namespace PageTemplates

/-- A loader for the pages below a directory. -/
structure DirectoryLoader where
  base : Path
  /-- Where it led when the loader was made. -/
  place : Option Path

namespace DirectoryLoader

/-- Makes a loader. The base directory need not exist yet. -/
def make (files : FileTree) (base : Path) : DirectoryLoader := ⟨base, (files.canonical base).toOption⟩

/-- The text of an address without the slashes at its beginning. -/
def relative (uri : PageUri) : String := String.ofList (uri.text.toList.dropWhile (· == '/'))

/-- The path of a page, unless it may lead out of the base directory. -/
def path? (l : DirectoryLoader) (files : FileTree) (uri : PageUri) : Option Path :=
  let steps := FileTree.steps (relative uri)
  if relative uri = "" then none
  else
    let whole := l.base ++ steps
    match files.canonical whole, l.place with
    | .ok place, some base => if base.isPrefixOf place then some place else none
    -- one of the two places is not known, so nothing but the steps can be judged
    | _, _ => if steps.contains ".." then none else some whole

/-- The token for a size and a moment. -/
def token (status : Nat × Nat) : Token :=
  ⟨Text.ofNatural status.2 ++ ".000000000:" ++ Text.ofNatural status.1⟩

/-- The failure for a file that cannot be used. -/
def failure (uri : PageUri) : FileProblem → LoadError
  | .notFound => .notFound uri.text
  | p => .unreadable uri.text p.message

def load (l : DirectoryLoader) (files : FileTree) (uri : PageUri) : Except LoadError PageContent :=
  match l.path? files uri with
  | none => .error (.notFound (uri.text ++ " (path traversal blocked)"))
  | some path => match files.status path, files.readText path with
    | .ok status, .ok content => .ok ⟨content, token status⟩
    | .error p, _ => .error (failure uri p)
    | .ok _, .error p => .error (failure uri p)

/-- A token is out of date unless it is that of the file as it is now. -/
def isExpired (l : DirectoryLoader) (files : FileTree) (uri : PageUri) (t : Token) : Bool :=
  match (l.path? files uri).map files.status with
  | some (.ok status) => token status != t
  | _ => true

end DirectoryLoader

end PageTemplates
