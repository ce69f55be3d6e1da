import PageTemplates.Page.Fragment
import PageTemplates.Page.Library
import PageTemplates.Program
import PageTemplates.Tree.Basic

/-!
# Fetching pages

The tree of a page is taken from the cache while the loader says that it is current; otherwise the page is
loaded and compiled anew, and only then takes its place in the cache. A failure leaves the cache as it is.

Fetching asks its surroundings to judge a token, to load a page, and to compile markup. A tree that has been
compiled carries a stamp, which is its identity: no two compilations give the same one.
-/

namespace PageTemplates

/-! ## §1 The cache -/

/-- A tree with its identity. -/
structure SharedTree where
  stamp : Nat
  tree : Tree

/-- A compiled page, with the token of the content that was compiled. -/
structure CompiledPage where
  tree : SharedTree
  token : Token

/-- Compiled pages by address, at most one for each. -/
structure PageCache where
  pages : NameMap CompiledPage

namespace PageCache

/-- The cache without pages. -/
def empty : PageCache := ⟨.empty⟩

/-- The compiled page of an address. -/
def get? (c : PageCache) (uri : PageUri) : Option CompiledPage := c.pages.find? uri.text

/-- Stores a compiled page, in place of an earlier one. -/
def put (c : PageCache) (uri : PageUri) (p : CompiledPage) : PageCache := ⟨c.pages.insert uri.text p⟩

/-- Drops the compiled page of an address. -/
def remove (c : PageCache) (uri : PageUri) : PageCache := ⟨c.pages.erase uri.text⟩

/-- The number of compiled pages. -/
def size (c : PageCache) : Nat := c.pages.size

end PageCache

/-! ## §2 Requests -/

/-- What fetching asks for. -/
inductive FetchRequest where
  /-- Is a token out of date? -/
  | expired (uri : PageUri) (token : Token)
  /-- The content of a page. -/
  | load (uri : PageUri)
  /-- The tree of some markup, for a page or for loose content. -/
  | compile (content : String) (uri : Option PageUri)

def FetchRequest.Answer : FetchRequest → Type
  | .expired .. => Bool
  | .load _ => Except LoadError PageContent
  | .compile .. => Except Error SharedTree

/-- A computation that may put these requests. -/
abbrev Fetch := Program FetchRequest.Answer

namespace Fetch

/-- Asks whether a token is out of date. -/
def expired (uri : PageUri) (token : Token) : Fetch Bool :=
  Program.request (A := FetchRequest.Answer) (.expired uri token)

/-- Asks for the content of a page. -/
def load (uri : PageUri) : Fetch (Except LoadError PageContent) :=
  Program.request (A := FetchRequest.Answer) (.load uri)

/-- Asks for the tree of some markup. -/
def compile (content : String) (uri : Option PageUri) : Fetch (Except Error SharedTree) :=
  Program.request (A := FetchRequest.Answer) (.compile content uri)

end Fetch

/-! ## §3 Interpreters -/

/-- What fetches pages. -/
structure Interpreter where
  /-- How loose content is wrapped. -/
  config : PageConfig
  hasLoader : Bool
  hasCache : Bool

namespace Interpreter

/-- The tree in the cache, if it is current. Without a loader every tree in the cache is. -/
def current? (i : Interpreter) (cache : PageCache) (uri : PageUri) : Fetch (Option SharedTree) :=
  match (if i.hasCache then cache.get? uri else none) with
  | none => pure none
  | some page =>
    if i.hasLoader then do
      let stale ← Fetch.expired uri page.token
      pure (if stale then none else some page.tree)
    else pure (some page.tree)

/-- Loads a page and compiles it. -/
def fresh (i : Interpreter) (uri : PageUri) : Fetch (Except Error CompiledPage) :=
  if i.hasLoader then do
    match ← Fetch.load uri with
    | .error e => pure (.error (.resourceUnreachable uri.text (some e)))
    | .ok page =>
      let tree ← Fetch.compile page.content (some uri)
      pure (tree.map fun t => ⟨t, page.token⟩)
  else pure (.error (.resourceUnreachable uri.text none))

/-- The tree of a page, and the cache afterwards. -/
def fetch (i : Interpreter) (cache : PageCache) (uri : PageUri) : Fetch (Except Error SharedTree × PageCache) := do
  match ← i.current? cache uri with
  | some tree => pure (.ok tree, cache)
  | none =>
    match ← i.fresh uri with
    | .error e => pure (.error e, cache)
    | .ok page => pure (.ok page.tree, if i.hasCache then cache.put uri page else cache)

/-- The tree of loose content. The cache has no part in it. -/
def compileContent (i : Interpreter) (content : String) : Fetch (Except Error SharedTree) :=
  Fetch.compile (i.config.prepare content) none

end Interpreter

end PageTemplates
