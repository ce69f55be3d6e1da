import PageTemplates.Build.LiveTree
import PageTemplates.Files.DirectoryLoader
import PageTemplates.Host.Journal
import PageTemplates.Markup.Compile
import PageTemplates.Page.Fetch
import PageTemplates.Template.Memo

/-!
# The world of a host

Everything that requests are answered from and that may change by answering them: the components, the
definitions, the remembered factories, the pages, the cache, and the journal. The three handlers below answer
the requests of building, of compiling and of fetching.
-/

namespace PageTemplates

/-! ## §1 State -/

/-- Where pages come from. -/
inductive PageSource where
  | library (l : PageLibrary)
  | directory (l : DirectoryLoader) (files : FileTree)

/-- What a host has. -/
structure World where
  store : Store
  /-- What happened, the latest first. -/
  journal : Journal
  registry : Registry
  memos : Memos
  source : PageSource
  cache : PageCache
  /-- The identity of the next tree. -/
  nextStamp : Nat
  /-- An answer that is given whenever a token is to be judged, instead of judging it. -/
  verdict : Option Bool

namespace World

/-- A host with nothing but a source of pages. -/
def initial (source : PageSource) : World := ⟨.empty, [], .empty, .empty, source, .empty, 0, none⟩

/-- Takes a definition into the registry. -/
def register (w : World) (d : Definition) : World := { w with registry := w.registry.register d }

/-- The library that the pages come from, which is empty if they come from a directory. -/
def library (w : World) : PageLibrary :=
  match w.source with
  | .library l => l
  | .directory .. => .empty

/-- Replaces the library that the pages come from. -/
def withLibrary (w : World) (l : PageLibrary) : World := { w with source := .library l }

/-- Replaces the files among which the pages are. Pages of a library stay as they are. -/
def withFiles (w : World) (files : FileTree) : World :=
  match w.source with
  | .library _ => w
  | .directory l _ => { w with source := .directory l files }

def note (w : World) (e : JournalEntry) : World := { w with journal := e :: w.journal }

/-- Builds a blueprint, and notes the reports made meanwhile. -/
def construct (w : World) (b : Blueprint) : Instance × World :=
  let (i, shop) := b.build ⟨w.store, []⟩
  (i, { w with store := shop.store, journal := shop.reports.map .wrote ++ w.journal })

/-- Constructs the component that a definition describes. -/
def instantiate (w : World) (d : Definition) : Instance × World :=
  (w.note (.constructed d.blueprint.typeName)).construct d.blueprint

/-- Builds a draft, and notes the reports made meanwhile. -/
def realize (w : World) (d : Draft) : Value × World :=
  let (v, shop) := d.build ⟨w.store, []⟩
  (v, { w with store := shop.store, journal := shop.reports.map .wrote ++ w.journal })

/-- Applies a write to a component, and notes the report that it makes. -/
def write (w : World) (ref : Nat) (change : Write) : Except WriteError Unit × World :=
  let w := match (w.store.get? ref).bind (·.report? change) with
    | some r => w.note (.wrote r)
    | none => w
  let (answer, store) := w.store.write ref change
  (answer, { w with store := store })

def load (w : World) (uri : PageUri) : Except LoadError PageContent × World :=
  let answer := match w.source with
    | .library l => l.load uri
    | .directory l files => l.load files uri
  (answer, w.note (.loaded uri))

def judge (w : World) (uri : PageUri) (token : Token) : Bool × World :=
  let answer := match w.verdict, w.source with
    | some verdict, _ => verdict
    | none, .library l => l.isExpired uri token
    | none, .directory l files => l.isExpired files uri token
  (answer, w.note (.judged uri token))

end World

/-! ## §2 Building -/

/-- In what surroundings components are built. -/
structure Context where
  scope : Scope
  evaluator : Evaluator
  gate : Gate
  /-- Checks are noted in the journal. -/
  watched : Bool
  builder : Option PageBuilder
  /-- How the callables are wired that do not evaluate their expression in the scope. -/
  wiring : Wiring

namespace Context

/-- Surroundings in which everything is allowed and no page can be included. -/
def bare (evaluator : Evaluator) (scope : Scope) : Context :=
  ⟨scope, evaluator, Gate.permissive, false, none, .byManner⟩

/-- Gives a callable an owner. A callable of the scope always takes note of it. -/
def wireOwner (ctx : Context) (c : Callable) (owner : Owner) : Except EvaluationError (Option Callable) :=
  match c.manner with
  | .scoped => c.wireOwner owner
  | _ => ctx.wiring.owner c owner

/-- Gives a callable a component of some type. A callable of the scope always takes note of it. -/
def wireComponent (ctx : Context) (c : Callable) (typeName : String) : Except EvaluationError (Option Callable) :=
  match c.manner with
  | .scoped => c.wireComponent typeName
  | _ => ctx.wiring.component c typeName

def answer (ctx : Context) : Program.Handler BuildRequest.Answer World
  | .construct d, w => w.instantiate d
  | .check c, w => (ctx.gate c, if ctx.watched then w.note (.checked c) else w)
  | .evaluate e, w => (ctx.evaluator.evaluate e ctx.scope, w.note (.evaluated e))
  | .bindValue e type, w => (ctx.evaluator.liveValue e type, w.note (.boundValue e type))
  | .bindCallable e, w => (ctx.evaluator.callable e, w.note (.boundCallable e))
  | .wireOwner c owner, w => (ctx.wireOwner c owner, w)
  | .wireComponent c i, w => (ctx.wireComponent c i.typeName, w)
  | .write i change, w => w.write i.ref change
  | .yielded i, w => ((w.store.get? i.ref).bind Component.yields, w)
  | .finish i, w => (w.store.handle i, w)
  | .wirePage i page, w => ((), match w.store.get? i.ref with
    | some c => { w with store := w.store.set i.ref (c.wirePage page ctx.builder) }
    | none => w)

def run {α : Type} (ctx : Context) (p : Build α) (w : World) : Except Error α × World := Program.run ctx.answer p w

end Context

/-! ## §3 Compiling -/

/-- What makes the templates of elements: a gate, and the memo that the templates are compiled with. -/
structure TemplateMaker where
  /-- The number of the memo. -/
  memo : Nat
  gate : Gate

namespace TemplateMaker

/-- A new template: the tag has to be known, and may then be refused by the gate. -/
def create (f : TemplateMaker) (uri : Option PageUri) (namespaceUri tag : String) (w : World) :
    Except Error Template × World :=
  match w.registry.find? namespaceUri tag with
  | none => (.error (.unknownTag namespaceUri tag), w)
  | some d =>
    let c := Check.create uri namespaceUri tag
    let w := w.note (.checked c)
    match f.gate c with
    | .error v => (.error (.security v), w)
    | .ok () => (.ok (.empty d f.memo), w)

/-- Answers the requests of compiling. -/
def answer (f : TemplateMaker) : Program.Handler CompileRequest.Answer World
  | .create uri namespaceUri tag, w => f.create uri namespaceUri tag w
  | .select memo d property, w =>
    let (answer, memos) := w.memos.obtainFactory memo d property
    (answer, { w with memos := memos })

def run {α : Type} (f : TemplateMaker) (p : Compile α) (w : World) : Except Error α × World :=
  Program.run f.answer p w

end TemplateMaker

/-! ## §4 Fetching -/

/-- Gives a tree its identity. -/
def World.stamp (w : World) (t : Tree) : SharedTree × World :=
  (⟨w.nextStamp, t⟩, { w with nextStamp := w.nextStamp + 1 })

/-- Compiles markup, reading facet keys in a namespace, and gives the tree its identity. -/
def TemplateMaker.compileMarkup (f : TemplateMaker) (setting : Markup.Setting) (content : String) (w : World) :
    Except Error SharedTree × World :=
  match f.run (Markup.compileText setting content) w with
  | (.ok t, w) =>
    let (shared, w) := w.stamp t
    (.ok shared, w)
  | (.error e, w) => (.error e, w)

def TemplateMaker.fetchAnswer (f : TemplateMaker) : Program.Handler FetchRequest.Answer World
  | .expired uri token, w => w.judge uri token
  | .load uri, w => w.load uri
  | .compile content uri, w => f.compileMarkup ⟨uri, PageConfig.coreNamespace⟩ content w

end PageTemplates
