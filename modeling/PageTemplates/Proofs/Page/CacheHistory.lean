import PageTemplates.Proofs.Build.Wiring
import PageTemplates.Proofs.Page.Staleness
import PageTemplates.Proofs.Program.Answers
import PageTemplates.Proofs.Program.Asked

/-!
# What the cache of pages holds

An interpreter is asked for pages, for loose content, and for pages that components include, in any order. Nothing is
known of the loader and the compiler that answer it: each request may get any answer, and the answers may change from
one request to the next.

A fetch has six outcomes (`Fetched`, `fetched_of_runs`): the cached tree is taken, at once or after the loader has
judged its token; or there is no loader, loading fails, compiling fails, or a new tree is compiled. Only the last of
these touches the cache. From this follows what each call does with the cache, and by induction over the calls where
its entries come from (`History.keeps`).

## Structure

- §1 inverts one fetch, §2 describes a call and a history of calls.
- §3 says what one call does.
- §4 shows that the calls of an engine, whose world has the cache, are such a history.
- §5 says what a history does.
-/

namespace PageTemplates

open Program (Event Runs)

/-! ## §1 One fetch -/

/-- A request of fetching with its answer. -/
abbrev FetchEvent := Event FetchRequest.Answer

def judgedAs (uri : PageUri) (token : Token) (stale : Bool) : FetchEvent := ⟨.expired uri token, (stale : Bool)⟩

def loadedAs (uri : PageUri) (answer : Except LoadError PageContent) : FetchEvent := ⟨.load uri, answer⟩

def compiledAs (content : String) (uri : Option PageUri) (answer : Except Error SharedTree) : FetchEvent :=
  ⟨.compile content uri, answer⟩

@[simp] theorem PageCache.get?_put (c : PageCache) (uri other : PageUri) (page : CompiledPage) :
    (c.put uri page).get? other = if uri = other then some page else c.get? other := by
  cases uri
  cases other
  simp [put, get?, NameMap.find?_insert]

namespace Interpreter

/-- The compiled page that a fetch finds. -/
def cached? (i : Interpreter) (cache : PageCache) (uri : PageUri) : Option CompiledPage :=
  if i.hasCache then cache.get? uri else none

/-- The loader has been asked about the cached page, if there is one, and has called it out of date. -/
inductive Outdated (i : Interpreter) (cache : PageCache) (uri : PageUri) : List FetchEvent → Prop where
  | missing (h : i.cached? cache uri = none) : Outdated i cache uri []
  | stale {page : CompiledPage} (h : i.cached? cache uri = some page) :
      Outdated i cache uri [judgedAs uri page.token true]

/-- What may come of a fetch: the requests with their answers, the result, and the cache afterwards. -/
inductive Fetched (i : Interpreter) (cache : PageCache) (uri : PageUri) :
    List FetchEvent → Except Error SharedTree → PageCache → Prop where
  | unjudged {page : CompiledPage} (hloader : i.hasLoader = false) (h : i.cached? cache uri = some page) :
      Fetched i cache uri [] (.ok page.tree) cache
  | current {page : CompiledPage} (hloader : i.hasLoader = true) (h : i.cached? cache uri = some page) :
      Fetched i cache uri [judgedAs uri page.token false] (.ok page.tree) cache
  | loaderless (hloader : i.hasLoader = false) (h : i.cached? cache uri = none) :
      Fetched i cache uri [] (.error (.resourceUnreachable uri.text none)) cache
  | unloaded {asked : List FetchEvent} (e : LoadError) (hloader : i.hasLoader = true) (h : Outdated i cache uri asked) :
      Fetched i cache uri (asked ++ [loadedAs uri (.error e)]) (.error (.resourceUnreachable uri.text (some e))) cache
  | uncompiled {asked : List FetchEvent} (page : PageContent) (e : Error) (hloader : i.hasLoader = true)
      (h : Outdated i cache uri asked) :
      Fetched i cache uri (asked ++ [loadedAs uri (.ok page), compiledAs page.content (some uri) (.error e)])
        (.error e) cache
  | compiled {asked : List FetchEvent} (page : PageContent) (tree : SharedTree) (hloader : i.hasLoader = true)
      (h : Outdated i cache uri asked) :
      Fetched i cache uri (asked ++ [loadedAs uri (.ok page), compiledAs page.content (some uri) (.ok tree)])
        (.ok tree) (if i.hasCache then cache.put uri ⟨tree, page.token⟩ else cache)

variable {i : Interpreter} {cache after : PageCache} {uri : PageUri} {events : List FetchEvent}

@[simp] theorem cached?_of_hasCache (h : i.hasCache = true) : i.cached? cache uri = cache.get? uri := if_pos h

theorem runs_current? {found : Option SharedTree} (h : Runs (i.current? cache uri) events found) :
    (∃ page, i.cached? cache uri = some page ∧ found = some page.tree ∧
      (i.hasLoader = false ∧ events = [] ∨ i.hasLoader = true ∧ events = [judgedAs uri page.token false])) ∨
    (found = none ∧ Outdated i cache uri events ∧ (i.hasLoader = false → i.cached? cache uri = none)) := by
  unfold current? at h
  rw [show (if i.hasCache then cache.get? uri else none) = i.cached? cache uri from rfl] at h
  cases hpage : i.cached? cache uri with
  | none =>
    rw [hpage] at h
    obtain ⟨rfl, rfl⟩ := Program.runs_done.mp h
    exact .inr ⟨rfl, .missing hpage, fun _ => rfl⟩
  | some page =>
    rw [hpage] at h
    cases hloader : i.hasLoader with
    | false =>
      simp only [hloader, Bool.false_eq_true, if_false] at h
      obtain ⟨rfl, rfl⟩ := Program.runs_done.mp h
      exact .inl ⟨page, rfl, rfl, .inl ⟨rfl, rfl⟩⟩
    | true =>
      simp only [hloader, if_true] at h
      obtain ⟨stale, rest, rfl, hrest⟩ := Program.runs_ask.mp h
      obtain ⟨rfl, rfl⟩ := Program.runs_done.mp hrest
      -- the answer of the loader alone decides
      cases (stale : Bool) with
      | false => exact .inl ⟨page, rfl, rfl, .inr ⟨rfl, rfl⟩⟩
      | true => exact .inr ⟨rfl, .stale hpage, nofun⟩

theorem runs_fresh {result : Except Error CompiledPage} (h : Runs (i.fresh uri) events result) :
    (i.hasLoader = false ∧ events = [] ∧ result = .error (.resourceUnreachable uri.text none)) ∨
    (i.hasLoader = true ∧
      ((∃ e, events = [loadedAs uri (.error e)] ∧ result = .error (.resourceUnreachable uri.text (some e))) ∨
        ∃ page answer, events = [loadedAs uri (.ok page), compiledAs page.content (some uri) answer] ∧
          result = answer.map fun t => ⟨t, page.token⟩)) := by
  unfold fresh at h
  cases hloader : i.hasLoader with
  | false =>
    simp only [hloader, Bool.false_eq_true, if_false] at h
    obtain ⟨rfl, rfl⟩ := Program.runs_done.mp h
    exact .inl ⟨rfl, rfl, rfl⟩
  | true =>
    simp only [hloader, if_true] at h
    obtain ⟨answer, rest, rfl, hrest⟩ := Program.runs_ask.mp h
    refine .inr ⟨rfl, ?_⟩
    cases hanswer : (answer : Except LoadError PageContent) with
    | error e =>
      subst hanswer
      obtain ⟨rfl, rfl⟩ := Program.runs_done.mp hrest
      exact .inl ⟨e, rfl, rfl⟩
    | ok page =>
      subst hanswer
      -- what is compiled is the content that was loaded, for the address that was asked for
      obtain ⟨tree, last, rfl, hlast⟩ := Program.runs_ask.mp hrest
      obtain ⟨rfl, rfl⟩ := Program.runs_done.mp hlast
      exact .inr ⟨page, tree, rfl, rfl⟩

theorem fetched_of_runs {result : Except Error SharedTree} (h : Runs (i.fetch cache uri) events (result, after)) :
    Fetched i cache uri events result after := by
  obtain ⟨found, asked, rest, rfl, hcurrent, hrest⟩ := Program.runs_bind.mp h
  rcases runs_current? hcurrent with ⟨page, hpage, rfl, hasked⟩ | ⟨rfl, houtdated, hnone⟩
  · -- a tree was found, and nothing is asked after that
    obtain ⟨rfl, hdone⟩ := Program.runs_done.mp hrest
    cases hdone
    rcases hasked with ⟨hloader, rfl⟩ | ⟨hloader, rfl⟩
    · exact .unjudged hloader hpage
    · exact .current hloader hpage
  · -- none was found, so the page is loaded and compiled
    obtain ⟨made, first, last, rfl, hfresh, hlast⟩ := Program.runs_bind.mp hrest
    rcases runs_fresh hfresh with ⟨hloader, rfl, rfl⟩ | ⟨hloader, ⟨e, rfl, rfl⟩ | ⟨page, answer, rfl, rfl⟩⟩
    · obtain ⟨rfl, hdone⟩ := Program.runs_done.mp hlast
      cases hdone
      -- without a loader nothing can be out of date, so nothing is cached
      have hmissing := hnone hloader
      cases houtdated with
      | missing _ => exact .loaderless hloader hmissing
      | stale hpage =>
        rw [hmissing] at hpage
        cases hpage
    · obtain ⟨rfl, hdone⟩ := Program.runs_done.mp hlast
      cases hdone
      exact .unloaded e hloader houtdated
    · cases answer with
      | error e =>
        obtain ⟨rfl, hdone⟩ := Program.runs_done.mp hlast
        cases hdone
        exact .uncompiled page e hloader houtdated
      | ok tree =>
        obtain ⟨rfl, hdone⟩ := Program.runs_done.mp hlast
        cases hdone
        exact .compiled page tree hloader houtdated

end Interpreter

/-! ## §2 Calls -/

/-- What an interpreter is asked for. -/
inductive PageCall where
  | fetch (uri : PageUri)
  | compile (content : String)
  /-- A component includes a page. The page is fetched, and then it is built, for which nothing is fetched. -/
  | build (page : String)
  deriving DecidableEq

/-- The address of the page that is fetched. -/
def PageCall.uri? : PageCall → Option PageUri
  | .fetch uri => some uri
  | .compile _ => none
  | .build page => some ⟨page⟩

/-- A call with what came of it. -/
structure PageRecord where
  call : PageCall
  before : PageCache
  events : List FetchEvent
  result : Except Error SharedTree
  after : PageCache

namespace Interpreter

def perform (i : Interpreter) (cache : PageCache) : PageCall → Fetch (Except Error SharedTree × PageCache)
  | .fetch uri => i.fetch cache uri
  | .compile content => do pure (← i.compileContent content, cache)
  | .build page => i.fetch cache ⟨page⟩

/-- Calls, the latest first, each with the cache that the call before it has left. At first the cache is empty. -/
inductive History (i : Interpreter) : List PageRecord → PageCache → Prop where
  | start : History i [] .empty
  | call {records : List PageRecord} (r : PageRecord) (past : History i records r.before)
      (h : Runs (i.perform r.before r.call) r.events (r.result, r.after)) : History i (r :: records) r.after

variable {i : Interpreter} {cache : PageCache} {r : PageRecord} {records : List PageRecord}

theorem perform_of_uri? {call : PageCall} {uri : PageUri} (h : call.uri? = some uri) :
    i.perform cache call = i.fetch cache uri := by
  cases call with
  | fetch u => cases h; rfl
  | compile content => cases h
  | build page => cases h; rfl

theorem runs_perform_compile {content : String} {events : List FetchEvent} {result : Except Error SharedTree}
    {after : PageCache} (h : Runs (i.perform cache (.compile content)) events (result, after)) :
    after = cache ∧ events = [compiledAs (i.config.prepare content) none result] := by
  obtain ⟨answer, rest, rfl, hrest⟩ := Program.runs_ask.mp h
  obtain ⟨rfl, hdone⟩ := Program.runs_done.mp hrest
  cases hdone
  exact ⟨rfl, rfl⟩

/-! ## §3 What one call does -/

/-- Why a page could not be had: there is no loader, loading failed, or compiling failed. -/
inductive Hindrance (i : Interpreter) (uri : PageUri) (events : List FetchEvent) : Error → Prop where
  | loaderless (h : i.hasLoader = false) : Hindrance i uri events (.resourceUnreachable uri.text none)
  | unloaded {e : LoadError} (h : loadedAs uri (.error e) ∈ events) :
      Hindrance i uri events (.resourceUnreachable uri.text (some e))
  | uncompiled {content : String} {e : Error} (h : compiledAs content (some uri) (.error e) ∈ events) :
      Hindrance i uri events e

/-- What a call does with a cache that the interpreter has. -/
structure Keeps (i : Interpreter) (r : PageRecord) : Prop where
  /-- A page that cannot be had leaves the cache as it is, with the entry that was out of date. -/
  failed : ∀ uri e, r.call.uri? = some uri → r.result = .error e →
    i.Hindrance uri r.events e ∧ r.after = r.before
  /-- The tree of a page is in the cache afterwards, and the entries of the other pages are what they were. -/
  fetched : ∀ uri tree, r.call.uri? = some uri → r.result = .ok tree →
    (r.after.get? uri).map CompiledPage.tree = some tree ∧ ∀ other ≠ uri, r.after.get? other = r.before.get? other
  /-- Without a loader the tree in the cache is taken. -/
  unjudged : ∀ uri page, r.call.uri? = some uri → r.before.get? uri = some page → i.hasLoader = false →
    r.events = [] ∧ r.result = .ok page.tree ∧ r.after = r.before
  /-- The loader judges the token in the cache, and nothing is loaded if it does not call it out of date. -/
  judged : ∀ uri page, r.call.uri? = some uri → r.before.get? uri = some page → i.hasLoader = true →
    ∃ stale rest, r.events = judgedAs uri page.token stale :: rest ∧
      (stale = false → rest = [] ∧ r.result = .ok page.tree ∧ r.after = r.before)
  /-- Loose content is compiled, and that is all. -/
  compiled : ∀ content, r.call = .compile content →
    r.after = r.before ∧ r.events = [compiledAs (i.config.prepare content) none r.result]

section Fetched

variable {uri : PageUri} {events : List FetchEvent} {result : Except Error SharedTree} {after : PageCache}

theorem Fetched.failed {e : Error} (h : i.Fetched cache uri events (.error e) after) :
    i.Hindrance uri events e ∧ after = cache := by
  cases h with
  | loaderless hloader _ => exact ⟨.loaderless hloader, rfl⟩
  | unloaded _ _ _ => exact ⟨.unloaded (by simp), rfl⟩
  | @uncompiled asked page _ _ _ =>
    have hasked : compiledAs page.content (some uri) (.error e) ∈
        asked ++ [loadedAs uri (.ok page), compiledAs page.content (some uri) (.error e)] := by simp
    exact ⟨.uncompiled hasked, rfl⟩

theorem Fetched.entry {tree : SharedTree} (hcache : i.hasCache = true)
    (h : i.Fetched cache uri events (.ok tree) after) :
    (after.get? uri).map CompiledPage.tree = some tree ∧ ∀ other ≠ uri, after.get? other = cache.get? other := by
  cases h with
  | unjudged _ hpage | current _ hpage =>
    rw [cached?_of_hasCache hcache] at hpage
    exact ⟨by simp [hpage], fun _ _ => rfl⟩
  | compiled _ _ _ _ => exact ⟨by simp [hcache], fun other hother => by simp [hcache, hother.symm]⟩

theorem Fetched.of_unjudged {page : CompiledPage} (hloader : i.hasLoader = false)
    (hpage : i.cached? cache uri = some page) (h : i.Fetched cache uri events result after) :
    events = [] ∧ result = .ok page.tree ∧ after = cache := by
  cases h with
  | unjudged _ hfound =>
    rw [hpage] at hfound
    cases hfound
    exact ⟨rfl, rfl, rfl⟩
  | loaderless _ hfound => simp [hpage] at hfound
  | current h' | unloaded _ h' | uncompiled _ _ h' | compiled _ _ h' => simp [hloader] at h'

/-- A cached tree that the loader has not called out of date is taken, and a tree that it has called so is the only
reason to load. -/
theorem Fetched.of_judged {page : CompiledPage} (hloader : i.hasLoader = true)
    (hpage : i.cached? cache uri = some page) (h : i.Fetched cache uri events result after) :
    ∃ stale rest, events = judgedAs uri page.token stale :: rest ∧
      (stale = false → rest = [] ∧ result = .ok page.tree ∧ after = cache) := by
  -- what is out of date was called so by the loader, since there is an entry
  have asked_eq : ∀ {asked}, i.Outdated cache uri asked → asked = [judgedAs uri page.token true] := by
    intro asked houtdated
    cases houtdated with
    | missing hfound => simp [hpage] at hfound
    | stale hfound =>
      rw [hpage] at hfound
      cases hfound
      rfl
  cases h with
  -- the loader is there, so it has been asked
  | unjudged h' | loaderless h' => simp [hloader] at h'
  | current _ hfound =>
    rw [hpage] at hfound
    cases hfound
    exact ⟨false, [], rfl, fun _ => ⟨rfl, rfl, rfl⟩⟩
  | unloaded _ _ houtdated | uncompiled _ _ _ houtdated | compiled _ _ _ houtdated =>
    rw [asked_eq houtdated]
    exact ⟨true, _, rfl, nofun⟩

end Fetched

/-- What one call does, whatever the loader and the compiler answer. -/
theorem keeps_of_runs (hcache : i.hasCache = true)
    (h : Runs (i.perform r.before r.call) r.events (r.result, r.after)) : i.Keeps r := by
  -- each call but that for loose content is a fetch
  have hfetched : ∀ {uri}, r.call.uri? = some uri → i.Fetched r.before uri r.events r.result r.after := by
    intro uri huri
    rw [perform_of_uri? huri] at h
    exact fetched_of_runs h
  -- the five statements are about fetches of different outcomes, and the last is about loose content
  constructor
  · intro uri e huri he
    have hfailed := hfetched huri
    rw [he] at hfailed
    exact hfailed.failed
  · intro uri tree huri htree
    have hentry := hfetched huri
    rw [htree] at hentry
    exact hentry.entry hcache
  · intro uri page huri hpage hloader
    exact (hfetched huri).of_unjudged hloader (by rwa [cached?_of_hasCache hcache])
  · intro uri page huri hpage hloader
    exact (hfetched huri).of_judged hloader (by rwa [cached?_of_hasCache hcache])
  · intro content hcall
    rw [hcall] at h
    exact runs_perform_compile h

end Interpreter

/-! ## §4 The calls of an engine -/

def World.withCache (w : World) (c : PageCache) : World := { w with cache := c }

section WithCache

variable {w : World} {c : PageCache}

theorem TemplateMaker.answer_withCache (f : TemplateMaker) (r : CompileRequest) (w : World) :
    f.answer r (w.withCache c) = ((f.answer r w).1, (f.answer r w).2.withCache c) := by
  cases r with
  | create uri namespaceUri tag =>
    dsimp only [answer, create, World.withCache]
    cases w.registry.find? namespaceUri tag with
    | none => rfl
    | some d => cases f.gate (Check.create uri namespaceUri tag) <;> rfl
  | select memo d property => rfl

/-- Compiling neither looks at the cache nor changes it. -/
theorem TemplateMaker.compileMarkup_withCache (f : TemplateMaker) (setting : Markup.Setting) (content : String) :
    f.compileMarkup setting content (w.withCache c) =
      ((f.compileMarkup setting content w).1, (f.compileMarkup setting content w).2.withCache c) := by
  -- each request is answered in the same way whatever is in the cache
  have hrun : f.run (Markup.compileText setting content) (w.withCache c) =
      ((f.run (Markup.compileText setting content) w).1, (f.run (Markup.compileText setting content) w).2.withCache c) :=
    (Program.Asks.anything _).run_eq (g := (World.withCache · c)) (fun r _ w => f.answer_withCache r w) w
  unfold compileMarkup
  rw [hrun]
  cases hresult : f.run (Markup.compileText setting content) w with
  | mk result after => cases result <;> rfl

theorem TemplateMaker.fetchAnswer_withCache (f : TemplateMaker) (r : FetchRequest) (w : World) :
    f.fetchAnswer r (w.withCache c) = ((f.fetchAnswer r w).1, (f.fetchAnswer r w).2.withCache c) := by
  cases r with
  | expired uri token => rfl
  | load uri => rfl
  | compile content uri => exact f.compileMarkup_withCache _ content

/-- Building leaves the cache as it is. -/
theorem Context.cache_run {α : Type} (ctx : Context) (p : Build α) : (ctx.run p w).2.cache = w.cache := by
  have hrun := ctx.run_withPages p w w.source w.cache
  exact congrArg (fun x => x.2.cache) hrun

end WithCache

namespace Engine

variable {e : Engine} {w : World} {records : List PageRecord}

/-- Loose content is compiled to the same tree whatever is in the cache, and the cache stays as it is. -/
theorem compileContent_withCache (e : Engine) (content : String) (w : World) (c : PageCache) :
    e.compileContent content (w.withCache c) =
      ((e.compileContent content w).1, (e.compileContent content w).2.withCache c) :=
  (Program.Asks.anything _).run_eq (g := (World.withCache · c)) (fun r _ w => e.factory.fetchAnswer_withCache r w) w

/-- What a call makes of the world. -/
def call (e : Engine) (builder : PageBuilder) (w : World) : PageCall → World
  | .fetch uri => (e.fetch uri w).2
  | .compile content => (e.compileContent content w).2
  | .build page => (e.buildIncluded builder page w).2

/-- What comes of a call in a world. -/
def record (e : Engine) (w : World) (c : PageCall) : PageRecord :=
  let traced := (e.interpreter.perform w.cache c).trace e.factory.fetchAnswer w
  ⟨c, w.cache, traced.2, traced.1.1, traced.1.2⟩

/-- The calls of an engine, the latest first, with the world that they lead to. -/
inductive Session (e : Engine) : List PageRecord → World → Prop where
  | start {w : World} (h : w.cache = .empty) : Session e [] w
  | call {records : List PageRecord} {w : World} (past : Session e records w) (builder : PageBuilder) (c : PageCall) :
      Session e (e.record w c :: records) (e.call builder w c)
  /-- Between two calls everything may change but the cache. -/
  | elsewhere {records : List PageRecord} {w w' : World} (past : Session e records w) (h : w'.cache = w.cache) :
      Session e records w'

theorem record_fetch (e : Engine) (uri : PageUri) (w : World) :
    ((e.record w (.fetch uri)).result, (e.record w (.fetch uri)).after) = ((e.fetch uri w).1, (e.fetch uri w).2.cache) :=
  Program.trace_fst _ _ _

theorem record_compile (e : Engine) (content : String) (w : World) :
    ((e.record w (.compile content)).result, (e.record w (.compile content)).after) =
      ((e.compileContent content w).1, (e.compileContent content w).2.cache) := by
  have hcache : (e.compileContent content w).2.cache = w.cache := by
    rw [show w = w.withCache w.cache from rfl, e.compileContent_withCache]
    rfl
  rw [hcache, record, Program.trace_fst]
  rfl

theorem cache_buildIncluded (e : Engine) (builder : PageBuilder) (page : String) (w : World) :
    (e.buildIncluded builder page w).2.cache = (e.fetch ⟨page⟩ w).2.cache := by
  unfold buildIncluded
  rcases e.fetch ⟨page⟩ w with ⟨answer, fetched⟩
  cases answer with
  | error err => rfl
  | ok shared => exact Context.cache_run _ _

theorem cache_call (e : Engine) (builder : PageBuilder) (w : World) (c : PageCall) :
    (e.call builder w c).cache = (e.record w c).after := by
  cases c with
  | fetch uri => exact (congrArg Prod.snd (e.record_fetch uri w)).symm
  | compile content =>
    rw [call]
    exact (congrArg Prod.snd (e.record_compile content w)).symm
  | build page =>
    rw [call, e.cache_buildIncluded]
    exact (congrArg Prod.snd (e.record_fetch ⟨page⟩ w)).symm

theorem Session.fetch (past : e.Session records w) (uri : PageUri) :
    e.Session (e.record w (.fetch uri) :: records) (e.fetch uri w).2 :=
  past.call ⟨.ofScope, .empty⟩ (.fetch uri)

/-- The cache in the world of an engine has the history of the calls, whatever else has happened to the world. -/
theorem Session.history (h : e.Session records w) : e.interpreter.History records w.cache := by
  -- a change elsewhere does not touch the cache, so it is no part of the history
  induction h with
  | start h => exact h ▸ .start
  | elsewhere _ h ih => exact h ▸ ih
  | @call records w _ builder c ih =>
    rw [e.cache_call]
    exact .call (e.record w c) ih (Program.runs_trace e.factory.fetchAnswer _ w)

end Engine

/-! ## §5 What a history does -/

namespace Interpreter

variable {i : Interpreter} {cache : PageCache} {r : PageRecord} {records : List PageRecord}

/-- An entry of the cache stems from a call: the page was loaded with the token of the entry, and its content was
compiled to the tree of the entry. -/
def Stems (uri : PageUri) (page : CompiledPage) (r : PageRecord) : Prop :=
  r.call.uri? = some uri ∧ ∃ content,
    [loadedAs uri (.ok ⟨content, page.token⟩), compiledAs content (some uri) (.ok page.tree)] <:+ r.events

/-- A call finds the entries of the cache or makes them. -/
theorem entry_of_runs {uri : PageUri} {page : CompiledPage}
    (h : Runs (i.perform r.before r.call) r.events (r.result, r.after)) (hpage : r.after.get? uri = some page) :
    r.before.get? uri = some page ∨ Stems uri page r := by
  cases hcall : r.call.uri? with
  | none =>
    -- loose content leaves the cache alone
    obtain ⟨content, hcontent⟩ : ∃ content, r.call = .compile content := by
      cases hc : r.call <;> simp_all [PageCall.uri?]
    rw [hcontent] at h
    rw [(runs_perform_compile h).1] at hpage
    exact .inl hpage
  | some other =>
    rw [perform_of_uri? hcall] at h
    have hfetched := fetched_of_runs h
    -- only a page that has just been compiled is put into the cache, and under its own address
    generalize hresult : r.result = result at hfetched
    generalize hafter : r.after = after at hfetched hpage
    generalize hevents : r.events = events at hfetched
    cases hfetched with
    | compiled loaded tree _ _ =>
      split at hpage
      · rw [PageCache.get?_put] at hpage
        split at hpage
        · rename_i hsame
          subst hsame
          cases hpage
          refine .inr ⟨hcall, loaded.content, ?_⟩
          rw [hevents]
          apply List.suffix_append
        · exact .inl hpage
      · exact .inl hpage
    | _ => exact .inl hpage

/-- **What the cache of pages holds**, for every loader and every compiler: each entry stems from a load and a
compilation of its page, and each call keeps to what it may do with the cache. The calls of an engine are such a
history (`Engine.Session.history`). -/
theorem History.keeps (hcache : i.hasCache = true) (h : i.History records cache) :
    (∀ uri page, cache.get? uri = some page → ∃ r ∈ records, Stems uri page r) ∧ ∀ r ∈ records, i.Keeps r := by
  -- by induction on the calls, the latest of which may have made one entry
  induction h with
  | start =>
    refine ⟨fun uri page hpage => ?_, by simp⟩
    simp [PageCache.empty, PageCache.get?] at hpage
  | call r _ hruns ih =>
    obtain ⟨hentries, hkeeps⟩ := ih
    constructor
    · intro uri page hpage
      -- an entry that the call has not made was there before it
      rcases entry_of_runs hruns hpage with hbefore | hstems
      · obtain ⟨s, hs, hstems⟩ := hentries uri page hbefore
        exact ⟨s, List.mem_cons_of_mem r hs, hstems⟩
      · exact ⟨r, List.mem_cons_self, hstems⟩
    · intro s hs
      rcases List.mem_cons.mp hs with rfl | hs
      · exact keeps_of_runs hcache hruns
      · exact hkeeps s hs

end Interpreter

/-- A host with a page that has not been asked for. -/
def shelved : World := (World.opened [bareTag "a"]).withLibrary (PageLibrary.empty.add ⟨"p"⟩ "<a/>")

/-- A page is fetched twice, and compiled once. -/
theorem twice_fetched_history :
    let e := Engine.caching .standard ⟨0, Gate.permissive⟩ Gate.permissive
    let w := (e.fetch ⟨"p"⟩ (e.fetch ⟨"p"⟩ shelved).2).2
    (w.cache.get? ⟨"p"⟩).map (·.token) = some ⟨"v1"⟩ ∧ w.nextStamp = 1 ∧
      ∃ records, records.map PageRecord.call = [.fetch ⟨"p"⟩, .fetch ⟨"p"⟩] ∧
        e.interpreter.History records w.cache ∧
        (∀ uri page, w.cache.get? uri = some page → ∃ r ∈ records, Interpreter.Stems uri page r) ∧
        ∀ r ∈ records, e.interpreter.Keeps r := by
  intro e w
  have hhistory := ((Engine.Session.start (e := e) (w := shelved) rfl).fetch ⟨"p"⟩).fetch ⟨"p"⟩ |>.history
  obtain ⟨hentries, hkeeps⟩ := Interpreter.History.keeps rfl hhistory
  exact ⟨by decide +kernel, by decide +kernel, _, rfl, hhistory, hentries, hkeeps⟩

end PageTemplates
