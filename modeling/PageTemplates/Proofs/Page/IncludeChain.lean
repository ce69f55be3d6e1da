import PageTemplates.Host.EngineBuilder
import PageTemplates.Proofs.Build.ValueObjects
import PageTemplates.Proofs.Build.Wiring
import PageTemplates.Proofs.Page.Provided
import PageTemplates.Security.Policy

/-!
# Pages that include pages

A page is built, a component of it that includes a page asks for that page, which is built in its turn, and so on. Each
of these builds has surroundings of its own: what the component was given when it was wired is all that comes from the
build before, and the rest is put together anew by the engine (`Engine.IncludeChain`).

All of them are supervised alike. The evaluator and the scope are those of the first build, handed on from one to the
next (`IncludeChain.builder_eq`). The gate is the one that the engine was given, both for the builds and for the
templates, because an engine without a maker of templates gets one with its own gate (`Engine.ofParts_spec`). And no
build goes on into another page: it constructs components for templates of its own page alone and asks for no page, so
that pages may include each other, or themselves (`IncludeChain.supervised`).

## Structure

- §1 is about engines that have been put together, §2 about one build.
- §3 says how one build leads to the next.
- §4 is an induction over the chain.
-/

namespace PageTemplates

open Program (Answers Event Runs)

/-! ## §1 Engines -/

namespace EngineBuilder

/-- The gate among the parts of an engine, if this is one. -/
def Part.gate? : Part → Option Gate
  | .gate g => some g
  | .loader | .cache | .factory _ | .config _ => none

/-- The gate that an engine is given: the last one, and if there is none, one that lets everything pass. -/
def gateOf (parts : List Part) : Gate := (parts.filterMap Part.gate?).getLastD Gate.permissive

theorem gate_foldl_give (parts : List Part) (b : EngineBuilder) :
    (parts.foldl give b).gate = (parts.filterMap Part.gate?).getLastD b.gate := by
  -- the gate that is given last counts, so that the one at the beginning is that of the last list
  induction parts generalizing b with
  | nil => rfl
  | cons part rest ih =>
    rw [List.foldl_cons, ih]
    cases part with
    | gate g =>
      show _ = (g :: rest.filterMap Part.gate?).getLastD b.gate
      rw [List.getLastD_cons]
      rfl
    | loader | cache | factory f | config c => rfl

theorem factory_foldl_give {parts : List Part} (hparts : ∀ f, .factory f ∉ parts) (b : EngineBuilder) :
    (parts.foldl give b).factory = b.factory := by
  -- no part is a maker of templates
  induction parts generalizing b with
  | nil => rfl
  | cons part rest ih =>
    rw [List.foldl_cons, ih fun f hf => hparts f (List.mem_cons_of_mem _ hf)]
    cases part with
    | factory f => exact absurd List.mem_cons_self (hparts f)
    | gate g | loader | cache | config c => rfl

end EngineBuilder

/-- An engine that is given no maker of templates has the same gate for its templates and for its builds. -/
theorem Engine.ofParts_spec {parts : List EngineBuilder.Part} (hparts : ∀ f, .factory f ∉ parts) (memo : Nat) :
    (Engine.ofParts parts memo).gate = EngineBuilder.gateOf parts ∧
      (Engine.ofParts parts memo).factory = ⟨memo, EngineBuilder.gateOf parts⟩ := by
  -- the maker is made when all parts have been given, with the gate that is there by then
  have hgate := EngineBuilder.gate_foldl_give parts .new
  have hfactory := EngineBuilder.factory_foldl_give hparts .new
  refine ⟨hgate, ?_⟩
  show ((parts.foldl EngineBuilder.give .new).factory.getD ⟨memo, (parts.foldl EngineBuilder.give .new).gate⟩) = _
  rw [hfactory, hgate]
  rfl

/-! ## §2 One build -/

/-- A page that is built. -/
structure PageBuild where
  /-- The address of the page, unless it is loose content. -/
  uri : Option PageUri
  page : SharedTree
  /-- With what evaluator, and in what scope. -/
  builder : PageBuilder
  /-- The world in which the build begins. -/
  world : World

namespace PageBuild

variable (e : Engine) (b : PageBuild)

def context : Context := e.context b.builder.evaluator b.builder.scope

/-- What is asked for, with the answers. -/
def events : List BuildEvent := (Program.trace (b.context e).answer b.page.tree.root.buildLive b.world).2

def result : Except Error (Option LiveNode) := ((b.context e).run b.page.tree.root.buildLive b.world).1

/-- The world in which the build ends. -/
def after : World := ((b.context e).run b.page.tree.root.buildLive b.world).2

theorem answers : Answers (b.context e).answer b.world (b.events e) (b.after e) := Program.answers_trace _ _ _

theorem runs : Runs b.page.tree.root.buildLive (b.events e) (b.result e) := by
  have hruns : Runs b.page.tree.root.buildLive _ _ := Program.runs_trace (b.context e).answer _ b.world
  rwa [Program.trace_fst] at hruns

variable {e : Engine} {b : PageBuild}

/-- A component that was wired in a build has been given the evaluator and the scope of the build. -/
theorem builder_of_wired {i : Instance} {name : String} {given : PageBuilder} (hwired : wired i name ∈ b.events e)
    (hgiven : (b.after e).store.builder? i.ref = some given) : given = b.builder :=
  PageTemplates.builder_of_wired (b.answers e) rfl hwired hgiven

end PageBuild

/-- A check is answered by a gate, and an expression by an evaluator in a scope. -/
def AnsweredBy (gate : Gate) (own : PageBuilder) : BuildEvent → Prop
  | ⟨.check c, answer⟩ => answer = gate c
  | ⟨.evaluate e, answer⟩ => answer = own.evaluator.evaluate e own.scope
  | ⟨.bindValue e type, answer⟩ => answer = own.evaluator.liveValue e type
  | ⟨.bindCallable e, answer⟩ => answer = own.evaluator.callable e
  | _ => True

theorem Context.answeredBy (ctx : Context) (r : BuildRequest) (w : World) :
    AnsweredBy ctx.gate ⟨ctx.evaluator, ctx.scope⟩ ⟨r, (ctx.answer r w).1⟩ := by
  cases r with
  | check c | evaluate e | bindValue e type | bindCallable e => rfl
  | construct d | wireOwner c owner | wireComponent c i | write i change | yielded i | finish i | wirePage i page =>
    exact trivial

/-- What a build does in the course of the visits to the controls of the page. -/
structure PageBuild.Visits (e : Engine) (b : PageBuild) (log : List Visit) : Prop where
  events : b.events e = log.flatMap Visit.events
  /-- The controls are those of the page, each visited once at most. -/
  controls : (log.map Visit.control).Sublist b.page.tree.root.nodes
  /-- Every write, binding and evaluation comes right after a check that passed and allows just this. -/
  gated : ∀ v ∈ log, v.Own ∧ Gated v.control.template v.events v.result
  /-- Components are constructed for the template of the control and for those inside it, and for nothing else. -/
  own : ∀ v ∈ log, constructions v.events <+: v.control.template.parts.map Template.definition

/-- A build of a page stands under a gate, and is made with an evaluator and in a scope. -/
structure PageBuild.Supervised (e : Engine) (gate : Gate) (start : PageBuilder) (b : PageBuild) : Prop where
  /-- The templates were made by a maker that checked each of them with the gate. -/
  created : ∃ memo, (TemplateMaker.mk memo gate).Checks b.uri b.page
  visits : ∃ log, b.Visits e log
  /-- It is the gate that answers the checks, and the evaluator and the scope that answer everything else. -/
  answered : ∀ x ∈ b.events e, AnsweredBy gate start x
  /-- The build is the same whatever pages can be loaded and whatever pages are in the cache. -/
  alone : ∀ source cache, (b.context e).run b.page.tree.root.buildLive (b.world.withPages source cache) =
    (b.result e, (b.after e).withPages source cache)
  /-- The loader is not asked for anything. -/
  quiet : b.world.NotesNoPage (b.after e)

namespace PageBuild

variable {e : Engine} {b : PageBuild}

theorem exists_visits (e : Engine) (b : PageBuild) : ∃ log, b.Visits e log := by
  -- the visits are those of the build as a whole, each of which follows the discipline of the gate
  obtain ⟨log, hlog⟩ := b.page.tree.root.walks_buildLive _ _ (b.runs e)
  refine ⟨log, hlog.events, hlog.within, fun v hv => ⟨hlog.own v hv, ?_⟩, fun v hv => ?_⟩
  · intro before x after heq
    have hgrammar := guarded_component v.control.template [] _ _ (hlog.own v hv).runs
    simpa using hgrammar.gatedAt before x after heq
  · exact (hlog.own v hv).constructions_spec.1

theorem answeredBy (e : Engine) (b : PageBuild) : ∀ x ∈ b.events e, AnsweredBy e.gate b.builder x := by
  rintro ⟨r, answer⟩ hx
  obtain ⟨m, hm⟩ := (b.answers e).exists_state hx
  obtain rfl : answer = ((b.context e).answer r m).1 := hm
  exact (b.context e).answeredBy r m

/-- What is known of the page and of the builder decides; the rest is so of every build. -/
theorem supervised_of_checks {memo : Nat} (hfactory : e.factory = ⟨memo, e.gate⟩) (hchecks : e.factory.Checks b.uri b.page) :
    b.Supervised e e.gate b.builder :=
  ⟨⟨memo, hfactory ▸ hchecks⟩, b.exists_visits e, b.answeredBy e,
    (b.context e).run_withPages _ b.world, (b.context e).notesNoPage_run _ b.world⟩

end PageBuild

/-! ## §3 From one build to the next -/

namespace Engine

/-- An engine gives out a page: one that is fetched, in a session in which nobody else puts pages into the cache, or loose
content. -/
inductive Provides (e : Engine) : Option PageUri → SharedTree → Prop where
  | fetched {records : List PageRecord} {w : World} {uri : PageUri} {page : SharedTree} (h : e.Session records w)
      (hfetch : (e.fetch uri w).1 = .ok page) : Provides e (some uri) page
  | compiled {w : World} {content : String} {page : SharedTree} (h : (e.compileContent content w).1 = .ok page) :
      Provides e none page

/-- The build of an included page, if it can be fetched. -/
def included? (e : Engine) (given : PageBuilder) (name : String) (w : World) : Option PageBuild :=
  match e.fetch ⟨name⟩ w with
  | (.ok page, w) => some ⟨some ⟨name⟩, page, given, w⟩
  | (.error _, _) => none

/-- Builds of pages, the latest first, each of which includes the one before it in the list. -/
inductive IncludeChain (e : Engine) (start : PageBuilder) : List PageBuild → Prop where
  /-- A page is built with the evaluator and in the scope from which everything starts. -/
  | first {uri : Option PageUri} {page : SharedTree} (h : e.Provides uri page) (w : World) :
      IncludeChain e start [⟨uri, page, start, w⟩]
  /-- A component that was wired in the latest build has a page built with what it was given, at some later time. -/
  | next {b later : PageBuild} {earlier : List PageBuild} {i : Instance} {page name : String} {given : PageBuilder}
      {records : List PageRecord} {w : World} (past : IncludeChain e start (b :: earlier))
      (hwired : wired i page ∈ b.events e) (hgiven : (b.after e).store.builder? i.ref = some given)
      (hsession : e.Session records w) (h : e.included? given name w = some later) :
      IncludeChain e start (later :: b :: earlier)

variable {e : Engine} {given : PageBuilder} {name : String} {w : World} {b : PageBuild}

theorem included?_eq_some (h : e.included? given name w = some b) :
    ∃ page, (e.fetch ⟨name⟩ w).1 = .ok page ∧ b = ⟨some ⟨name⟩, page, given, (e.fetch ⟨name⟩ w).2⟩ := by
  unfold included? at h
  split at h
  · rename_i page m hfetch
    rw [hfetch]
    exact ⟨page, rfl, (Option.some.inj h).symm⟩
  · cases h

/-- What a component gets when it has its page built is what comes of the build of the page. -/
theorem buildIncluded_of_included (h : e.included? given name w = some b) :
    e.buildIncluded given name w =
      ((b.result e).mapError fun err => .failed ("including '" ++ name ++ "': " ++ err.message), b.after e) := by
  obtain ⟨page, hfetch, rfl⟩ := included?_eq_some h
  unfold buildIncluded
  rw [show e.fetch ⟨name⟩ w = (.ok page, (e.fetch ⟨name⟩ w).2) from Prod.ext hfetch rfl]
  rfl

end Engine

/-! ## §4 Chains -/

namespace Engine.IncludeChain

variable {e : Engine} {start : PageBuilder} {chain : List PageBuild}

/-- The evaluator and the scope are handed on from build to build. -/
theorem builder_eq (h : e.IncludeChain start chain) : ∀ b ∈ chain, b.builder = start := by
  -- by induction on the chain: a component was given what its build had, which is what everything started from
  induction h with
  | first h w => exact List.forall_mem_singleton.mpr rfl
  | next past hwired hgiven hsession h ih =>
    refine List.forall_mem_cons.mpr ⟨?_, ih⟩
    obtain ⟨page, -, rfl⟩ := included?_eq_some h
    exact (PageBuild.builder_of_wired hwired hgiven).trans (ih _ List.mem_cons_self)

/-- All pages come from the engine. -/
theorem checks (h : e.IncludeChain start chain) : ∀ b ∈ chain, e.factory.Checks b.uri b.page := by
  -- by induction on the chain: each page was fetched or compiled by the engine
  induction h with
  | first h w =>
    refine List.forall_mem_singleton.mpr ?_
    cases h with
    | fetched h hfetch => exact checks_of_fetch h hfetch
    | compiled h => exact checks_of_compileContent h
  | next past hwired hgiven hsession h ih =>
    refine List.forall_mem_cons.mpr ⟨?_, ih⟩
    obtain ⟨page, hfetch, rfl⟩ := included?_eq_some h
    exact checks_of_fetch hsession hfetch

/-- **Included pages do not escape the policy**: an engine that is put together of any parts but a maker of templates
builds all pages of a chain, however long, under the gate that it was given last, with the evaluator and in the scope of
the first build, and each of them on its own. -/
theorem supervised {parts : List EngineBuilder.Part} {memo : Nat} (hparts : ∀ f, .factory f ∉ parts)
    (h : (Engine.ofParts parts memo).IncludeChain start chain) :
    ∀ b ∈ chain, b.builder = start ∧
      b.Supervised (Engine.ofParts parts memo) (EngineBuilder.gateOf parts) start := by
  intro b hb
  -- the gate and the maker are those of the engine, whichever build of the chain it is
  obtain ⟨hgate, hfactory⟩ := Engine.ofParts_spec hparts memo
  have hbuilder := h.builder_eq b hb
  rw [← hgate] at hfactory ⊢
  exact ⟨hbuilder, hbuilder ▸ PageBuild.supervised_of_checks hfactory (h.checks b hb)⟩

end Engine.IncludeChain

/-! ### A page that includes itself -/

/-- A component was wired in the build, and has been given something. -/
def PageBuild.wires (e : Engine) (b : PageBuild) : Bool :=
  (b.events e).any fun x => match x.request with
    | .wirePage i _ => ((b.after e).store.builder? i.ref).isSome
    | _ => false

theorem PageBuild.wired_of_wires {e : Engine} {b : PageBuild} (h : b.wires e) :
    ∃ i name given, wired i name ∈ b.events e ∧ (b.after e).store.builder? i.ref = some given := by
  -- the event that is found is the wiring of a component
  obtain ⟨⟨r, answer⟩, hx, hwires⟩ := List.any_eq_true.mp h
  dsimp only at hwires
  split at hwires
  · rename_i i name
    obtain ⟨given, hgiven⟩ := Option.isSome_iff_exists.mp hwires
    exact ⟨i, name, given, hx, hgiven⟩
  · cases hwires

/-- A session goes on while an included page is built. -/
theorem Engine.Session.after {e : Engine} {records : List PageRecord} {w : World} {given : PageBuilder} {name : String}
    {b : PageBuild} (hsession : e.Session records w) (h : e.included? given name w = some b) :
    ∃ more, e.Session more (b.after e) := by
  obtain ⟨page, hfetch, rfl⟩ := included?_eq_some h
  exact ⟨_, (hsession.fetch ⟨name⟩).elsewhere (Context.cache_run _ _)⟩

/-- A chain goes on where a component was wired, at the end of the build before. -/
theorem Engine.IncludeChain.again {e : Engine} {start : PageBuilder} {b later : PageBuild} {earlier : List PageBuild}
    {records : List PageRecord} {name : String} (past : e.IncludeChain start (b :: earlier)) (hwires : b.wires e)
    (hsession : e.Session records (b.after e)) (h : e.included? start name (b.after e) = some later) :
    e.IncludeChain start (later :: b :: earlier) := by
  obtain ⟨i, page, given, hwired, hgiven⟩ := PageBuild.wired_of_wires hwires
  obtain rfl : given = start := (PageBuild.builder_of_wired hwired hgiven).trans (past.builder_eq b List.mem_cons_self)
  exact .next past hwired hgiven hsession h

/-- A component with a property that includes the page `p`. -/
def selfDefinition : Definition :=
  ⟨0, "", "a", "A", .ofList [("n", .simple "n" "int")], some "p", .mk .including "A" []⟩

/-- A host with the page `p`, which is one such component. -/
def selfWorld : World :=
  (World.opened [selfDefinition]).withLibrary (PageLibrary.empty.add ⟨"p"⟩ "<a n='$\x7bx\x7d'/>")

/-- The parts of an engine, with the gate before the loader. -/
def selfParts : List EngineBuilder.Part := [.cache, .gate Policy.allowAll.gate, .loader]

def selfEngine : Engine := Engine.ofParts selfParts 0

def selfStart : PageBuilder := ⟨.ofScope, Scope.empty.set "x" (.int 7)⟩

/-- The page is built again and again, each time at the end of the build before. -/
def selfBuild? : Nat → Option PageBuild
  | 0 => selfEngine.included? selfStart "p" selfWorld
  | n + 1 => (selfBuild? n).bind fun b => selfEngine.included? selfStart "p" (b.after selfEngine)

/-- A page that includes itself is built, and then again by its component, and once more by the component of that. -/
theorem self_inclusion_supervised :
    (∀ f, .factory f ∉ selfParts) ∧
      ∃ chain, chain.length = 3 ∧ (Engine.ofParts selfParts 0).IncludeChain selfStart chain ∧
        (∀ b ∈ chain, (b.result selfEngine).isOk) ∧
        ∀ b ∈ chain, b.builder = selfStart ∧
          b.Supervised (Engine.ofParts selfParts 0) (EngineBuilder.gateOf selfParts) selfStart := by
  have hparts : ∀ f, .factory f ∉ selfParts := by simp [selfParts]
  -- that three builds succeed and wire a component is evaluated
  have hbuilds : ∀ n < 3, (selfBuild? n).any fun b => (b.result selfEngine).isOk && b.wires selfEngine := by
    decide +kernel
  have hbuilt : ∀ n < 3, ∃ b, selfBuild? n = some b ∧ (b.result selfEngine).isOk ∧ b.wires selfEngine := by
    intro n hn
    have hany := hbuilds n hn
    cases hb : selfBuild? n with
    | none => simp [hb] at hany
    | some b => exact ⟨b, rfl, by simpa [hb] using hany⟩
  -- the chain is made longer by one build at a time, at the end of the build before
  have hchain : ∀ n < 3, ∃ b earlier records, selfBuild? n = some b ∧ earlier.length = n ∧
      selfEngine.IncludeChain selfStart (b :: earlier) ∧ selfEngine.Session records (b.after selfEngine) ∧
      ∀ c ∈ b :: earlier, (c.result selfEngine).isOk := by
    intro n hn
    induction n with
    | zero =>
      obtain ⟨b, hb, hok, -⟩ := hbuilt 0 hn
      have hsession := Engine.Session.start (e := selfEngine) (w := selfWorld) rfl
      obtain ⟨records, hafter⟩ := hsession.after hb
      obtain ⟨page, hfetch, rfl⟩ := Engine.included?_eq_some hb
      exact ⟨_, [], records, hb, rfl, .first (.fetched hsession hfetch) _, hafter, List.forall_mem_singleton.mpr hok⟩
    | succ n ih =>
      obtain ⟨b, earlier, records, hb, hlength, past, hsession, hoks⟩ := ih (by omega)
      obtain ⟨c, hc, -, hwires⟩ := hbuilt n (by omega)
      obtain rfl : b = c := Option.some.inj (hb.symm.trans hc)
      obtain ⟨later, hlater, hok, -⟩ := hbuilt (n + 1) hn
      have hincluded : selfEngine.included? selfStart "p" (b.after selfEngine) = some later := by
        rwa [selfBuild?, hb] at hlater
      obtain ⟨more, hmore⟩ := hsession.after hincluded
      exact ⟨later, b :: earlier, more, hlater, congrArg Nat.succ hlength, past.again hwires hsession hincluded, hmore,
        List.forall_mem_cons.mpr ⟨hok, hoks⟩⟩
  obtain ⟨b, earlier, -, -, hlength, h, -, hoks⟩ := hchain 2 (by decide)
  exact ⟨hparts, b :: earlier, congrArg Nat.succ hlength, h, hoks, Engine.IncludeChain.supervised hparts h⟩

end PageTemplates
