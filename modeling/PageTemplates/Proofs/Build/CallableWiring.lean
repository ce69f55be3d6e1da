import PageTemplates.Proofs.Build.Bags
import PageTemplates.Proofs.Build.Provenance
import PageTemplates.Proofs.Build.Pruning

/-!
# How callables are wired and installed

A callable comes from an expression, from an object that is built for it, or is there already (`CallableSource.Gives`).
It is wired to the node, and what comes of that is wired to the component (`Site.Wires`); what comes of that is checked
and installed. Each step may fail, whatever the callable is and whatever answers it gives, and `Site.Installs` lists all
courses that there are: they are just the runs (`runs_installCallable_iff`).

If there is no callable, or if it cannot be wired, nothing has been asked about the component and nothing has been
written to it (`Site.Fails.untouched`). Where names are looked up in the scope, it is known what a bag is left with
(`Site.leaves_of_answers`).

## Structure

- §1 is about requests that concern a component; a build puts them for what it has constructed, and for nothing else.
- §2 lists the courses, and §3 shows that they are the runs.
- §4 says what does not happen in the courses that fail, §5 what is left in a bag.
- §6 puts this together for a setter of a template.
-/

namespace PageTemplates

open Program (Answers Event Handler Runs)

/-! ## §1 Requests about a component -/

/-- Of two runs that begin alike the second may get another answer, whatever comes after that. -/
theorem Program.Runs.exists_reanswered {R : Type} {A : R → Type} {α σ : Type} (handle : Handler A σ) (state : σ)
    {p : Program A α} {before after : List (Event A)} {e : Event A} {a : α} (h : Runs p (before ++ e :: after) a)
    (answer : A e.request) : ∃ rest b, Runs p (before ++ ⟨e.request, answer⟩ :: rest) b := by
  -- the run is followed up to the request, and goes on in some way from the other answer
  induction before generalizing p with
  | nil =>
    cases h with
    -- any handler brings the run to an end
    | ask r _ _ => exact ⟨_, _, .ask r answer (Program.runs_trace handle _ state)⟩
  | cons first before ih =>
    cases h with
    | ask r given h =>
      obtain ⟨rest, b, hrest⟩ := ih h
      exact ⟨rest, b, .ask r given hrest⟩

/-- The component that a check is about. -/
def Check.component? : Check → Option Instance
  | .create .. => none
  | .write t .. | .loadTime t .. | .runTime t .. | .method t .. => t.component

/-- A check about a component, or a write on it. -/
def BuildRequest.About (i : Instance) : BuildRequest → Prop
  | .check c => c.component? = some i
  | .write j _ => j = i
  | _ => False

/-- A callable is made of an expression, or is wired. -/
def BuildRequest.AsksForCallable : BuildRequest → Prop
  | .bindCallable _ | .wireOwner .. | .wireComponent .. => True
  | _ => False

/-- Wiring to a component is not about it, though the component is named. -/
theorem BuildRequest.AsksForCallable.not_about {r : BuildRequest} (h : r.AsksForCallable) (i : Instance) :
    ¬ r.About i := by
  cases r with
  | bindCallable | wireOwner | wireComponent => exact id
  | _ => exact h.elim

section About

variable {root : Template} {before events : List BuildEvent} {i : Instance}

theorem Allows.constructed_of_component {c : Check} {r : BuildRequest} (h : Allows root before c r)
    (hc : c.component? = some i) : ∃ d, constructed d i ∈ before := by
  cases h with
  | condition e h => cases hc
  | property hbuilt | id hbuilt | rendered hbuilt | item hbuilt | liveValue hbuilt | callable hbuilt
  | evaluate hbuilt =>
    cases hc
    exact ⟨_, hbuilt.2⟩

/-- A build that keeps the discipline of the gate is about what it has constructed. -/
theorem Guarded.constructed_of_about {α : Type} {p : Build α} (h : Guarded root [] p) {result : Except Error α}
    (hrun : Runs p events result) {e : BuildEvent} (he : e ∈ events) (habout : e.request.About i) :
    ∃ d, constructed d i ∈ events := by
  obtain ⟨r, answer⟩ := e
  cases r with
  | check c =>
    obtain ⟨before, after, rfl⟩ := List.append_of_mem he
    -- had the check passed, what it allows would have come next
    obtain ⟨rest, other, hpassed⟩ := hrun.exists_reanswered bareHost () (.ok () : Except Violation Unit)
    obtain ⟨next, _, -, hallows⟩ := ((h _ _ hpassed).gatedAt before (passed c) rest rfl).used c rfl
    obtain ⟨d, hd⟩ := hallows.constructed_of_component habout
    exact ⟨d, List.mem_append_left _ hd⟩
  | write j w =>
    obtain rfl : j = i := habout
    exact (h.contained hrun _ he j w rfl).resolve_left List.not_mem_nil
  | _ => exact habout.elim

end About

/-! ## §2 Courses -/

/-- A callable is made of an expression. -/
def boundCallable (expression : String) (answer : Except EvaluationError Callable) : BuildEvent :=
  ⟨.bindCallable expression, answer⟩

/-- A component is asked for the callable that it stands for. -/
def yielded (i : Instance) (answer : Option Callable) : BuildEvent := ⟨.yielded i, answer⟩

/-- How the callable of a property is got hold of, and what comes of it. -/
inductive CallableSource.Gives (name : String) :
    CallableSource Nested → List BuildEvent → Except Error Callable → Prop where
  | ready (c : Callable) : Gives name (.ready c) [] (.ok c)
  | made (e : String) (c : Callable) : Gives name (.expression e) [boundCallable e (.ok c)] (.ok c)
  | rejected (e : String) (err : EvaluationError) :
      Gives name (.expression e) [boundCallable e (.error err)] (.error (.bindingResolution name e err.message))
  | yielded {n : Nested} {i : Instance} {events : List BuildEvent} (h : Runs n.build events (.ok i)) (c : Callable) :
      Gives name (.object n) (events ++ [yielded i (some c)]) (.ok c)
  | yieldsNone {n : Nested} {i : Instance} {events : List BuildEvent} (h : Runs n.build events (.ok i)) :
      Gives name (.object n) (events ++ [yielded i none])
        (.error (.bindingResolution name n.tag (i.typeName ++ " does not yield a callable")))
  /-- The failure of the object is passed on as it is. -/
  | notBuilt {n : Nested} {events : List BuildEvent} {err : Error} (h : Runs n.build events (.error err)) :
      Gives name (.object n) events (.error err)

/-- A callable cannot be wired to a node. -/
def refusedOwner (c : Callable) (owner : Owner) (err : EvaluationError) : BuildEvent :=
  ⟨.wireOwner c owner, (.error err : Except EvaluationError (Option Callable))⟩

/-- A callable cannot be wired to a component. -/
def refusedComponent (c : Callable) (i : Instance) (err : EvaluationError) : BuildEvent :=
  ⟨.wireComponent c i, (.error err : Except EvaluationError (Option Callable))⟩

/-- How a callable is wired to the node and then to the component. Where there is no other callable for it, the one that
was asked is kept. A failure names the expression of the callable that was asked. -/
inductive Site.Wires (s : Site) (name : String) (c : Callable) : List BuildEvent → Except Error Callable → Prop where
  | ownerRefused (err : EvaluationError) :
      Wires s name c [refusedOwner c s.owner err] (.error (.bindingResolution name c.expression err.message))
  | componentRefused (toOwner : Option Callable) (err : EvaluationError) :
      Wires s name c [wiredOwner c s.owner toOwner, refusedComponent (toOwner.getD c) s.component err]
        (.error (.bindingResolution name (toOwner.getD c).expression err.message))
  | wired (toOwner toComponent : Option Callable) :
      Wires s name c [wiredOwner c s.owner toOwner, wiredComponent (toOwner.getD c) s.component toComponent]
        (.ok (toComponent.getD (toOwner.getD c)))

/-- There is no callable, or it cannot be wired. -/
inductive Site.Fails (s : Site) (name : String) (source : CallableSource Nested) : List BuildEvent → Error → Prop where
  | notGiven {events : List BuildEvent} {err : Error} (h : source.Gives name events (.error err)) :
      Fails s name source events err
  | notWired {c : Callable} {first second : List BuildEvent} {err : Error} (h : source.Gives name first (.ok c))
      (hwires : s.Wires name c second (.error err)) : Fails s name source (first ++ second) err

/-- The courses of installing a callable. The callable that is checked and installed is the one that came out of being
wired. -/
inductive Site.Installs (s : Site) (name : String) (source : CallableSource Nested) :
    List BuildEvent → Except Error Unit → Prop where
  | fails {events : List BuildEvent} {err : Error} (h : s.Fails name source events err) :
      Installs s name source events (.error err)
  | refused {c w : Callable} {first second : List BuildEvent} (h : source.Gives name first (.ok c))
      (hwires : s.Wires name c second (.ok w)) (v : Violation) :
      Installs s name source (first ++ (second ++ [refused (.method s.target name w) v])) (.error (.security v))
  | installed {c w : Callable} {first second : List BuildEvent} (h : source.Gives name first (.ok c))
      (hwires : s.Wires name c second (.ok w)) (answer : Except WriteError Unit) :
      Installs s name source
        (first ++ (second ++ [passed (.method s.target name w), ⟨.write s.component (.callable name w), answer⟩]))
        (answer.mapError (.reflection name s.component.typeName))

/-! ## §3 Runs -/

/-- Wires a callable to the node and to the component, and goes on with what comes of it. -/
def Site.wiredThen {α : Type} (s : Site) (name : String) (c : Callable) (next : Callable → Build α) : Build α := do
  let c ← Build.wireOwner name c s.owner
  let c ← Build.wireComponent name c s.component
  next c

theorem Site.installCallable_eq (s : Site) (name : String) (source : CallableSource Nested) :
    s.installCallable name source = (callableOf name source >>= fun c => s.wiredThen name c fun w => do
      Build.check (.method s.target name w)
      Build.write name s.component (.callable name w)) := rfl

section Courses

variable {s : Site} {name : String} {source : CallableSource Nested} {c : Callable} {events : List BuildEvent}

theorem runs_callableOf_iff {result : Except Error Callable} :
    Runs (Site.callableOf name source) events result ↔ source.Gives name events result := by
  constructor
  · intro h
    -- a ready callable puts no request, an expression puts one
    cases source with
    | ready c =>
      obtain ⟨rfl, rfl⟩ := Program.runs_pure_except.mp h
      exact .ready c
    | expression e =>
      obtain ⟨answer, rfl, rfl⟩ := (runs_askOr (h := rfl)).mp h
      cases hanswer : (answer : Except EvaluationError Callable) with
      | ok c =>
        subst hanswer
        exact .made e c
      | error err =>
        subst hanswer
        exact .rejected e err
    | object n =>
      rcases Program.runs_bind_except.mp h with ⟨err, rfl, hbuild⟩ | ⟨i, first, others, rfl, hbuild, hothers⟩
      · exact .notBuilt hbuild
      · -- the component that has been built is asked, and there is an answer
        obtain ⟨answer, rest, rfl, hrest⟩ := Program.runs_ask.mp hothers
        cases answer with
        | none =>
          obtain ⟨rfl, rfl⟩ := Program.runs_done.mp hrest
          exact .yieldsNone hbuild
        | some c =>
          obtain ⟨rfl, rfl⟩ := Program.runs_done.mp hrest
          exact .yielded hbuild c
  · intro h
    cases h with
    | ready c => exact .done _
    | made e c => exact .ask _ _ (.done _)
    | rejected e err => exact .ask _ _ (.done _)
    | notBuilt h => exact Program.runs_bind_except.mpr (.inl ⟨_, rfl, h⟩)
    | yielded h c => exact Program.runs_bind_except.mpr (.inr ⟨_, _, _, rfl, h, .ask _ _ (.done _)⟩)
    | yieldsNone h => exact Program.runs_bind_except.mpr (.inr ⟨_, _, _, rfl, h, .ask _ _ (.done _)⟩)

/-- A request whose answer is only looked at fails as the request does. -/
theorem runs_askOr_pure_error {ε α β : Type} {r : BuildRequest} {h : r.Answer = Except ε α} {cause : ε → Error}
    {g : α → β} {err : Error}
    (hrun : Runs (Build.askOr r h cause >>= fun a => pure (g a) : Build β) events (.error err)) :
    ∃ failure, events = [⟨r, h.symm ▸ (.error failure : Except ε α)⟩] ∧ err = cause failure := by
  rcases Program.runs_bind_except.mp hrun with ⟨_, heq, hask⟩ | ⟨_, _, _, -, -, hdone⟩
  · cases heq
    obtain ⟨answer, rfl, hanswer⟩ := runs_askOr.mp hask
    have cast_back : ∀ {X Y : Type} (e : X = Y) {x : X} {y : Y}, e ▸ x = y → x = e.symm ▸ y := by
      rintro X _ rfl x _ rfl
      rfl
    cases hcase : (h ▸ answer : Except ε α) with
    | error failure =>
      rw [hcase] at hanswer
      exact ⟨failure, by rw [cast_back h hcase], Except.error.inj hanswer⟩
    | ok a =>
      rw [hcase] at hanswer
      cases hanswer
  · cases (Program.runs_pure_except.mp hdone).2

theorem runs_wiredThen_iff {α : Type} {next : Callable → Build α} {result : Except Error α} :
    Runs (s.wiredThen name c next) events result ↔
      (∃ err, result = .error err ∧ s.Wires name c events (.error err)) ∨
        ∃ w first second, events = first ++ second ∧ s.Wires name c first (.ok w) ∧ Runs (next w) second result := by
  constructor
  · intro h
    -- the node refuses, or it accepts and the component refuses, or both accept
    rcases Program.runs_bind_except.mp h with ⟨err, rfl, howner⟩ | ⟨c₁, first, others, rfl, howner, hothers⟩
    · obtain ⟨failure, rfl, rfl⟩ := runs_askOr_pure_error howner
      exact .inl ⟨_, rfl, .ownerRefused failure⟩
    · -- the second callable that is asked is the one that came of the first
      obtain ⟨toOwner, rfl, rfl⟩ := runs_wireOwner howner
      rcases Program.runs_bind_except.mp hothers with ⟨err, rfl, hcomponent⟩ | ⟨w, second, rest, rfl, hcomponent, hrest⟩
      · obtain ⟨failure, rfl, rfl⟩ := runs_askOr_pure_error hcomponent
        exact .inl ⟨_, rfl, .componentRefused toOwner failure⟩
      · obtain ⟨toComponent, rfl, rfl⟩ := runs_wireComponent hcomponent
        exact .inr ⟨_, _, rest, rfl, .wired toOwner toComponent, hrest⟩
  · rintro (⟨err, rfl, hwires⟩ | ⟨w, first, second, rfl, hwires, hnext⟩)
    · cases hwires with
      | ownerRefused failure => exact .ask _ _ (.done _)
      | componentRefused toOwner failure => exact .ask _ _ (.ask _ _ (.done _))
    · cases hwires with
      | wired toOwner toComponent => exact .ask _ _ (.ask _ _ hnext)

/-- The courses are the runs. -/
theorem runs_installCallable_iff {result : Except Error Unit} :
    Runs (s.installCallable name source) events result ↔ s.Installs name source events result := by
  rw [Site.installCallable_eq]
  constructor
  · intro h
    rcases Program.runs_bind_except.mp h with ⟨err, rfl, hgives⟩ | ⟨c, first, others, rfl, hgives, hothers⟩
    · exact .fails (.notGiven (runs_callableOf_iff.mp hgives))
    · have hgives := runs_callableOf_iff.mp hgives
      rcases runs_wiredThen_iff.mp hothers with ⟨err, rfl, hwires⟩ | ⟨w, second, rest, rfl, hwires, hrest⟩
      · exact .fails (.notWired hgives hwires)
      · -- what the gate is asked about is what has come of the wiring
        rcases Program.runs_bind_except.mp hrest with ⟨err, rfl, hcheck⟩ | ⟨_, third, last, rfl, hcheck, hwrite⟩
        · rcases runs_check hcheck with ⟨-, hok⟩ | ⟨v, rfl, herror⟩
          · cases hok
          · cases herror
            exact .refused hgives hwires v
        · rcases runs_check hcheck with ⟨rfl, -⟩ | ⟨v, -, herror⟩
          · obtain ⟨answer, rfl, rfl⟩ := (runs_askOr (h := rfl)).mp hwrite
            exact .installed hgives hwires answer
          · cases herror
  · -- what comes after the callable is a run of its own
    have follows : ∀ {c : Callable} {first rest : List BuildEvent}, source.Gives name first (.ok c) →
        Runs (s.wiredThen name c fun w => do
          Build.check (.method s.target name w)
          Build.write name s.component (.callable name w)) rest result →
        Runs (Site.callableOf name source >>= fun c => s.wiredThen name c fun w => do
          Build.check (.method s.target name w)
          Build.write name s.component (.callable name w) : Build Unit) (first ++ rest) result :=
      fun hgives hrest => Program.runs_bind_except.mpr (.inr ⟨_, _, _, rfl, runs_callableOf_iff.mpr hgives, hrest⟩)
    intro h
    cases h with
    | fails h =>
      cases h with
      | notGiven hgives => exact Program.runs_bind_except.mpr (.inl ⟨_, rfl, runs_callableOf_iff.mpr hgives⟩)
      | notWired hgives hwires => exact follows hgives (runs_wiredThen_iff.mpr (.inl ⟨_, rfl, hwires⟩))
    | refused hgives hwires v =>
      exact follows hgives (runs_wiredThen_iff.mpr (.inr ⟨_, _, _, rfl, hwires, .ask _ _ (.done _)⟩))
    | installed hgives hwires answer =>
      exact follows hgives (runs_wiredThen_iff.mpr (.inr ⟨_, _, _, rfl, hwires, .ask _ _ (.ask _ _ (.done _))⟩))

end Courses

/-! ## §4 Courses that fail -/

section Failures

variable {s : Site} {name : String} {source : CallableSource Template} {events : List BuildEvent} {i : Instance}
  {err : Error}

/-- Getting hold of a callable is about nothing but what is constructed for it. -/
theorem CallableSource.Gives.constructed_of_about {result : Except Error Callable}
    (h : (Template.nestSource source).Gives name events result) {e : BuildEvent} (he : e ∈ events)
    (habout : e.request.About i) : ∃ d, constructed d i ∈ events := by
  have built : ∀ {t : Template} {first : List BuildEvent} {made : Except Error Instance},
      Runs t.instantiate first made → e ∈ first → ∃ d, constructed d i ∈ first :=
    fun h he => (guarded_instantiate _ (.refl _) []).constructed_of_about h he habout
  cases source with
  | ready c =>
    cases h
    cases he
  | expression text => cases h <;> cases List.mem_singleton.mp he <;> exact habout.elim
  | object t =>
    cases h with
    | yielded h _ | yieldsNone h =>
      rcases List.mem_append.mp he with he | he
      · obtain ⟨d, hd⟩ := built h he
        exact ⟨d, List.mem_append_left _ hd⟩
      · cases List.mem_singleton.mp he
        exact habout.elim
    | notBuilt h => exact built h he

theorem Site.Wires.asksForCallable {c : Callable} {result : Except Error Callable} (h : s.Wires name c events result) :
    ∀ e ∈ events, e.request.AsksForCallable := by
  cases h <;> simp [refusedOwner, refusedComponent, wiredOwner, wiredComponent, BuildRequest.AsksForCallable]

namespace Site.Fails

/-- Nothing is checked and nothing is written on the component, which is none of those that are constructed
meanwhile. -/
theorem untouched (h : s.Fails name (Template.nestSource source) events err)
    (hnew : ∀ d, constructed d s.component ∉ events) : ∀ e ∈ events, ¬ e.request.About s.component := by
  intro e he habout
  -- what is done for getting hold of the callable is about new components alone, and wiring is about none
  cases h with
  | notGiven hgives =>
    obtain ⟨d, hd⟩ := hgives.constructed_of_about he habout
    exact hnew d hd
  | notWired hgives hwires =>
    rcases List.mem_append.mp he with he | he
    · obtain ⟨d, hd⟩ := hgives.constructed_of_about he habout
      exact hnew d (List.mem_append_left _ hd)
    · exact (hwires.asksForCallable e he).not_about _ habout

/-- The failure is one of the binding of the property, or that of the object. -/
theorem error_cases (h : s.Fails name (Template.nestSource source) events err) :
    (∃ expression reason, err = .bindingResolution name expression reason) ∨
      ∃ t, source = .object t ∧ Runs t.instantiate events (.error err) := by
  -- only an object can fail for another reason than that there is no callable, and then that reason is passed on
  cases h with
  | notWired _ hwires => cases hwires <;> exact .inl ⟨_, _, rfl⟩
  | notGiven hgives =>
    cases source with
    | ready c => cases hgives
    | expression e =>
      cases hgives
      exact .inl ⟨_, _, rfl⟩
    | object t =>
      cases hgives with
      | yieldsNone _ => exact .inl ⟨_, _, rfl⟩
      | notBuilt h => exact .inr ⟨t, rfl, h⟩

end Site.Fails

end Failures

/-! ## §5 What is left in a bag -/

/-- The callable that evaluates an expression in the scope, wired to the node and to the component. -/
def Site.scoped (s : Site) (e : String) : Callable := ⟨.scoped, e, some s.owner, some s.component.typeName⟩

/-- The callable evaluates an expression whenever it is called, and says which node and which type of component it has
been wired to. -/
structure Callable.Evaluates (c : Callable) (e : String) (owner : Owner) (typeName : String) : Prop where
  expression : c.expression = e
  owner : c.owner = some owner
  componentType : c.componentType = some typeName
  call : ∀ scope arguments, c.call scope arguments = Expression.evaluate e scope

/-- What comes of installing the callable of an expression, and what the bag holds afterwards. -/
inductive Site.Leaves (s : Site) (ctx : Context) (name e : String) (b : Bag) :
    Except Error Unit → Option Bag → Prop where
  | rejected {err : EvaluationError} (h : Expression.body e = .error err) :
      Leaves s ctx name e b (.error (.bindingResolution name e err.message)) (some b)
  | refused {cs : List Char} {v : Violation} (h : Expression.body e = .ok cs)
      (hgate : ctx.gate (.method s.target name (s.scoped e)) = .error v) :
      Leaves s ctx name e b (.error (.security v)) (some b)
  | installed {cs : List Char} {left : Bag} (h : Expression.body e = .ok cs)
      (hgate : ctx.gate (.method s.target name (s.scoped e)) = .ok ())
      (hleft : left = b.write (.callable name (s.scoped e)))
      (hfound : left.callables.find? name = some (s.scoped e)) : Leaves s ctx name e b (.ok ()) (some left)

section Bags

variable {ctx : Context} {w w' : World} {b : Bag} {s : Site} {name e : String} {events : List BuildEvent}

/-- A bag takes every write. -/
theorem World.write_of_bag {ref : Nat} (h : w.bag? ref = some b) (change : Write) :
    (w.write ref change).1 = .ok () := by
  obtain ⟨held, hheld, -⟩ := World.bag?_eq_some.mp h
  simp only [World.write, Store.write, hheld, Option.bind_some, Component.report?, Component.write]

/-- Wiring leaves every bag as it is. -/
theorem bag?_of_wiring {ref : Nat} (hanswers : Answers ctx.answer w events w') (hb : w.bag? ref = some b)
    (hwiring : ∀ e ∈ events, e.request.AsksForCallable) : w'.bag? ref = some b := by
  have hbag := bag?_of_answers hanswers (fun d _ hi => (hwiring _ hi).elim) hb
  rwa [writesOn_eq_nil fun e he i change h => absurd (hwiring e he) (by rw [h]; exact id)] at hbag

/-- A callable of the scope is wired to the node and to the component. -/
theorem Site.Wires.eq_scoped {result : Except Error Callable} (h : s.Wires name (.bare .scoped e) events result)
    (hanswers : Answers ctx.answer w events w') : result = .ok (s.scoped e) := by
  -- the surroundings have no say about a callable of the scope: it always takes note of both
  cases h with
  | ownerRefused err => cases (Program.answers_cons hanswers).1
  | componentRefused toOwner err =>
    obtain ⟨howner, hrest⟩ := Program.answers_cons hanswers
    cases howner
    cases (Program.answers_cons hrest).1
  | wired toOwner toComponent =>
    obtain ⟨howner, hrest⟩ := Program.answers_cons hanswers
    cases howner
    cases (Program.answers_cons hrest).1
    rfl

/-- A text is refused for its delimiters alone. -/
theorem body_of_boundCallable {answer : Except EvaluationError Callable} (hctx : ctx.evaluator = .ofScope)
    (h : Answers ctx.answer w (boundCallable e answer :: events) w') :
    (Expression.body e).map (fun _ => Callable.bare .scoped e) = answer := by
  have hanswer : answer = ctx.evaluator.callable e := (Program.answers_cons h).1
  rw [hanswer, hctx]
  rfl

/-- Whatever comes next finds the callable wired, and the bag as it was. -/
theorem Site.scoped_of_answers {c made : Callable} {first second rest : List BuildEvent}
    (hctx : ctx.evaluator = .ofScope) (hgives : CallableSource.Gives name (.expression e) first (.ok c))
    (hwires : s.Wires name c second (.ok made)) (hanswers : Answers ctx.answer w (first ++ (second ++ rest)) w')
    (hb : w.bag? s.component.ref = some b) :
    (∃ cs, Expression.body e = .ok cs) ∧ made = s.scoped e ∧
      ∃ m, m.bag? s.component.ref = some b ∧ Answers ctx.answer m rest w' := by
  cases hgives with
  | made e c =>
    obtain ⟨cs, hbody, rfl⟩ := Outcome.map_eq_ok.mp (body_of_boundCallable hctx hanswers)
    -- getting hold of the callable and wiring it are taken together, because neither touches the bag
    rw [← List.append_assoc] at hanswers
    obtain ⟨m, hasked, hrest⟩ := Program.answers_append.mp hanswers
    refine ⟨⟨cs, hbody⟩, ?_, m, bag?_of_wiring hasked hb ?_, hrest⟩
    · exact Except.ok.inj (hwires.eq_scoped (Program.answers_cons hasked).2)
    · exact List.forall_mem_cons.mpr ⟨trivial, hwires.asksForCallable⟩

/-- Where names are looked up in the scope, every callable is wired, and it is the gate that decides. -/
theorem Site.leaves_of_answers {result : Except Error Unit} (h : s.Installs name (.expression e) events result)
    (hanswers : Answers ctx.answer w events w') (hctx : ctx.evaluator = .ofScope)
    (hb : w.bag? s.component.ref = some b) : s.Leaves ctx name e b result (w'.bag? s.component.ref) := by
  cases h with
  | fails h =>
    cases h with
    | notGiven hgives =>
      cases hgives with
      | rejected e err =>
        rw [bag?_of_wiring hanswers hb (List.forall_mem_singleton.mpr trivial)]
        exact .rejected (Outcome.map_eq_error.mp (body_of_boundCallable hctx hanswers))
    | notWired hgives hwires =>
      -- wiring is not refused: a callable of the scope takes every node and every component
      cases hgives with
      | made e c =>
        obtain ⟨cs, -, rfl⟩ := Outcome.map_eq_ok.mp (body_of_boundCallable hctx hanswers)
        cases hwires.eq_scoped (Program.answers_cons hanswers).2
  | refused hgives hwires v =>
    -- a check that does not pass is the last request
    obtain ⟨⟨cs, hbody⟩, rfl, m, hm, hrest⟩ := Site.scoped_of_answers hctx hgives hwires hanswers hb
    have hbag : w'.bag? s.component.ref = some b :=
      bag?_of_answers hrest (fun d _ hi => by cases List.mem_singleton.mp hi) hm
    rw [hbag]
    exact .refused hbody (Program.answers_cons hrest).1.symm
  | installed hgives hwires answer =>
    obtain ⟨⟨cs, hbody⟩, rfl, m, hm, hrest⟩ := Site.scoped_of_answers hctx hgives hwires hanswers hb
    obtain ⟨hgate, hwrite⟩ := Program.answers_cons hrest
    -- a check may be noted, but it leaves the bag
    have hchecked : (ctx.answer (.check (.method s.target name (s.scoped e))) m).2.bag? s.component.ref = some b :=
      Context.bag?_answer (fun d hd => by cases hd) hm
    have hanswer : answer = .ok () :=
      (Program.answers_cons hwrite).1.trans (World.write_of_bag hchecked (.callable name (s.scoped e)))
    have hwritten :=
      (writesOn_write s.component.ref s.component (.callable name (s.scoped e)) answer).trans (if_pos rfl)
    have hbag : w'.bag? s.component.ref = some (b.write (.callable name (s.scoped e))) :=
      (bag?_of_answers hwrite (fun d _ hi => by cases List.mem_singleton.mp hi) hchecked).trans
        (congrArg (fun ws => some (ws.foldl Bag.write b)) hwritten)
    rw [hbag, hanswer]
    exact .installed hbody hgate.symm rfl ((NameMap.find?_insert _ _ _ _).trans (if_pos rfl))

end Bags

/-! ## §6 Setters for a callable -/

/-- Where the setters of a template are applied: at a component that is built for it. -/
def Template.siteAt (t : Template) (i : Instance) : Site := ⟨t.owner, i⟩

/-- **How callables are wired.** The courses of a setter for a callable are those that are listed. If there is no
callable or if it cannot be wired, the failure is one of the binding of the property, or that of the object, and nothing
is asked about the component and nothing written on it. Where names are looked up in the scope, a bag is left with the
callable of the expression, wired to the node and the component, and otherwise as it was. -/
theorem callable_wired (t : Template) (i : Instance) (name : String) (source : CallableSource Template) :
    (∀ events result, Runs ((t.siteAt i).apply (Template.nestSetter (.assign (.method name source)))) events result ↔
        (t.siteAt i).Installs name (Template.nestSource source) events result) ∧
      (∀ events err, (t.siteAt i).Fails name (Template.nestSource source) events err →
        ((∃ expression reason, err = .bindingResolution name expression reason) ∨
            ∃ n, source = .object n ∧ Runs n.instantiate events (.error err)) ∧
          ((∀ d, constructed d i ∉ events) → ∀ e ∈ events, ¬ e.request.About i)) ∧
      ∀ (ctx : Context) (w : World) (b : Bag) (e : String), source = .expression e → ctx.evaluator = .ofScope →
        w.bag? i.ref = some b →
          ((t.siteAt i).scoped e).Evaluates e ⟨t.tag, t.id?⟩ i.typeName ∧
            let after := ctx.run ((t.siteAt i).apply (Template.nestSetter (.assign (.method name source)))) w
            (t.siteAt i).Leaves ctx name e b after.1 (after.2.bag? i.ref) := by
  refine ⟨fun events result => runs_installCallable_iff, fun events err h => ⟨h.error_cases, h.untouched⟩, ?_⟩
  rintro ctx w b e rfl hctx hb
  refine ⟨⟨rfl, rfl, rfl, fun scope arguments => rfl⟩, ?_⟩
  -- what a host makes of the setter is a run with its answers
  let applied : Build Unit := (t.siteAt i).apply (Template.nestSetter (.assign (.method name (.expression e))))
  have hanswers := Program.answers_trace ctx.answer applied w
  have hrun := Program.runs_trace ctx.answer applied w
  rw [Program.trace_fst] at hrun
  exact Site.leaves_of_answers (runs_installCallable_iff.mp hrun) hanswers hctx hb

/-- The action of a button that has an id, and a listener that there is no callable for. -/
theorem button_action_wired :
    let e := "#\x7b'saved'\x7d"
    let button : Template := { plainTemplate "button" with
      setters := [.assign (.id "ok"), .assign (.method "action" (.expression e))] }
    let site := button.siteAt ⟨0, "Button"⟩
    let wired : Callable := ⟨.scoped, e, some ⟨"button", some "ok"⟩, some "Button"⟩
    let ctx : Context := .bare .ofScope .empty
    let w : World := { World.initial (.library .empty) with store := (Store.empty.add (.bag (.empty "Button"))).2 }
    let after := ctx.run (site.apply (Template.nestSetter (.assign (.method "action" (.expression e))))) w
    (∃ left, after.2.bag? 0 = some left ∧ left.callables.find? "action" = some wired) ∧
      wired.Evaluates e ⟨"button", some "ok"⟩ "Button" ∧
      ∀ e ∈ [constructed (plainTemplate "listener").definition ⟨1, "Listener"⟩, yielded ⟨1, "Listener"⟩ none],
        ¬ e.request.About site.component := by
  intro e button site wired ctx w after
  obtain ⟨hevaluates, hleaves⟩ := (callable_wired button ⟨0, "Button"⟩ "action" (.expression e)).2.2 ctx w
    (.empty "Button") e rfl rfl rfl
  refine ⟨?_, hevaluates, ?_⟩
  · change site.Leaves ctx "action" e (.empty "Button") after.1 (after.2.bag? 0) at hleaves
    -- the text is an expression, and the gate lets everything pass
    generalize after.1 = result, after.2.bag? 0 = held at hleaves ⊢
    cases hleaves with
    | rejected h =>
      have hchars : Expression.bodyChars? e.toList = some "'saved'".toList := by decide
      simp only [Expression.body, hchars, reduceCtorEq] at h
    | refused _ hgate => cases hgate
    | installed _ _ hleft hfound => exact ⟨_, rfl, hfound⟩
  · have hbuilt : Runs (plainTemplate "listener").instantiate
        [constructed (plainTemplate "listener").definition ⟨1, "Listener"⟩] (.ok ⟨1, "Listener"⟩) := .ask _ _ (.done _)
    have hfails : site.Fails "action" (Template.nestSource (.object (plainTemplate "listener"))) _ _ :=
      .notGiven (.yieldsNone hbuilt)
    refine ((callable_wired button ⟨0, "Button"⟩ "action" (.object (plainTemplate "listener"))).2.1 _ _ hfails).2
      fun d hd => ?_
    -- the listener is constructed, but the button is not
    rcases List.mem_cons.mp hd with h | h
    · cases h
    · cases List.mem_singleton.mp h

end PageTemplates
