import PageTemplates.Proofs.Program.Runs
import PageTemplates.Proofs.Template.Nesting

/-!
# Every effect of a build has passed the gate

A build puts its requests to surroundings of which nothing is known: components, evaluators and gates may answer each
request in any way. Whatever they answer, each write and each evaluation comes right after a check of exactly what is
written or evaluated, each check that passes comes right before what it allows, and a check that does not pass is the
last request of all (`Gated`, `build_gated`).

## Structure

- §1 says which check allows which request (`Allows`).
- §2 describes the requests of a build by a grammar (`Mediated`), which is closed under sequencing.
- §3 goes through the setters, §4 through the templates by induction on nesting.
- §5 reads the statement about every single request off the grammar.
-/

namespace PageTemplates

/-- A request of a build with its answer. -/
abbrev BuildEvent := Program.Event BuildRequest.Answer

/-- A check that passed. -/
def passed (c : Check) : BuildEvent := ⟨.check c, (.ok () : Except Violation Unit)⟩

/-- A check that did not pass. -/
def refused (c : Check) (v : Violation) : BuildEvent := ⟨.check c, (.error v : Except Violation Unit)⟩

/-- A callable is wired to a node. -/
def wiredOwner (c : Callable) (owner : Owner) (wired : Option Callable) : BuildEvent :=
  ⟨.wireOwner c owner, (.ok wired : Except EvaluationError (Option Callable))⟩

/-- A callable is wired to a component. -/
def wiredComponent (c : Callable) (i : Instance) (wired : Option Callable) : BuildEvent :=
  ⟨.wireComponent c i, (.ok wired : Except EvaluationError (Option Callable))⟩

/-- A component is constructed for a definition. -/
def constructed (d : Definition) (i : Instance) : BuildEvent := ⟨.construct d, (i : Instance)⟩

/-! ## §1 What a check allows -/

/-- A setter adds elements to a property by an operation, at once or after its expression has been evaluated. -/
def Setter.AddsBy {τ : Type} (property addMethod : String) : Setter τ → Prop
  | .assign (.collection name method _) => name = property ∧ method = addMethod
  | .loadTime _ _ f => f.property = property ∧ ∃ type, f.kind = .collection addMethod type
  | _ => False

/-- A component has been constructed for a template that occurs in the one that is built. -/
def BuiltFor (root : Template) (before : List BuildEvent) (i : Instance) (t : Template) : Prop :=
  root.Within t ∧ constructed t.definition i ∈ before

/-- What a check that has passed allows, after certain requests in the build of a template. A check about a component
names the tag of the template that the component was constructed for. -/
inductive Allows (root : Template) (before : List BuildEvent) : Check → BuildRequest → Prop where
  /-- A property gets the value that was shown. -/
  | property {i : Instance} {t : Template} (h : BuiltFor root before i t) (name : String) (v : Value) :
      Allows root before (.write ⟨t.tag, some i⟩ name v) (.write i (.property name v))
  /-- The id is shown as a text. -/
  | id {i : Instance} {t : Template} (h : BuiltFor root before i t) (text : String) :
      Allows root before (.write ⟨t.tag, some i⟩ idName (.text text)) (.write i (.id text))
  /-- The shown flag is shown as a truth value. -/
  | rendered {i : Instance} {t : Template} (h : BuiltFor root before i t) (flag : Bool) :
      Allows root before (.write ⟨t.tag, some i⟩ renderedName (.bool flag)) (.write i (.rendered flag))
  /-- An element is shown under the property that it is added to. -/
  | item {i : Instance} {t : Template} (h : BuiltFor root before i t) (name addMethod : String) (v : Value)
      (hadd : ∃ s ∈ t.setters, s.AddsBy name addMethod) :
      Allows root before (.write ⟨t.tag, some i⟩ name v) (.write i (.item addMethod v))
  /-- A live value is shown itself. -/
  | liveValue {i : Instance} {t : Template} (h : BuiltFor root before i t) (name : String) (b : LiveValue) :
      Allows root before (.runTime ⟨t.tag, some i⟩ name b) (.write i (.liveValue name b))
  /-- A callable is shown as it came out of being wired to its node and then to its component. -/
  | callable {i : Instance} {t : Template} (h : BuiltFor root before i t) (name : String)
      (earlier : List BuildEvent) (c : Callable) (toOwner toComponent : Option Callable)
      (hwired : before =
        earlier ++ [wiredOwner c t.owner toOwner, wiredComponent (toOwner.getD c) i toComponent]) :
      Allows root before (.method ⟨t.tag, some i⟩ name (toComponent.getD (toOwner.getD c)))
        (.write i (.callable name (toComponent.getD (toOwner.getD c))))
  /-- An expression of a property is shown before it is evaluated. -/
  | evaluate {i : Instance} {t : Template} (h : BuiltFor root before i t) (name expression : String) :
      Allows root before (.loadTime ⟨t.tag, some i⟩ name expression) (.evaluate expression)
  /-- The expression that decides whether the template is built at all is shown before there is a component. -/
  | condition (expression : String) (h : root.loaded = some (.expression expression)) :
      Allows root before (.loadTime ⟨root.tag, none⟩ loadedName expression) (.evaluate expression)

/-- The request may only be put after a check. -/
def BuildRequest.NeedsCheck : BuildRequest → Prop
  | .write .. | .evaluate _ => True
  | _ => False

/-- The request has nothing to do with the gate. -/
def BuildRequest.IsFree : BuildRequest → Prop
  | .check _ | .write .. | .evaluate _ => False
  | _ => True

/-- What the discipline of the gate says of one request, by what came before and after it in the build of a template
and by the result of the build. -/
structure GatedAt {α : Type} (root : Template) (result : Except Error α) (before : List BuildEvent) (e : BuildEvent)
    (after : List BuildEvent) : Prop where
  /-- Right before a write or an evaluation there is a check that passed and allows it. -/
  allowed : e.request.NeedsCheck → ∃ earlier c, before = earlier ++ [passed c] ∧ Allows root earlier c e.request
  /-- Right after a check that passed there is what it allows; no check is made for anything else. -/
  used : ∀ c, e = passed c → ∃ next rest, after = next :: rest ∧ Allows root before c next.request
  /-- After a check that did not pass there is nothing, and its violation is the result. -/
  stopped : ∀ c v, e = refused c v → after = [] ∧ result = .error (.security v)

/-- **The discipline of the gate** for the requests that were put in the build of a template and the result. -/
def Gated {α : Type} (root : Template) (events : List BuildEvent) (result : Except Error α) : Prop :=
  ∀ before e after, events = before ++ e :: after → GatedAt root result before e after

/-! ## §2 A grammar of requests -/

/-- The requests of a build that keeps the discipline: requests that have nothing to do with the gate, pairs of a check
that passed and what it allows, and possibly a check that did not pass at the end. -/
inductive Mediated {α : Type} (root : Template) (result : Except Error α) :
    List BuildEvent → List BuildEvent → Prop where
  | nil {before : List BuildEvent} : Mediated root result before []
  | free {before rest : List BuildEvent} (e : BuildEvent) (h : e.request.IsFree)
      (hrest : Mediated root result (before ++ [e]) rest) : Mediated root result before (e :: rest)
  | granted {before rest : List BuildEvent} (c : Check) (e : BuildEvent) (h : Allows root before c e.request)
      (hrest : Mediated root result (before ++ [passed c, e]) rest) :
      Mediated root result before (passed c :: e :: rest)
  | refused {before : List BuildEvent} (c : Check) (v : Violation) (h : result = .error (.security v)) :
      Mediated root result before [refused c v]

namespace Mediated

variable {α β : Type} {root : Template}

theorem append {a : α} {result : Except Error β} {before first second : List BuildEvent}
    (h₁ : Mediated root (.ok a : Except Error α) before first)
    (h₂ : Mediated root result (before ++ first) second) : Mediated root result before (first ++ second) := by
  induction h₁ with
  | nil => simpa using h₂
  | free e he _ ih =>
    refine .free e he (ih ?_)
    simpa using h₂
  | granted c e he _ ih =>
    refine .granted c e he (ih ?_)
    simpa using h₂
  -- a check that did not pass would have made the first part fail
  | refused c v h => cases h

/-- An error is the same whatever a build would have given without it. -/
theorem of_error {error : Error} {before events : List BuildEvent}
    (h : Mediated root (.error error : Except Error α) before events) :
    Mediated root (.error error : Except Error β) before events := by
  induction h with
  | nil => exact .nil
  | free e he _ ih => exact .free e he ih
  | granted c e he _ ih => exact .granted c e he ih
  | refused c v h =>
    refine .refused c v ?_
    cases h
    rfl

end Mediated

/-- Every run of a build keeps the discipline, after certain requests. -/
def Guarded {α : Type} (root : Template) (before : List BuildEvent) (p : Build α) : Prop :=
  ∀ events result, Program.Runs p events result → Mediated root result before events

/-- Every run of a build begins with what a check allows, and keeps the discipline from there. -/
def GuardedAfter {α : Type} (root : Template) (before : List BuildEvent) (c : Check) (p : Build α) : Prop :=
  ∀ events result, Program.Runs p events result →
    ∃ e rest, events = e :: rest ∧ Allows root before c e.request ∧
      Mediated root result (before ++ [passed c, e]) rest

/-! ### Single requests -/

section Requests

variable {α β ε : Type} {root : Template} {before : List BuildEvent}

theorem runs_buildAsk {r : BuildRequest} {events : List BuildEvent} {result : Except Error r.Answer} :
    Program.Runs (Build.ask r) events result ↔ ∃ answer, events = [⟨r, answer⟩] ∧ result = .ok answer := by
  unfold Build.ask
  constructor
  · intro h
    obtain ⟨answer, rest, rfl, hdone⟩ := Program.runs_ask.mp h
    obtain ⟨rfl, rfl⟩ := Program.runs_done.mp hdone
    exact ⟨answer, rfl, rfl⟩
  · rintro ⟨answer, rfl, rfl⟩
    exact .ask r answer (.done _)

theorem runs_askOr {r : BuildRequest} {h : r.Answer = Except ε α} {cause : ε → Error} {events : List BuildEvent}
    {result : Except Error α} :
    Program.Runs (Build.askOr r h cause) events result ↔
      ∃ answer : r.Answer, events = [⟨r, answer⟩] ∧ result = (h ▸ answer : Except ε α).mapError cause := by
  unfold Build.askOr
  constructor
  · intro hrun
    obtain ⟨answer, rest, rfl, hdone⟩ := Program.runs_ask.mp hrun
    obtain ⟨rfl, rfl⟩ := Program.runs_done.mp hdone
    exact ⟨answer, rfl, rfl⟩
  · rintro ⟨answer, rfl, rfl⟩
    exact .ask r answer (.done _)

theorem runs_askOr_ok {r : BuildRequest} {h : r.Answer = Except ε α} {cause : ε → Error} {events : List BuildEvent}
    {a : α} (hrun : Program.Runs (Build.askOr r h cause) events (.ok a)) :
    events = [⟨r, h.symm ▸ (.ok a : Except ε α)⟩] := by
  obtain ⟨answer, rfl, hanswer⟩ := runs_askOr.mp hrun
  -- the answer is a success, because its failure would have been passed on
  have hcast : (h ▸ answer : Except ε α) = .ok a := by
    cases hcase : (h ▸ answer : Except ε α) with
    | error e =>
      rw [hcase] at hanswer
      cases hanswer
    | ok b =>
      rw [hcase] at hanswer
      rw [Except.ok.inj hanswer]
  -- the event holds the answer at the type of its request, so the cast is undone
  have roundtrip : ∀ {X Y : Type} (e : X = Y) (x : X), e.symm ▸ (e ▸ x) = x := by
    intro X Y e x
    subst e
    rfl
  rw [← hcast, roundtrip h answer]

/-- A check passes, or its violation is the result. -/
theorem runs_check {c : Check} {events : List BuildEvent} {result : Except Error Unit}
    (h : Program.Runs (Build.check c) events result) :
    (events = [passed c] ∧ result = .ok ()) ∨ ∃ v, events = [refused c v] ∧ result = .error (.security v) := by
  obtain ⟨answer, rfl, rfl⟩ := runs_askOr.mp h
  cases hanswer : (answer : Except Violation Unit) with
  | ok u => exact .inl ⟨rfl, rfl⟩
  | error v => exact .inr ⟨v, rfl, rfl⟩

theorem Guarded.pure (a : α) : Guarded root before (pure a : Build α) := by
  intro events result h
  obtain ⟨rfl, rfl⟩ := Program.runs_pure_except.mp h
  exact .nil

theorem Guarded.fail (e : Error) : Guarded root before (Build.fail e : Build α) := by
  intro events result h
  obtain ⟨rfl, rfl⟩ := Program.runs_done.mp h
  exact .nil

/-- The discipline is kept by a sequence if it is kept by both parts. -/
theorem Guarded.bind {p : Build α} {f : α → Build β} (hp : Guarded root before p)
    (hf : ∀ a first, Program.Runs p first (.ok a) → Guarded root (before ++ first) (f a)) :
    Guarded root before (p >>= f) := by
  intro events result h
  rcases Program.runs_bind_except.mp h with ⟨e, rfl, hrun⟩ | ⟨a, first, second, rfl, hfirst, hsecond⟩
  · -- the first part has failed, and its requests are all
    exact (hp _ _ hrun).of_error
  · exact (hp _ _ hfirst).append (hf a first hfirst _ _ hsecond)

theorem Guarded.ask {r : BuildRequest} (hfree : r.IsFree) : Guarded root before (Build.ask r) := by
  intro events result h
  obtain ⟨answer, rfl, rfl⟩ := runs_buildAsk.mp h
  exact .free _ hfree .nil

theorem Guarded.askOr {r : BuildRequest} {h : r.Answer = Except ε α} {cause : ε → Error} (hfree : r.IsFree) :
    Guarded root before (Build.askOr r h cause) := by
  intro events result hrun
  obtain ⟨answer, rfl, rfl⟩ := runs_askOr.mp hrun
  exact .free _ hfree .nil

/-- A check in front of what uses it keeps the discipline. -/
theorem Guarded.check_bind {c : Check} {p : Build α} (hp : GuardedAfter root before c p) :
    Guarded root before (Build.check c >>= fun _ => p) := by
  intro events result h
  rcases Program.runs_bind_except.mp h with ⟨e, rfl, hrun⟩ | ⟨a, first, second, rfl, hfirst, hsecond⟩
  · -- the sequence has failed in the check, which therefore did not pass
    rcases runs_check hrun with ⟨_, hok⟩ | ⟨v, rfl, herror⟩
    · cases hok
    · cases herror
      exact .refused c v rfl
  · rcases runs_check hfirst with ⟨rfl, _⟩ | ⟨v, _, herror⟩
    · obtain ⟨e, rest, rfl, hallows, hrest⟩ := hp _ _ hsecond
      exact .granted c e hallows hrest
    · cases herror

theorem GuardedAfter.askOr {c : Check} {r : BuildRequest} {h : r.Answer = Except ε α} {cause : ε → Error}
    (hallows : Allows root before c r) : GuardedAfter root before c (Build.askOr r h cause) := by
  intro events result hrun
  obtain ⟨answer, rfl, rfl⟩ := runs_askOr.mp hrun
  exact ⟨_, [], rfl, hallows, .nil⟩

theorem GuardedAfter.bind {c : Check} {p : Build α} {f : α → Build β} (hp : GuardedAfter root before c p)
    (hf : ∀ a e, Guarded root (before ++ passed c :: e) (f a)) : GuardedAfter root before c (p >>= f) := by
  intro events result h
  rcases Program.runs_bind_except.mp h with ⟨e, rfl, hrun⟩ | ⟨a, first, second, rfl, hfirst, hsecond⟩
  · obtain ⟨e, rest, rfl, hallows, hrest⟩ := hp _ _ hrun
    exact ⟨e, rest, rfl, hallows, hrest.of_error⟩
  · -- what is allowed is put by the first part, and the second one begins after that
    obtain ⟨e, rest, rfl, hallows, hrest⟩ := hp _ _ hfirst
    refine ⟨e, rest ++ second, rfl, hallows, hrest.append ?_⟩
    have hnext := hf a (e :: rest) _ _ hsecond
    simpa using hnext

end Requests

/-! ## §3 Setters -/

namespace BuiltFor

variable {root t : Template} {before : List BuildEvent} {i : Instance}

/-- What has been constructed stays constructed. -/
theorem append (h : BuiltFor root before i t) (events : List BuildEvent) : BuiltFor root (before ++ events) i t :=
  ⟨h.1, List.mem_append_left _ h.2⟩

end BuiltFor

/-- Setters are applied at a site on behalf of a template: to a component that was constructed for it. -/
structure SiteOf (root : Template) (before : List BuildEvent) (s : Site) (t : Template) : Prop where
  /-- The component was constructed for the template. -/
  built : BuiltFor root before s.component t
  /-- The node is that of the template. -/
  owner : s.owner = t.owner

namespace SiteOf

variable {root t : Template} {before : List BuildEvent} {s : Site}

theorem append (h : SiteOf root before s t) (events : List BuildEvent) : SiteOf root (before ++ events) s t :=
  ⟨h.built.append events, h.owner⟩

theorem target_eq (h : SiteOf root before s t) : s.target = ⟨t.tag, some s.component⟩ := by
  unfold Site.target
  rw [h.owner]
  rfl

end SiteOf

/-- A write right after the check that allows it. -/
theorem guarded_writeChecked {root : Template} {before : List BuildEvent} {s : Site} {property : String}
    {shown : Value} {w : Write} (hallows : Allows root before (.write s.target property shown) (.write s.component w)) :
    Guarded root before (s.writeChecked property shown w) :=
  Guarded.check_bind (GuardedAfter.askOr hallows)

/-- Nested objects are built with discipline whatever came before. -/
def NestedGuarded (root : Template) (objects : List Nested) : Prop :=
  ∀ n ∈ objects, ∀ before, Guarded root before n.build

section Assignments

variable {root t : Template} {before : List BuildEvent} {s : Site}

theorem guarded_itemValue {item : Item Nested} (hn : NestedGuarded root item.nested) :
    Guarded root before (Site.itemValue item) := by
  cases item with
  | value v => exact Guarded.pure v
  | object n =>
    -- an object is built, and then it is finished, which needs no check
    refine Guarded.bind (hn n (List.mem_singleton_self n) before) fun i first _ => ?_
    exact Guarded.bind (Guarded.ask trivial) fun h second _ => Guarded.pure _

/-- Elements are checked one by one, each before it is added. -/
theorem guarded_addItems {property addMethod : String} {items : List (Item Nested)}
    (hs : SiteOf root before s t) (hadd : ∃ setter ∈ t.setters, setter.AddsBy property addMethod)
    (hn : NestedGuarded root (items.flatMap Item.nested)) :
    Guarded root before (s.addItems property addMethod items) := by
  -- by induction on the elements, with what came before growing by what each of them takes
  induction items generalizing before with
  | nil => exact Guarded.pure ()
  | cons item rest ih =>
    have hitem : NestedGuarded root item.nested := fun n hmem => hn n (by simp [hmem])
    have hrest : NestedGuarded root (rest.flatMap Item.nested) := by
      intro n hmem
      refine hn n ?_
      rw [List.flatMap_cons]
      exact List.mem_append_right _ hmem
    unfold Site.addItems
    -- the check of an element comes after the object that it may have to be built from
    refine Guarded.bind (guarded_itemValue hitem) fun v first _ => ?_
    have hs₁ := hs.append first
    refine Guarded.bind (guarded_writeChecked ?_) fun _ second _ => ih (hs₁.append second) hrest
    rw [hs₁.target_eq]
    exact .item hs₁.built property addMethod v hadd

theorem guarded_callableOf {property : String} {source : CallableSource Nested}
    (hn : NestedGuarded root source.nested) : Guarded root before (Site.callableOf property source) := by
  cases source with
  | expression e => exact Guarded.askOr (h := rfl) trivial
  | ready c => exact Guarded.pure c
  | object n =>
    -- the object is built before it is asked for the callable that it stands for
    refine Guarded.bind (hn n (List.mem_singleton_self n) before) fun i first _ => ?_
    refine Guarded.bind (Guarded.ask trivial) fun answer second _ => ?_
    cases answer with
    | some c => exact Guarded.pure c
    | none => exact Guarded.fail _

theorem guarded_wireOwner {property : String} {c : Callable} {owner : Owner} :
    Guarded root before (Build.wireOwner property c owner) :=
  Guarded.bind (Guarded.askOr trivial) fun _ _ _ => Guarded.pure _

theorem guarded_wireComponent {property : String} {c : Callable} {i : Instance} :
    Guarded root before (Build.wireComponent property c i) :=
  Guarded.bind (Guarded.askOr trivial) fun _ _ _ => Guarded.pure _

theorem runs_wireOwner {property : String} {c wired : Callable} {owner : Owner} {events : List BuildEvent}
    (h : Program.Runs (Build.wireOwner property c owner) events (.ok wired)) :
    ∃ answer, events = [wiredOwner c owner answer] ∧ wired = answer.getD c := by
  obtain ⟨answer, first, second, rfl, hfirst, hsecond⟩ := Program.runs_bind_ok h
  obtain ⟨rfl, hwired⟩ := Program.runs_pure_except.mp hsecond
  exact ⟨answer, by rw [runs_askOr_ok hfirst]; rfl, Except.ok.inj hwired⟩

theorem runs_wireComponent {property : String} {c wired : Callable} {i : Instance} {events : List BuildEvent}
    (h : Program.Runs (Build.wireComponent property c i) events (.ok wired)) :
    ∃ answer, events = [wiredComponent c i answer] ∧ wired = answer.getD c := by
  obtain ⟨answer, first, second, rfl, hfirst, hsecond⟩ := Program.runs_bind_ok h
  obtain ⟨rfl, hwired⟩ := Program.runs_pure_except.mp hsecond
  exact ⟨answer, by rw [runs_askOr_ok hfirst]; rfl, Except.ok.inj hwired⟩

/-- A callable is wired twice, then checked as it came out, then installed. -/
theorem guarded_installCallable {property : String} {source : CallableSource Nested}
    (hs : SiteOf root before s t) (hn : NestedGuarded root source.nested) :
    Guarded root before (s.installCallable property source) := by
  unfold Site.installCallable
  -- what is checked is what came out of being wired, so the answers are needed and not only that there are some
  refine Guarded.bind (guarded_callableOf hn) fun c first _ => ?_
  refine Guarded.bind guarded_wireOwner fun c₁ second hsecond => ?_
  refine Guarded.bind guarded_wireComponent fun c₂ third hthird => ?_
  obtain ⟨toOwner, rfl, rfl⟩ := runs_wireOwner hsecond
  obtain ⟨toComponent, rfl, rfl⟩ := runs_wireComponent hthird
  have hs₃ := ((hs.append first).append [wiredOwner c s.owner toOwner]).append
    [wiredComponent (toOwner.getD c) s.component toComponent]
  refine Guarded.check_bind (GuardedAfter.askOr ?_)
  rw [hs₃.target_eq]
  refine .callable hs₃.built property (before ++ first) c toOwner toComponent ?_
  rw [hs.owner, List.append_assoc _ [_] [_]]
  rfl

/-- What an assignment writes is what has just been checked. -/
theorem guarded_assign {a : Assignment Nested} (hs : SiteOf root before s t)
    (hadd : ∀ name addMethod items, a = .collection name addMethod items →
      ∃ setter ∈ t.setters, setter.AddsBy name addMethod)
    (hn : NestedGuarded root a.nested) : Guarded root before (s.assign a) := by
  cases a with
  | scalar name v type =>
    refine guarded_writeChecked ?_
    rw [hs.target_eq]
    exact .property hs.built name v
  | id text =>
    refine guarded_writeChecked ?_
    rw [hs.target_eq]
    exact .id hs.built text
  | rendered flag =>
    refine guarded_writeChecked ?_
    rw [hs.target_eq]
    exact .rendered hs.built flag
  | object name n =>
    unfold Site.assign
    refine Guarded.bind (hn n (List.mem_singleton_self n) before) fun i first _ => ?_
    refine Guarded.bind (Guarded.ask trivial) fun h second _ => ?_
    -- the requests of the nested object stand between the construction and the check
    have hs₂ := (hs.append first).append second
    refine guarded_writeChecked ?_
    rw [hs₂.target_eq]
    exact .property hs₂.built name (.object h)
  | collection name addMethod items => exact guarded_addItems hs (hadd name addMethod items rfl) hn
  | method name source => exact guarded_installCallable hs hn

/-- A setter keeps the discipline at a component that was constructed for its template. -/
theorem guarded_apply {setter : Setter Template} (hs : SiteOf root before s t) (hmem : setter ∈ t.setters)
    (hn : NestedGuarded root (setter.nested.map Template.toNested)) :
    Guarded root before (s.apply (Template.nestSetter setter)) := by
  cases setter with
  | assign a =>
    refine guarded_assign hs ?_ ?_
    · intro name addMethod items ha
      refine ⟨_, hmem, ?_⟩
      -- only a collection becomes a collection
      cases a <;> simp_all [Template.nestAssignment, Setter.AddsBy]
    · rw [Template.nested_nestAssignment]
      exact hn
  | loadTime name e f =>
    -- the evaluation comes right after its check; the assignment of its value has checks of its own
    refine Guarded.check_bind (GuardedAfter.bind (GuardedAfter.askOr ?_) fun v answered => ?_)
    · rw [hs.target_eq]
      exact .evaluate hs.built name e
    · have hs₁ := hs.append (passed (.loadTime s.target name e) :: answered)
      unfold Site.resolved
      cases hvalue : (f.assignValue v : Except Error (Assignment Nested)) with
      | error err => exact Guarded.bind (Guarded.fail _) fun _ _ hrun => by cases hrun
      | ok a =>
        obtain ⟨hnone, hcollection⟩ := Factory.assignValue_spec hvalue
        refine Guarded.bind (Guarded.pure a) fun b first hrun => ?_
        obtain ⟨rfl, hb⟩ := Program.runs_pure_except.mp hrun
        cases hb
        refine guarded_assign (hs₁.append []) ?_ ?_
        · intro property addMethod items ha
          exact ⟨_, hmem, hcollection property addMethod items ha⟩
        · -- a value holds nothing that is still to be built
          rw [hnone]
          intro n hnil
          cases hnil
  | runTime name e type =>
    -- a live value is made before the check, because it is what is checked
    refine Guarded.bind (Guarded.askOr trivial) fun b first _ => ?_
    have hs₁ := hs.append first
    refine Guarded.check_bind (GuardedAfter.askOr ?_)
    rw [hs₁.target_eq]
    exact .liveValue hs₁.built name b
  | loaded flag => exact Guarded.pure ()

theorem guarded_applyAll {setters : List (Setter Template)} (hs : SiteOf root before s t)
    (hmem : ∀ setter ∈ setters, setter ∈ t.setters)
    (hn : ∀ u ∈ setters.flatMap Setter.nested, ∀ before, Guarded root before u.instantiate) :
    Guarded root before (s.applyAll (setters.map Template.nestSetter)) := by
  induction setters generalizing before with
  | nil => exact Guarded.pure ()
  | cons setter rest ih =>
    rw [List.map_cons]
    unfold Site.applyAll
    refine Guarded.bind (guarded_apply hs (hmem setter List.mem_cons_self) ?_) fun _ first _ => ?_
    -- what is nested in the program of a setter is the program of a template that the setter holds
    · intro n hin
      obtain ⟨u, hu, rfl⟩ := List.mem_map.mp hin
      exact hn u (List.mem_flatMap.mpr ⟨setter, List.mem_cons_self, hu⟩)
    · apply ih (hs.append first)
      · intro other hother
        exact hmem other (List.mem_cons_of_mem setter hother)
      · intro u hu
        rw [List.flatMap_cons] at hn
        exact hn u (List.mem_append_right _ hu)

end Assignments

/-! ## §4 Templates -/

/-- Building a component keeps the discipline, by induction on the nesting of templates. -/
theorem guarded_instantiate {root : Template} (t : Template) (h : root.Within t) (before : List BuildEvent) :
    Guarded root before t.instantiate := by
  induction t using Template.nested_induction generalizing before with
  | step t ih =>
    rw [Template.instantiate_eq]
    unfold Template.assemble
    refine Guarded.bind (Guarded.ask trivial) fun i first hfirst => ?_
    obtain ⟨answer, rfl, hanswer⟩ := runs_buildAsk.mp hfirst
    cases hanswer
    -- the component that has just been constructed is the one that the setters are applied to
    have hs : SiteOf root (before ++ [⟨.construct t.definition, i⟩]) ⟨t.owner, i⟩ t :=
      ⟨⟨h, List.mem_append_right before (List.mem_singleton_self _)⟩, rfl⟩
    -- a nested template occurs in the root because the one around it does
    refine Guarded.bind (guarded_applyAll hs (fun _ hmem => hmem) fun u hu => ih u hu (h.nested hu))
      fun _ second _ => ?_
    cases t.definition.includedPage with
    | none => exact Guarded.pure i
    | some page => exact Guarded.bind (Guarded.ask trivial) fun _ _ _ => Guarded.pure i

theorem guarded_isLoaded (t : Template) (before : List BuildEvent) : Guarded t before t.isLoaded := by
  unfold Template.isLoaded
  cases hloaded : t.loaded with
  | none => exact Guarded.pure true
  | some condition =>
    cases condition with
    | literal flag => exact Guarded.pure flag
    | expression e =>
      refine Guarded.check_bind (GuardedAfter.bind (GuardedAfter.askOr (.condition e hloaded)) fun v answered => ?_)
      -- the value decides, or there is an error; both need nothing more
      cases v with
      | bool b => exact Guarded.pure b
      | null | int _ | double _ | text _ | list _ | object _ => exact Guarded.fail _

theorem guarded_component (t : Template) (before : List BuildEvent) : Guarded t before t.component? := by
  unfold Template.component?
  refine Guarded.bind (guarded_isLoaded t before) fun flag first _ => ?_
  cases flag with
  | false => exact Guarded.pure none
  | true =>
    -- the setters of the template come after its condition, which has a check of its own
    refine Guarded.bind (guarded_instantiate t (Template.Within.refl t) _) fun i second _ => ?_
    exact Guarded.pure (some i)

/-! ## §5 Every single request -/

theorem Allows.not_check {root : Template} {before : List BuildEvent} {c d : Check} :
    ¬ Allows root before c (.check d) := nofun

/-- The discipline holds at every request that the grammar generates. -/
theorem Mediated.gatedAt {α : Type} {root : Template} {result : Except Error α} {known events : List BuildEvent}
    (h : Mediated root result known events) :
    ∀ before e after, events = before ++ e :: after → GatedAt root result (known ++ before) e after := by
  -- by induction on the grammar: the request is one of the first ones, or it is later and nothing changes for it
  induction h with
  | nil =>
    intro before e after heq
    simp at heq
  | @free known rest e₀ hfree _ ih =>
    intro before e after heq
    rcases before with _ | ⟨x, before⟩
    · -- the free request itself: it is no check, and needs none
      simp only [List.nil_append, List.cons.injEq] at heq
      obtain ⟨rfl, rfl⟩ := heq
      refine ⟨?_, ?_, ?_⟩
      · intro hneeds
        cases hreq : e₀.request <;> simp_all [BuildRequest.IsFree, BuildRequest.NeedsCheck]
      · rintro c rfl
        exact hfree.elim
      · rintro c v rfl
        exact hfree.elim
    · simp only [List.cons_append, List.cons.injEq] at heq
      obtain ⟨rfl, heq⟩ := heq
      simpa using ih before e after heq
  | @granted known rest c₀ e₀ hallows _ ih =>
    intro before e after heq
    rcases before with _ | ⟨x, _ | ⟨y, before⟩⟩
    · -- the check: what it allows comes next
      simp only [List.nil_append, List.cons.injEq] at heq
      obtain ⟨rfl, rfl⟩ := heq
      refine ⟨fun hneeds => hneeds.elim, ?_, ?_⟩
      · intro c hc
        cases hc
        exact ⟨e₀, rest, rfl, by simpa using hallows⟩
      · intro c v hc
        cases hc
    · -- what is allowed: the check has just passed
      simp only [List.cons_append, List.nil_append, List.cons.injEq] at heq
      obtain ⟨rfl, rfl, rfl⟩ := heq
      refine ⟨fun _ => ⟨known, c₀, rfl, hallows⟩, ?_, ?_⟩
      · rintro c rfl
        exact (Allows.not_check hallows).elim
      · rintro c v rfl
        exact (Allows.not_check hallows).elim
    · simp only [List.cons_append, List.cons.injEq] at heq
      obtain ⟨rfl, rfl, heq⟩ := heq
      simpa using ih before e after heq
  | refused c₀ v₀ hresult =>
    intro before e after heq
    rcases before with _ | ⟨x, before⟩
    · simp only [List.nil_append, List.cons.injEq] at heq
      obtain ⟨rfl, rfl⟩ := heq
      refine ⟨fun hneeds => hneeds.elim, ?_, ?_⟩
      · intro c hc
        cases hc
      · intro c v hc
        cases hc
        exact ⟨rfl, hresult⟩
    · simp at heq

theorem Guarded.gated {α σ : Type} {root : Template} {p : Build α} (h : Guarded root [] p)
    (handle : Program.Handler BuildRequest.Answer σ) (s : σ) :
    Gated root (Program.trace handle p s).2 (Program.trace handle p s).1 := by
  intro before e after heq
  have hgrammar := h _ _ (Program.runs_trace handle p s)
  simpa using hgrammar.gatedAt before e after heq

/-- **No effect of a build gets around the gate.** Whatever the surroundings answer, and however their answers change
from one request to the next: when a component is built from a template, and when it is built only if it is to be
built at all, every write and every evaluation comes right after the check that allows it, no check is made for
anything else, and a check that does not pass ends the build with its violation. -/
theorem build_gated {σ : Type} (handle : Program.Handler BuildRequest.Answer σ) (s : σ) (t : Template) :
    Gated t (Program.trace handle t.instantiate s).2 (Program.trace handle t.instantiate s).1 ∧
      Gated t (Program.trace handle t.component? s).2 (Program.trace handle t.component? s).1 :=
  ⟨(guarded_instantiate t (Template.Within.refl t) []).gated handle s, (guarded_component t []).gated handle s⟩

end PageTemplates
