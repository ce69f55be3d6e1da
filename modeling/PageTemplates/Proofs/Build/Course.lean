import PageTemplates.Proofs.Build.Provenance
import PageTemplates.Proofs.Program.Asked

/-!
# The course of a setter

Applying a setter is a course of requests of its own and of builds of the objects that it holds, each of which is built
once and in the order in which they are held (`Course`). A course may break off: in the build of an object, or in
between. In this the statements here differ from those about successful runs (`Site.Steps`).

Which requests of its own an assignment may put is said once, by `Site.Puts`; everything about what is written, bound
or evaluated follows from `follows_assign`, and, where an expression comes first, from `resolves_of_runs`. A build that
succeeds has the builds of all templates inside it as stretches (`exists_built_of_within`).
-/

namespace PageTemplates

open Program (Runs)

/-! ## §1 Courses -/

/-- Requests of a certain kind, among which objects are built one after the other. -/
inductive Course {α : Type} (own : BuildRequest → Prop) : List Nested → Except Error α → List BuildEvent → Prop where
  | done (a : α) : Course own [] (.ok a) []
  | failed (objects : List Nested) (e : Error) : Course own objects (.error e) []
  | own {objects : List Nested} {result : Except Error α} {e : BuildEvent} {rest : List BuildEvent} (h : own e.request)
      (hrest : Course own objects result rest) : Course own objects result (e :: rest)
  | built {n : Nested} {i : Instance} {objects : List Nested} {result : Except Error α} {first rest : List BuildEvent}
      (h : Runs n.build first (.ok i)) (hrest : Course own objects result rest) :
      Course own (n :: objects) result (first ++ rest)
  /-- Nothing comes after an object that cannot be built. -/
  | broken {n : Nested} {e : Error} {objects : List Nested} {events : List BuildEvent}
      (h : Runs n.build events (.error e)) : Course own (n :: objects) (.error e) events

namespace Course

variable {α β : Type} {own other : BuildRequest → Prop} {objects more : List Nested}

theorem append {a : α} {result : Except Error β} {first second : List BuildEvent}
    (h : Course own objects (.ok a : Except Error α) first) (hsecond : Course own more result second) :
    Course own (objects ++ more) result (first ++ second) := by
  -- the induction is on the first course, which has not broken off because its result is a success
  generalize hresult : (Except.ok a : Except Error α) = r at h
  induction h with
  | done _ => exact hsecond
  | own h _ ih => exact .own h (ih hresult)
  | built h _ ih =>
    rw [List.append_assoc]
    exact .built h (ih hresult)
  | failed | broken => cases hresult

theorem of_error {e : Error} {events : List BuildEvent} (more : List Nested)
    (h : Course own objects (.error e : Except Error α) events) :
    Course own (objects ++ more) (.error e : Except Error β) events := by
  generalize hresult : (Except.error e : Except Error α) = r at h
  induction h with
  | done _ => cases hresult
  | failed objects _ =>
    -- what is still to be built is not built, and that is true of everything that would have come later
    cases hresult
    exact .failed _ e
  | own h _ ih => exact .own h (ih hresult)
  | built h _ ih => exact .built h (ih hresult)
  | broken h =>
    cases hresult
    exact .broken h

/-- Every request of a course is one of its own, or one of the build of an object. -/
theorem forall_request {P : BuildRequest → Prop} {result : Except Error α} {events : List BuildEvent}
    (h : Course own objects result events) (hown : ∀ r, own r → P r)
    (hobjects : ∀ n ∈ objects, Program.Asks P n.build) : ∀ e ∈ events, P e.request := by
  induction h with
  | done _ => simp
  | failed _ _ => simp
  | own h _ ih => exact List.forall_mem_cons.mpr ⟨hown _ h, ih hobjects⟩
  | built h _ ih =>
    obtain ⟨hfirst, hrest⟩ := List.forall_mem_cons.mp hobjects
    exact List.forall_mem_append.mpr ⟨hfirst _ _ h, ih hrest⟩
  | broken h => exact (List.forall_mem_cons.mp hobjects).1 _ _ h

/-- Each object is built in a stretch of a course that has not broken off. -/
theorem exists_built {a : α} {events : List BuildEvent} (h : Course own objects (.ok a) events) :
    ∀ n ∈ objects, ∃ built i, built <:+: events ∧ Runs n.build built (.ok i) := by
  generalize hresult : (Except.ok a : Except Error α) = result at h
  induction h with
  | done _ => simp
  | own _ _ ih =>
    intro n hn
    obtain ⟨built, i, hbuilt, hrun⟩ := ih hresult n hn
    exact ⟨built, i, hbuilt.trans (List.suffix_cons _ _).isInfix, hrun⟩
  | built h _ ih =>
    refine List.forall_mem_cons.mpr ⟨⟨_, _, (List.prefix_append _ _).isInfix, h⟩, fun n hn => ?_⟩
    obtain ⟨built, i, hbuilt, hrun⟩ := ih hresult n hn
    exact ⟨built, i, hbuilt.trans (List.suffix_append _ _).isInfix, hrun⟩
  | failed | broken => cases hresult

end Course

/-- All runs are such courses. -/
def Follows {α : Type} (own : BuildRequest → Prop) (objects : List Nested) (p : Build α) : Prop :=
  ∀ events result, Runs p events result → Course own objects result events

namespace Follows

variable {α β ε : Type} {own : BuildRequest → Prop} {objects more : List Nested}

theorem pure (a : α) : Follows own [] (pure a : Build α) := by
  intro events result h
  obtain ⟨rfl, rfl⟩ := Program.runs_pure_except.mp h
  exact .done a

theorem fail (objects : List Nested) (e : Error) : Follows own objects (Build.fail e : Build α) := by
  intro events result h
  obtain ⟨rfl, rfl⟩ := Program.runs_done.mp h
  exact .failed objects e

theorem bind {p : Build α} {f : α → Build β} (hp : Follows own objects p)
    (hf : ∀ a first, Runs p first (.ok a) → Follows own more (f a)) : Follows own (objects ++ more) (p >>= f) := by
  intro events result h
  rcases Program.runs_bind_except.mp h with ⟨e, rfl, hrun⟩ | ⟨a, first, second, rfl, hfirst, hsecond⟩
  · exact (hp _ _ hrun).of_error more
  · exact (hp _ _ hfirst).append (hf a first hfirst _ _ hsecond)

/-- What comes after something that builds no object. -/
theorem next {p : Build α} {f : α → Build β} (hp : Follows own [] p) (hf : ∀ a, Follows own objects (f a)) :
    Follows own objects (p >>= f) := hp.bind fun a _ _ => hf a

theorem ask {r : BuildRequest} (h : own r) : Follows own [] (Build.ask r) := by
  intro events result hrun
  obtain ⟨answer, rfl, rfl⟩ := runs_buildAsk.mp hrun
  exact .own h (.done _)

theorem askOr {r : BuildRequest} {h : r.Answer = Except ε α} {cause : ε → Error} (hr : own r) :
    Follows own [] (Build.askOr r h cause) := by
  intro events result hrun
  obtain ⟨answer, rfl, rfl⟩ := runs_askOr.mp hrun
  refine .own hr ?_
  -- the request may have failed, and nothing follows either way
  cases (h ▸ answer : Except ε α) with
  | error e => exact .failed [] _
  | ok a => exact .done a

theorem build (n : Nested) : Follows own [n] n.build := by
  intro events result h
  cases result with
  | error e => exact .broken h
  | ok i => simpa using Course.built h (.done i)

/-- What all requests of its own satisfy is satisfied by all requests, if it is in the builds of the objects. -/
theorem asks {P : BuildRequest → Prop} {p : Build α} (h : Follows own objects p) (hown : ∀ r, own r → P r)
    (hobjects : ∀ n ∈ objects, Program.Asks P n.build) : Program.Asks P p :=
  fun events result hrun => (h events result hrun).forall_request hown hobjects

end Follows

/-! ## §2 Assignments -/

/-- A write that an assignment may make on the component. -/
inductive Assignment.Writes {τ : Type} : Assignment τ → Write → Prop where
  | scalar (name : String) (v : Value) (type : ValueType) : Writes (.scalar name v type) (.property name v)
  | id (text : String) : Writes (.id text) (.id text)
  | rendered (flag : Bool) : Writes (.rendered flag) (.rendered flag)
  | object (name : String) (t : τ) (h : Handle) : Writes (.object name t) (.property name (.object h))
  | item {name addMethod : String} {items : List (Item τ)} {v : Value} (h : .value v ∈ items) :
      Writes (.collection name addMethod items) (.item addMethod v)
  | builtItem {name addMethod : String} {items : List (Item τ)} {t : τ} (hitem : .object t ∈ items) (h : Handle) :
      Writes (.collection name addMethod items) (.item addMethod (.object h))
  | callable (name : String) (source : CallableSource τ) (c : Callable) : Writes (.method name source) (.callable name c)

/-- A request of an assignment that does not belong to the build of an object that it holds. -/
inductive Site.Puts (s : Site) (a : Assignment Nested) : BuildRequest → Prop where
  | check (c : Check) : Puts s a (.check c)
  | finish (i : Instance) : Puts s a (.finish i)
  | yielded (i : Instance) : Puts s a (.yielded i)
  | wireOwner (c : Callable) (owner : Owner) : Puts s a (.wireOwner c owner)
  | wireComponent (c : Callable) (i : Instance) : Puts s a (.wireComponent c i)
  | bindCallable {name expression : String} (h : a = .method name (.expression expression)) :
      Puts s a (.bindCallable expression)
  | write {w : Write} (h : a.Writes w) : Puts s a (.write s.component w)

namespace Site

variable {s : Site} {a : Assignment Nested} {name : String}

theorem follows_writeChecked {shown : Value} {w : Write} (h : a.Writes w) :
    Follows (s.Puts a) [] (s.writeChecked name shown w) :=
  Follows.next (Follows.askOr (.check _)) fun _ => Follows.askOr (.write h)

theorem follows_itemValue (item : Item Nested) : Follows (s.Puts a) item.nested (itemValue item) := by
  cases item with
  | value v => exact Follows.pure v
  | object n =>
    apply (Follows.build n).bind
    intro i _ _
    exact Follows.next (Follows.ask (.finish i)) fun h => Follows.pure _

theorem runs_itemValue {item : Item Nested} {v : Value} {events : List BuildEvent}
    (h : Runs (itemValue item) events (.ok v)) : item = .value v ∨ ∃ n handle, item = .object n ∧ v = .object handle := by
  cases item with
  | value w =>
    obtain ⟨-, hv⟩ := Program.runs_pure_except.mp h
    cases hv
    exact .inl rfl
  | object n =>
    obtain ⟨i, _, _, -, -, hrest⟩ := Program.runs_bind_ok h
    obtain ⟨handle, _, _, -, -, hdone⟩ := Program.runs_bind_ok hrest
    obtain ⟨-, hv⟩ := Program.runs_pure_except.mp hdone
    cases hv
    exact .inr ⟨n, handle, rfl, rfl⟩

/-- Of a collection some elements are still to be added. -/
theorem follows_addItems {addMethod : String} {items rest : List (Item Nested)} (hsub : ∀ item ∈ rest, item ∈ items) :
    Follows (s.Puts (.collection name addMethod items)) (rest.flatMap Item.nested) (s.addItems name addMethod rest) := by
  induction rest with
  | nil => exact Follows.pure ()
  | cons item rest ih =>
    obtain ⟨hitem, hrest⟩ := List.forall_mem_cons.mp hsub
    rw [List.flatMap_cons, addItems]
    apply (follows_itemValue item).bind
    intro v first hvalue
    refine Follows.next (follows_writeChecked ?_) fun _ => ih hrest
    -- the value that is added is the element, or the object that the element was built to
    rcases runs_itemValue hvalue with rfl | ⟨n, handle, rfl, rfl⟩
    · exact .item hitem
    · exact .builtItem hitem handle

theorem follows_callableOf (source : CallableSource Nested) :
    Follows (s.Puts (.method name source)) source.nested (callableOf name source) := by
  cases source with
  | expression e => exact Follows.askOr (h := rfl) (.bindCallable rfl)
  | ready c => exact Follows.pure c
  | object n =>
    apply (Follows.build n).bind
    intro i _ _
    refine Follows.next (Follows.ask (.yielded i)) fun answer => ?_
    cases answer with
    | none => exact Follows.fail [] _
    | some c => exact Follows.pure c

/-- An assignment puts its own requests, and builds the objects that it holds. -/
theorem follows_assign (s : Site) (a : Assignment Nested) : Follows (s.Puts a) a.nested (s.assign a) := by
  cases a with
  | scalar name v type => exact follows_writeChecked (.scalar name v type)
  | id text => exact follows_writeChecked (.id text)
  | rendered flag => exact follows_writeChecked (.rendered flag)
  | object name n =>
    apply (Follows.build n).bind
    intro i _ _
    exact Follows.next (Follows.ask (.finish i)) fun h => follows_writeChecked (.object name n h)
  | collection name addMethod items => exact follows_addItems fun _ h => h
  | method name source =>
    -- once there is a callable, no more objects are built
    rw [← List.append_nil (Assignment.nested _)]
    apply (follows_callableOf source).bind
    intro c _ _
    refine Follows.next (Follows.next (Follows.askOr (.wireOwner _ _)) fun _ => Follows.pure _) fun c₁ => ?_
    refine Follows.next (Follows.next (Follows.askOr (.wireComponent _ _)) fun _ => Follows.pure _) fun c₂ => ?_
    exact Follows.next (Follows.askOr (.check _)) fun _ => Follows.askOr (.write (.callable name source c₂))

end Site

/-- Nesting programs in the place of templates does not change what may be written. -/
theorem writes_of_nestAssignment {a : Assignment Template} {w : Write} (h : (Template.nestAssignment a).Writes w) :
    a.Writes w := by
  cases a with
  | scalar name v type =>
    cases h
    exact .scalar name v type
  | id text =>
    cases h
    exact .id text
  | rendered flag =>
    cases h
    exact .rendered flag
  | object name t =>
    cases h with
    | object _ _ handle => exact .object name t handle
  | method name source =>
    cases h with
    | callable _ _ c => exact .callable name source c
  | collection name addMethod items =>
    rw [Template.nestAssignment, Template.nestItems_eq_map] at h
    -- an element with a program is an element with a template, and a value stays a value
    cases h with
    | item hitem =>
      obtain ⟨item, hmem, hitem⟩ := List.mem_map.mp hitem
      cases item <;> cases hitem
      exact .item hmem
    | builtItem hitem handle =>
      obtain ⟨item, hmem, hitem⟩ := List.mem_map.mp hitem
      cases item <;> cases hitem
      exact .builtItem hmem handle

/-! ## §3 Setters with an expression -/

/-- A request of a run-time setter. -/
inductive Site.Binds (s : Site) (name e : String) (type : ValueType) : BuildRequest → Prop where
  | bindValue : Binds s name e type (.bindValue e type)
  | check (c : Check) : Binds s name e type (.check c)
  | write (b : LiveValue) : Binds s name e type (.write s.component (.liveValue name b))

theorem Site.follows_runTime (s : Site) (name e : String) (type : ValueType) :
    Follows (s.Binds name e type) [] (s.apply (.runTime name e type)) := by
  refine Follows.next (Follows.askOr (h := rfl) .bindValue) fun b => ?_
  exact Follows.next (Follows.askOr (.check _)) fun _ => Follows.askOr (.write b)

/-- An expression is evaluated. -/
def evaluatedAs (expression : String) (answer : Except EvaluationError Value) : BuildEvent :=
  ⟨.evaluate expression, answer⟩

@[simp] theorem evaluatedAs_inj {e : String} {a b : Except EvaluationError Value} :
    evaluatedAs e a = evaluatedAs e b ↔ a = b := by
  constructor
  · intro h
    cases h
    rfl
  · rintro rfl
    rfl

@[simp] theorem evaluatedAs_ne_passed {e : String} {a : Except EvaluationError Value} {c : Check} :
    evaluatedAs e a ≠ passed c := nofun

@[simp] theorem evaluatedAs_ne_refused {e : String} {a : Except EvaluationError Value} {c : Check} {v : Violation} :
    evaluatedAs e a ≠ refused c v := nofun

/-- What may come of a setter whose expression is evaluated. Only a value that the factory accepts is assigned. -/
inductive Site.Resolves (s : Site) (name e : String) (f : Factory) : List BuildEvent → Except Error Unit → Prop where
  | refused (v : Violation) : Resolves s name e f [refused (.loadTime s.target name e) v] (.error (.security v))
  | failed (err : EvaluationError) :
      Resolves s name e f [passed (.loadTime s.target name e), evaluatedAs e (.error err)]
        (.error (.bindingResolution name e err.message))
  | unfit {v : Value} {err : Error} (h : (f.assignValue v : Except Error (Assignment Nested)) = .error err) :
      Resolves s name e f [passed (.loadTime s.target name e), evaluatedAs e (.ok v)]
        (.error (.bindingResolution name e err.message))
  | assigned {v : Value} {a : Assignment Nested} {rest : List BuildEvent} {result : Except Error Unit}
      (h : f.assignValue v = .ok a) (hrun : Runs (s.assign a) rest result) :
      Resolves s name e f (passed (.loadTime s.target name e) :: evaluatedAs e (.ok v) :: rest) result

theorem Site.resolves_of_runs {s : Site} {name e : String} {f : Factory} {events : List BuildEvent}
    {result : Except Error Unit} (h : Runs (s.apply (.loadTime name e f)) events result) :
    s.Resolves name e f events result := by
  rcases Program.runs_bind_except.mp h with ⟨err, rfl, hcheck⟩ | ⟨_, first, others, rfl, hcheck, hothers⟩
  · -- nothing is evaluated if the check does not pass
    rcases runs_check hcheck with ⟨-, hok⟩ | ⟨v, rfl, herror⟩
    · cases hok
    · cases herror
      exact .refused v
  rcases runs_check hcheck with ⟨rfl, -⟩ | ⟨v, -, herror⟩
  case inr => cases herror
  rcases Program.runs_bind_except.mp hothers with ⟨err, rfl, hrun⟩ | ⟨v, second, third, rfl, hrun, hrest⟩
  · -- the expression has no value
    obtain ⟨answer, rfl, hanswer⟩ := runs_askOr.mp hrun
    cases hcase : (answer : Except EvaluationError Value) with
    | error failure =>
      subst hcase
      cases hanswer
      exact .failed failure
    | ok v =>
      subst hcase
      cases hanswer
  · rw [runs_askOr_ok hrun]
    -- the factory is asked before anything else is
    cases hvalue : (f.assignValue v : Except Error (Assignment Nested)) with
    | error err =>
      simp only [resolved, hvalue] at hrest
      rcases Program.runs_bind_except.mp hrest with ⟨_, rfl, hfail⟩ | ⟨_, _, _, -, hfail, -⟩
      · obtain ⟨rfl, hresult⟩ := Program.runs_done.mp hfail
        cases hresult
        exact .unfit hvalue
      · cases (Program.runs_done.mp hfail).2
    | ok a =>
      simp only [resolved, hvalue] at hrest
      exact .assigned hvalue hrest

/-- What is made of a value holds no objects, so that all requests of its assignment are its own. -/
theorem Site.puts_of_assignValue {s : Site} {f : Factory} {v : Value} {a : Assignment Nested} {events : List BuildEvent}
    {result : Except Error Unit} (hvalue : f.assignValue v = .ok a) (h : Runs (s.assign a) events result) :
    ∀ e ∈ events, s.Puts a e.request := by
  have hcourse := s.follows_assign a _ _ h
  rw [(Factory.assignValue_spec hvalue).1] at hcourse
  exact hcourse.forall_request (fun _ hr => hr) (by simp)

/-! ## §4 Builds inside a build -/

/-- Each object that a setter holds is built in a stretch of its part. -/
theorem exists_built_of_apply {s : Site} {setter : Setter Template} {part : List BuildEvent}
    (h : Runs (s.apply (Template.nestSetter setter)) part (.ok ())) {u : Template} (hu : u ∈ setter.nested) :
    ∃ built j, built <:+: part ∧ Runs u.instantiate built (.ok j) := by
  cases setter with
  | assign a =>
    have hcourse := s.follows_assign _ _ _ h
    rw [Template.nested_nestAssignment] at hcourse
    exact hcourse.exists_built _ (List.mem_map_of_mem hu)
  | loadTime | runTime | loaded => cases hu

/-- Each template inside a template is built in a stretch of its build. -/
theorem exists_built_of_within {t u : Template} (hu : t.Within u) {i : Instance} {events : List BuildEvent}
    (h : Runs t.instantiate events (.ok i)) : ∃ built j, built <:+: events ∧ Runs u.instantiate built (.ok j) := by
  induction hu using Relation.ReflTransGen.head_induction_on generalizing i events with
  | refl => exact ⟨events, i, List.infix_rfl, h⟩
  | @head outer inner hnested _ ih =>
    obtain ⟨parts, wiring, rfl, hparts, -⟩ := runs_instantiate h
    obtain ⟨setter, hsetter, hu⟩ := List.mem_flatMap.mp hnested
    obtain ⟨k, hk, rfl⟩ := List.mem_iff_getElem.mp hsetter
    have hlength : k < parts.length := hparts.length_eq ▸ hk
    obtain ⟨first, j, hfirst, hrun⟩ := exists_built_of_apply (hparts.get hk hlength) hu
    obtain ⟨built, j, hbuilt, hown⟩ := ih hrun
    -- a stretch of a stretch of the part of one setter
    have hflat : parts[k] <:+: parts.flatten := List.infix_of_mem_flatten (List.getElem_mem hlength)
    have hall : parts.flatten <:+: constructed outer.definition i :: (parts.flatten ++ wiring) :=
      (List.prefix_append _ _).isInfix.trans (List.suffix_cons _ _).isInfix
    exact ⟨built, j, ((hbuilt.trans hfirst).trans hflat).trans hall, hown⟩

end PageTemplates
