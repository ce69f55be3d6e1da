import PageTemplates.Proofs.Build.Gated
import Mathlib.Data.List.Forall2

/-!
# Where the effects of a build come from

A component that has been built has come about setter by setter: the requests of the build are its construction, then
one part for each setter, then the wiring of its page (`runs_instantiate`). In the part of a setter every write on the
component is for the property of the setter and has been checked as such, and everything else that is constructed
belongs to the build of an object that the setter holds (`Site.Steps`).

So each component that is constructed in a build has a build of its own inside it, and whatever is written outside that
build goes to other components (`exists_own_build`).
-/

namespace PageTemplates

open Program (Runs)

/-! ## §1 The steps of one setter -/

/-- A write that was done. -/
def written (i : Instance) (w : Write) : BuildEvent := ⟨.write i w, (.ok () : Except WriteError Unit)⟩

/-- The request has nothing to do with the gate, and constructs nothing. -/
def BuildRequest.IsPlain : BuildRequest → Prop
  | .check _ | .write .. | .evaluate _ | .construct _ => False
  | _ => True

/-- A check for a property at a site, and the write that it is made for. -/
inductive Site.Grants (s : Site) (name : String) : Check → Write → Prop where
  | property (v : Value) : Grants s name (.write s.target name v) (.property name v)
  | id (text : String) (h : name = idName) : Grants s name (.write s.target name (.text text)) (.id text)
  | rendered (flag : Bool) (h : name = renderedName) :
      Grants s name (.write s.target name (.bool flag)) (.rendered flag)
  | item (addMethod : String) (v : Value) : Grants s name (.write s.target name v) (.item addMethod v)
  | liveValue (b : LiveValue) : Grants s name (.runTime s.target name b) (.liveValue name b)
  | callable (c : Callable) : Grants s name (.method s.target name c) (.callable name c)

/-- The requests of a setter for a property that is applied with success, some objects being held by the setter. -/
inductive Site.Steps (s : Site) (name : String) (objects : List Nested) : List BuildEvent → Prop where
  | nil : Steps s name objects []
  | plain {e : BuildEvent} {rest : List BuildEvent} (h : e.request.IsPlain) (hrest : Steps s name objects rest) :
      Steps s name objects (e :: rest)
  | write {c : Check} {w : Write} {rest : List BuildEvent} (h : s.Grants name c w) (hrest : Steps s name objects rest) :
      Steps s name objects (passed c :: written s.component w :: rest)
  | evaluate {e : String} {answer : Except EvaluationError Value} {rest : List BuildEvent}
      (hrest : Steps s name objects rest) :
      Steps s name objects (passed (.loadTime s.target name e) :: ⟨.evaluate e, answer⟩ :: rest)
  /-- An object is built. -/
  | nested {n : Nested} {i : Instance} {built rest : List BuildEvent} (hn : n ∈ objects)
      (h : Runs n.build built (.ok i)) (hrest : Steps s name objects rest) : Steps s name objects (built ++ rest)

namespace Site

variable {α β ε : Type} {s : Site} {name : String} {objects : List Nested}

theorem Steps.append {first second : List BuildEvent} (h : s.Steps name objects first)
    (hsecond : s.Steps name objects second) : s.Steps name objects (first ++ second) := by
  induction h with
  | nil => exact hsecond
  | plain h _ ih => exact .plain h ih
  | write h _ ih => exact .write h ih
  | evaluate _ ih => exact .evaluate ih
  | nested hn h _ ih =>
    rw [List.append_assoc]
    exact .nested hn h ih

/-- Every successful run goes by steps for a property. -/
def Goes (s : Site) (name : String) (objects : List Nested) (p : Build α) : Prop :=
  ∀ events a, Runs p events (.ok a) → s.Steps name objects events

theorem goes_pure (a : α) : s.Goes name objects (pure a : Build α) := by
  intro events b h
  rw [(Program.runs_pure_except.mp h).1]
  exact .nil

theorem goes_fail (e : Error) : s.Goes name objects (Build.fail e : Build α) := by
  intro events a h
  cases (Program.runs_done.mp h).2

theorem Goes.bind {p : Build α} {f : α → Build β} (hp : s.Goes name objects p)
    (hf : ∀ a, s.Goes name objects (f a)) : s.Goes name objects (p >>= f) := by
  intro events b h
  obtain ⟨a, first, second, rfl, hfirst, hsecond⟩ := Program.runs_bind_ok h
  exact (hp _ _ hfirst).append (hf a _ _ hsecond)

theorem goes_ask {r : BuildRequest} (h : r.IsPlain) : s.Goes name objects (Build.ask r) := by
  intro events a hrun
  obtain ⟨answer, rfl, _⟩ := runs_buildAsk.mp hrun
  exact .plain h .nil

theorem goes_askOr {r : BuildRequest} {h : r.Answer = Except ε α} {cause : ε → Error} (hplain : r.IsPlain) :
    s.Goes name objects (Build.askOr r h cause) := by
  intro events a hrun
  obtain ⟨answer, rfl, _⟩ := runs_askOr.mp hrun
  exact .plain hplain .nil

/-- An object that a setter holds is built in one step. -/
theorem goes_nested {n : Nested} (hn : n ∈ objects) : s.Goes name objects n.build := by
  intro events i h
  have hsteps : s.Steps name objects (events ++ []) := .nested hn h .nil
  rwa [List.append_nil] at hsteps

/-- A check that is made for a write, and the write. -/
theorem goes_write {c : Check} {w : Write} (h : s.Grants name c w) :
    s.Goes name objects (Build.check c >>= fun _ => Build.write name s.component w) := by
  intro events a hrun
  obtain ⟨_, first, second, rfl, hcheck, hwrite⟩ := Program.runs_bind_ok hrun
  rcases runs_check hcheck with ⟨rfl, _⟩ | ⟨v, _, herror⟩
  · rw [runs_askOr_ok hwrite]
    exact .write h .nil
  · cases herror

theorem goes_itemValue {item : Item Nested} (hn : ∀ n ∈ item.nested, n ∈ objects) :
    s.Goes name objects (itemValue item) := by
  cases item with
  | value v => exact goes_pure v
  | object n =>
    refine (goes_nested (hn n List.mem_cons_self)).bind fun i => ?_
    exact Goes.bind (goes_ask trivial) fun h => goes_pure _

theorem goes_addItems {addMethod : String} {items : List (Item Nested)}
    (hn : ∀ n ∈ items.flatMap Item.nested, n ∈ objects) : s.Goes name objects (s.addItems name addMethod items) := by
  induction items with
  | nil => exact goes_pure ()
  | cons item rest ih =>
    rw [List.flatMap_cons, List.forall_mem_append] at hn
    rw [addItems]
    -- an object for the element is built before the element is checked
    refine (goes_itemValue hn.1).bind fun v => ?_
    exact (goes_write (.item addMethod v)).bind fun _ => ih hn.2

theorem goes_callableOf {source : CallableSource Nested} (hn : ∀ n ∈ source.nested, n ∈ objects) :
    s.Goes name objects (callableOf name source) := by
  cases source with
  | expression e => exact goes_askOr (h := rfl) trivial
  | ready c => exact goes_pure c
  | object n =>
    refine (goes_nested (hn n List.mem_cons_self)).bind fun i => ?_
    refine Goes.bind (goes_ask trivial) fun answer => ?_
    cases answer with
    | none => exact goes_fail _
    | some c => exact goes_pure c

/-- An assignment goes by steps for its property. -/
theorem goes_assign (a : Assignment Nested) : s.Goes a.name a.nested (s.assign a) := by
  cases a with
  | scalar name v type => exact goes_write (.property v)
  | id text => exact goes_write (.id text rfl)
  | rendered flag => exact goes_write (.rendered flag rfl)
  | object name n =>
    refine (goes_nested List.mem_cons_self).bind fun i => ?_
    exact Goes.bind (goes_ask trivial) fun h => goes_write (.property (.object h))
  | collection name addMethod items => exact goes_addItems fun _ hn => hn
  | method name source =>
    refine (goes_callableOf fun _ hn => hn).bind fun c => ?_
    refine Goes.bind (Goes.bind (goes_askOr trivial) fun _ => goes_pure _) fun c₁ => ?_
    refine Goes.bind (Goes.bind (goes_askOr trivial) fun _ => goes_pure _) fun c₂ => ?_
    exact goes_write (.callable c₂)

end Site

/-! ### Factories of setters -/

/-- The id and the shown flag are set for the properties of these names only. -/
structure Factory.Proper (f : Factory) : Prop where
  id : f.kind = .id → f.property = idName
  rendered : f.kind = .rendered → f.property = renderedName

/-- What a setter makes of the value of its expression is for its own property. -/
def Setter.Consistent {τ : Type} : Setter τ → Prop
  | .loadTime name _ f => f.property = name ∧ f.Proper
  | .assign _ | .runTime .. | .loaded _ => True

theorem Factory.Proper.name_assignValue {τ : Type} {f : Factory} (hf : f.Proper) {v : Value} {a : Assignment τ}
    (h : f.assignValue v = .ok a) : a.name = f.property := by
  unfold assignValue at h
  -- a factory for the id or for the shown flag makes something of that name, and all others use the name of their
  -- property
  cases hkind : f.kind with
  | id =>
    rw [hkind] at h
    cases v <;> cases h <;> exact (hf.id hkind).symm
  | rendered =>
    rw [hkind] at h
    dsimp only at h
    split at h <;> cases h
    exact (hf.rendered hkind).symm
  | scalar type =>
    rw [hkind] at h
    obtain ⟨w, _, rfl⟩ := Outcome.map_eq_ok.mp h
    rfl
  | complex =>
    rw [hkind] at h
    cases v <;> cases h
    rfl
  | collection addMethod type =>
    rw [hkind] at h
    obtain ⟨items, _, rfl⟩ := Outcome.map_eq_ok.mp h
    rfl
  | method =>
    rw [hkind] at h
    dsimp only at h
    split at h
    · cases h
      rfl
    · split at h <;> cases h
      rfl
    · cases h

theorem name_nestAssignment (a : Assignment Template) : (Template.nestAssignment a).name = a.name := by
  cases a <;> rfl

theorem Site.runs_resolved {property expression : String} {f : Factory} {v : Value} {a : Assignment Nested}
    {events : List BuildEvent} (h : Runs (resolved property expression f v) events (.ok a)) :
    events = [] ∧ f.assignValue v = .ok a := by
  unfold resolved at h
  split at h
  · rename_i b hvalue
    obtain ⟨rfl, hb⟩ := Program.runs_pure_except.mp h
    cases hb
    exact ⟨rfl, hvalue⟩
  · cases (Program.runs_done.mp h).2

/-- A setter that is applied goes by steps for its property, and builds only objects that it holds. -/
theorem Site.goes_apply (s : Site) {setter : Setter Template} (h : setter.Consistent) :
    s.Goes setter.name (setter.nested.map Template.toNested) (s.apply (Template.nestSetter setter)) := by
  cases setter with
  | assign a =>
    rw [Setter.nested, ← Template.nested_nestAssignment, Setter.name, ← name_nestAssignment]
    exact goes_assign (Template.nestAssignment a)
  | loadTime name e f =>
    obtain ⟨hname, hproper⟩ := h
    intro events result hrun
    obtain ⟨_, first, others, rfl, hcheck, hothers⟩ := Program.runs_bind_ok hrun
    obtain ⟨v, second, third, rfl, hevaluate, hrest⟩ := Program.runs_bind_ok hothers
    obtain ⟨a, fourth, fifth, rfl, hresolved, hassign⟩ := Program.runs_bind_ok hrest
    obtain ⟨rfl, hvalue⟩ := runs_resolved hresolved
    rcases runs_check hcheck with ⟨rfl, _⟩ | ⟨violation, _, herror⟩
    · obtain ⟨answer, rfl, _⟩ := runs_askOr.mp hevaluate
      -- a value holds nothing that is still to be built
      have hsteps := goes_assign (s := s) a _ _ hassign
      rw [(Factory.assignValue_spec hvalue).1, hproper.name_assignValue hvalue, hname] at hsteps
      exact .evaluate hsteps
    · cases herror
  | runTime name e type =>
    refine Goes.bind (goes_askOr (h := rfl) trivial) fun b => ?_
    exact goes_write (.liveValue b)
  | loaded flag => exact goes_pure ()

/-! ## §2 The parts of a build -/

/-- Setters that succeed have one part of the run each, in order. -/
theorem Site.runs_applyAll {s : Site} {setters : List (Setter Nested)} {events : List BuildEvent}
    (h : Runs (s.applyAll setters) events (.ok ())) :
    ∃ parts : List (List BuildEvent), events = parts.flatten ∧
      List.Forall₂ (fun setter part => Runs (s.apply setter) part (.ok ())) setters parts := by
  induction setters generalizing events with
  | nil =>
    obtain ⟨rfl, _⟩ := Program.runs_pure_except.mp h
    exact ⟨[], rfl, .nil⟩
  | cons setter rest ih =>
    rw [applyAll] at h
    obtain ⟨_, first, second, rfl, hfirst, hsecond⟩ := Program.runs_bind_ok h
    -- the parts of the others come from the rest of the run
    obtain ⟨parts, rfl, hparts⟩ := ih hsecond
    exact ⟨first :: parts, rfl, .cons hfirst hparts⟩

/-- A request that wires a page. -/
def BuildRequest.IsWiring : BuildRequest → Prop
  | .wirePage .. => True
  | _ => False

/-- A build that succeeds begins with the construction; then come the setters, one part for each, and then the page. -/
theorem runs_instantiate {t : Template} {i : Instance} {events : List BuildEvent}
    (h : Runs t.instantiate events (.ok i)) :
    ∃ parts wiring, events = constructed t.definition i :: (parts.flatten ++ wiring) ∧
      List.Forall₂ (fun setter part => Runs (Site.apply ⟨t.owner, i⟩ (Template.nestSetter setter)) part (.ok ()))
        t.setters parts ∧ ∀ e ∈ wiring, e.request.IsWiring := by
  rw [Template.instantiate_eq] at h
  unfold Template.assemble at h
  obtain ⟨j, first, others, rfl, hconstruct, hothers⟩ := Program.runs_bind_ok h
  obtain ⟨answer, rfl, hanswer⟩ := runs_buildAsk.mp hconstruct
  cases hanswer
  obtain ⟨_, second, wiring, rfl, happly, hrest⟩ := Program.runs_bind_ok hothers
  obtain ⟨parts, rfl, hparts⟩ := Site.runs_applyAll happly
  rw [List.forall₂_map_left_iff] at hparts
  -- after the setters a page is wired, or nothing is left to do
  have hwiring : i = j ∧ ∀ e ∈ wiring, e.request.IsWiring := by
    cases hpage : t.definition.includedPage with
    | none =>
      rw [hpage] at hrest
      obtain ⟨rfl, hdone⟩ := Program.runs_pure_except.mp hrest
      exact ⟨Except.ok.inj hdone, List.forall_mem_nil _⟩
    | some page =>
      rw [hpage] at hrest
      obtain ⟨_, third, last, rfl, hwire, hdone⟩ := Program.runs_bind_ok hrest
      obtain ⟨answer, rfl, _⟩ := runs_buildAsk.mp hwire
      obtain ⟨rfl, hj⟩ := Program.runs_pure_except.mp hdone
      exact ⟨Except.ok.inj hj, List.forall_mem_singleton.mpr trivial⟩
  obtain ⟨rfl, hwiring⟩ := hwiring
  exact ⟨parts, wiring, rfl, hparts, hwiring⟩

/-! ## §3 The build of each component -/

/-- All writes go to known components, or to what is constructed among the same requests. -/
def Contained (known : List Instance) (events : List BuildEvent) : Prop :=
  ∀ e ∈ events, ∀ i w, e.request = .write i w → i ∈ known ∨ ∃ d, constructed d i ∈ events

namespace Contained

variable {known : List Instance} {events others : List BuildEvent}

theorem nil : Contained known [] := fun _ he => (List.not_mem_nil he).elim

/-- Only which requests there are counts, and not their order. -/
theorem congr (h : Contained known events) (hmem : ∀ e, e ∈ others ↔ e ∈ events) : Contained known others := by
  intro e he i w hw
  refine (h e ((hmem e).mp he) i w hw).imp_right fun ⟨d, hd⟩ => ⟨d, (hmem _).mpr hd⟩

theorem append (h : Contained known events) (hothers : Contained known others) :
    Contained known (events ++ others) := by
  intro e he i w hw
  rcases List.mem_append.mp he with he | he
  · exact (h e he i w hw).imp_right fun ⟨d, hd⟩ => ⟨d, List.mem_append_left _ hd⟩
  · exact (hothers e he i w hw).imp_right fun ⟨d, hd⟩ => ⟨d, List.mem_append_right _ hd⟩

theorem flatten {parts : List (List BuildEvent)} (h : ∀ part ∈ parts, Contained known part) :
    Contained known parts.flatten := by
  induction parts with
  | nil => exact nil
  | cons part rest ih =>
    exact (h part List.mem_cons_self).append (ih fun other hother => h other (List.mem_cons_of_mem _ hother))

theorem cons {e : BuildEvent} (he : ∀ i w, e.request = .write i w → i ∈ known) (h : Contained known events) :
    Contained known (e :: events) := by
  have hfirst : Contained known [e] := fun _ hf i w hw => .inl (he i w (List.mem_singleton.mp hf ▸ hw))
  exact hfirst.append h

theorem weaken (h : Contained [] events) : Contained known events :=
  fun e he i w hw => .inr ((h e he i w hw).resolve_left List.not_mem_nil)

/-- What is constructed need not be known before. -/
theorem construct {d : Definition} {i : Instance} (h : Contained [i] events) :
    Contained [] (constructed d i :: events) := by
  intro e he j w hw
  rcases List.mem_cons.mp he with rfl | he
  · cases hw
  · rcases h e he j w hw with hj | ⟨d', hd⟩
    · exact .inr ⟨d, List.mem_singleton.mp hj ▸ List.mem_cons_self⟩
    · exact .inr ⟨d', List.mem_cons_of_mem _ hd⟩

end Contained

theorem Allows.exists_built {root : Template} {before : List BuildEvent} {c : Check} {i : Instance} {w : Write}
    (h : Allows root before c (.write i w)) : ∃ t, BuiltFor root before i t := by
  cases h <;> exact ⟨_, ‹BuiltFor _ _ _ _›⟩

/-- What needs a check comes right after a check that has passed and allows it. -/
theorem Guarded.exists_allowed {α : Type} {root : Template} {p : Build α} (h : Guarded root [] p)
    {events : List BuildEvent} {result : Except Error α} (hrun : Runs p events result) {e : BuildEvent}
    (he : e ∈ events) (hneeds : e.request.NeedsCheck) :
    ∃ before c after, events = before ++ passed c :: e :: after ∧ Allows root before c e.request := by
  obtain ⟨before, after, rfl⟩ := List.append_of_mem he
  obtain ⟨earlier, c, hbefore, hallows⟩ := ((h _ _ hrun).gatedAt before e after rfl).allowed hneeds
  rw [List.nil_append] at hbefore
  subst hbefore
  exact ⟨earlier, c, after, by rw [List.append_assoc]; rfl, hallows⟩

/-- A build that keeps the discipline of the gate writes only to what it has constructed. -/
theorem Guarded.contained {α : Type} {root : Template} {p : Build α} (h : Guarded root [] p) {events : List BuildEvent}
    {result : Except Error α} (hrun : Runs p events result) : Contained [] events := by
  intro e he i w hw
  obtain ⟨before, c, after, rfl, hallows⟩ := h.exists_allowed hrun he (by rw [hw]; trivial)
  rw [hw] at hallows
  obtain ⟨t, -, hbuilt⟩ := hallows.exists_built
  exact .inr ⟨t.definition, List.mem_append_left _ hbuilt⟩

/-- An expression is evaluated only if the check of a load-time binding has passed. -/
theorem Guarded.exists_evaluated {α : Type} {root : Template} {p : Build α} (h : Guarded root [] p)
    {events : List BuildEvent} {result : Except Error α} (hrun : Runs p events result) {e : BuildEvent}
    (he : e ∈ events) {text : String} (hrequest : e.request = .evaluate text) :
    ∃ target name, passed (.loadTime target name text) ∈ events := by
  obtain ⟨before, c, after, rfl, hallows⟩ := h.exists_allowed hrun he (by rw [hrequest]; trivial)
  rw [hrequest] at hallows
  -- an evaluation is allowed for a property or for the condition, by a check of the same expression
  cases hallows <;> exact ⟨_, _, List.mem_append_right _ List.mem_cons_self⟩

/-- What constructs nothing is not where something is constructed. -/
theorem mem_tail_of_constructed {d : Definition} {i : Instance} {e : BuildEvent} {rest : List BuildEvent}
    (h : constructed d i ∈ e :: rest) (he : ∀ d', e.request ≠ .construct d') : constructed d i ∈ rest :=
  (List.mem_cons.mp h).resolve_left fun heq => he d (heq ▸ rfl)

/-- The objects that a setter holds write only to what they have constructed themselves. -/
def ContainedObjects (objects : List Nested) : Prop :=
  ∀ n ∈ objects, ∀ built i, Runs n.build built (.ok i) → Contained [] built

/-- Templates are such objects, because the build of each keeps the discipline of the gate. -/
theorem containedObjects (ts : List Template) : ContainedObjects (ts.map Template.toNested) := by
  intro n hn built i h
  obtain ⟨u, _, rfl⟩ := List.mem_map.mp hn
  exact (guarded_instantiate u (Template.Within.refl u) []).contained h

namespace Site.Steps

variable {s : Site} {name : String} {objects : List Nested} {events : List BuildEvent}

/-- A write is on the component and has been checked, or it is on something that is constructed meanwhile. -/
theorem granted (h : s.Steps name objects events) (hobjects : ContainedObjects objects) {e : BuildEvent}
    (he : e ∈ events) {i : Instance} {w : Write} (hw : e.request = .write i w) :
    (i = s.component ∧ ∃ c, passed c ∈ events ∧ s.Grants name c w) ∨ ∃ d, constructed d i ∈ events := by
  -- what is found in the rest of the steps is found in all of them
  have lift : ∀ {rest all : List BuildEvent}, (∀ f ∈ rest, f ∈ all) →
      ((i = s.component ∧ ∃ c, passed c ∈ rest ∧ s.Grants name c w) ∨ ∃ d, constructed d i ∈ rest) →
        (i = s.component ∧ ∃ c, passed c ∈ all ∧ s.Grants name c w) ∨ ∃ d, constructed d i ∈ all := by
    intro rest all hsub
    rintro (⟨hi, c, hc, hgrants⟩ | ⟨d, hd⟩)
    · exact .inl ⟨hi, c, hsub _ hc, hgrants⟩
    · exact .inr ⟨d, hsub _ hd⟩
  -- by induction on the steps: the write is in the first step, which is that of the component or of an object, or it is
  -- in a later one
  induction h with
  | nil => cases he
  | plain h _ ih =>
    rcases List.mem_cons.mp he with rfl | he
    · rw [hw] at h
      exact h.elim
    · exact lift (fun _ hf => List.mem_cons_of_mem _ hf) (ih he)
  | write h _ ih =>
    rcases List.mem_cons.mp he with rfl | he
    · cases hw
    · rcases List.mem_cons.mp he with rfl | he
      · obtain ⟨rfl, rfl⟩ := BuildRequest.write.inj hw
        exact .inl ⟨rfl, _, List.mem_cons_self, h⟩
      · exact lift (fun _ hf => List.mem_cons_of_mem _ (List.mem_cons_of_mem _ hf)) (ih he)
  | evaluate _ ih =>
    rcases List.mem_cons.mp he with rfl | he
    · cases hw
    · rcases List.mem_cons.mp he with rfl | he
      · cases hw
      · exact lift (fun _ hf => List.mem_cons_of_mem _ (List.mem_cons_of_mem _ hf)) (ih he)
  | nested hn h _ ih =>
    rcases List.mem_append.mp he with he | he
    · have hbuilt := (hobjects _ hn _ _ h e he i w hw).resolve_left List.not_mem_nil
      exact lift (fun _ hf => List.mem_append_left _ hf) (.inr hbuilt)
    · exact lift (fun _ hf => List.mem_append_right _ hf) (ih he)

theorem contained (h : s.Steps name objects events) (hobjects : ContainedObjects objects) :
    Contained [s.component] events := fun _ he _ _ hw =>
  (h.granted hobjects he hw).imp_left fun hi => List.mem_singleton.mpr hi.1

/-- Whatever is constructed while a setter is applied is constructed in the build of an object that the setter holds. -/
theorem exists_build (h : s.Steps name objects events) (hobjects : ContainedObjects objects) {d : Definition}
    {i : Instance} (hi : constructed d i ∈ events) :
    ∃ n ∈ objects, ∃ before own after j, events = before ++ own ++ after ∧ Runs n.build own (.ok j) ∧
      constructed d i ∈ own ∧ Contained [s.component] (before ++ after) := by
  -- by induction on the steps, collecting those before and after the build in which the component is found
  induction h with
  | nil => cases hi
  | @plain e rest h _ ih =>
    rcases List.mem_cons.mp hi with rfl | hi
    · exact h.elim
    · obtain ⟨n, hn, before, own, after, j, rfl, hrun, hown, hothers⟩ := ih hi
      refine ⟨n, hn, e :: before, own, after, j, rfl, hrun, hown, .cons (fun k w hw => ?_) hothers⟩
      rw [hw] at h
      exact h.elim
  | @write c w rest _ _ ih =>
    have hi := mem_tail_of_constructed (mem_tail_of_constructed hi nofun) nofun
    obtain ⟨n, hn, before, own, after, j, rfl, hrun, hown, hothers⟩ := ih hi
    refine ⟨n, hn, passed c :: written s.component w :: before, own, after, j, rfl, hrun, hown, ?_⟩
    exact .cons nofun (.cons (fun _ _ hw => List.mem_singleton.mpr (BuildRequest.write.inj hw).1.symm) hothers)
  | @evaluate e answer rest _ ih =>
    have hi := mem_tail_of_constructed (mem_tail_of_constructed hi nofun) nofun
    obtain ⟨n, hn, before, own, after, j, rfl, hrun, hown, hothers⟩ := ih hi
    exact ⟨n, hn, passed _ :: _ :: before, own, after, j, rfl, hrun, hown, .cons nofun (.cons nofun hothers)⟩
  | @nested n j built rest hn h hrest ih =>
    -- it belongs to the object that is built next, or to one that is built later
    rcases List.mem_append.mp hi with hi | hi
    · exact ⟨n, hn, [], built, rest, j, rfl, h, hi, hrest.contained hobjects⟩
    · obtain ⟨m, hm, before, own, after, k, rfl, hrun, hown, hothers⟩ := ih hi
      refine ⟨m, hm, built ++ before, own, after, k, by simp only [List.append_assoc], hrun, hown, ?_⟩
      rw [List.append_assoc]
      exact (hobjects n hn _ _ h).weaken.append hothers

end Site.Steps

/-- All setters of a template are consistent, and those of all templates inside it. -/
def Template.Consistent (t : Template) : Prop := ∀ u, t.Within u → ∀ s ∈ u.setters, s.Consistent

theorem Template.Consistent.nested {t u : Template} (h : t.Consistent) (hu : u ∈ t.nested) : u.Consistent :=
  fun v hv => h v (Relation.ReflTransGen.head hu hv)

/-- The part of each setter goes by steps for its property. -/
theorem steps_of_mem {t : Template} {i : Instance} {parts : List (List BuildEvent)} (h : t.Consistent)
    (hparts : List.Forall₂ (fun setter part =>
      Runs (Site.apply ⟨t.owner, i⟩ (Template.nestSetter setter)) part (.ok ())) t.setters parts)
    {part : List BuildEvent} (hpart : part ∈ parts) :
    ∃ setter ∈ t.setters, Site.Steps ⟨t.owner, i⟩ setter.name (setter.nested.map Template.toNested) part := by
  -- the parts stand in the order of the setters
  obtain ⟨k, hk, rfl⟩ := List.mem_iff_getElem.mp hpart
  have hlength : k < t.setters.length := hparts.length_eq ▸ hk
  have hrun := hparts.get hlength hk
  have hmem : t.setters[k] ∈ t.setters := List.getElem_mem hlength
  exact ⟨_, hmem, Site.goes_apply _ (h t (Template.Within.refl t) _ hmem) _ _ hrun⟩

/-- **Every component has a build of its own**: whatever is constructed when a template is built is constructed at the
beginning of the build of a template inside it, and no write outside that build goes to it. -/
theorem exists_own_build {t : Template} (h : t.Consistent) {events : List BuildEvent} {i : Instance}
    (hrun : Runs t.instantiate events (.ok i)) {d : Definition} {j : Instance} (hj : constructed d j ∈ events) :
    ∃ u before own after, t.Within u ∧ u.definition = d ∧ events = before ++ own ++ after ∧
      Runs u.instantiate own (.ok j) ∧ Contained [] (before ++ after) := by
  induction t using Template.nested_induction generalizing events i with
  | step t ih =>
    obtain ⟨parts, wiring, rfl, hparts, hwiring⟩ := runs_instantiate hrun
    -- outside the build of the component that is looked for, nothing else is written to than what is known
    have hcontained : ∀ part ∈ parts, Contained [i] part := by
      intro part hpart
      obtain ⟨setter, _, hsteps⟩ := steps_of_mem h hparts hpart
      exact hsteps.contained (containedObjects _)
    have hquiet : Contained [i] wiring := by
      intro e he k w hw
      have hwired := hwiring e he
      rw [hw] at hwired
      exact hwired.elim
    rcases List.mem_cons.mp hj with heq | hj
    · -- the component of the template itself
      cases heq
      exact ⟨t, [], _, [], .refl t, rfl, (List.append_nil _).symm, hrun, .nil⟩
    · rcases List.mem_append.mp hj with hj | hj
      · -- a component of an object that some setter holds, which has been built in the part of that setter
        obtain ⟨part, hpart, hj⟩ := List.mem_flatten.mp hj
        obtain ⟨setter, hsetter, hsteps⟩ := steps_of_mem h hparts hpart
        obtain ⟨n, hn, outer, inner, later, k, rfl, hbuild, hinner, hothers⟩ :=
          hsteps.exists_build (containedObjects _) hj
        obtain ⟨u, hu, rfl⟩ := List.mem_map.mp hn
        have hnested : u ∈ t.nested := List.mem_flatMap.mpr ⟨setter, hsetter, hu⟩
        obtain ⟨v, before, own, after, hv, hd, rfl, hown, hclosed⟩ := ih u hnested (h.nested hnested) hbuild hinner
        obtain ⟨earlier, rest, rfl⟩ := List.append_of_mem hpart
        refine ⟨v, constructed t.definition i :: (earlier.flatten ++ (outer ++ before)), own,
          after ++ later ++ (rest.flatten ++ wiring), Relation.ReflTransGen.head hnested hv, hd, ?_, hown, ?_⟩
        · simp only [List.flatten_append, List.flatten_cons, List.cons_append, List.append_assoc]
        · -- what is left of all parts, put together again
          have hearlier := Contained.flatten fun p hp => hcontained p (List.mem_append_left _ hp)
          have hrest := Contained.flatten fun p hp =>
            hcontained p (List.mem_append_right _ (List.mem_cons_of_mem _ hp))
          have hall : Contained [i]
              (earlier.flatten ++ (outer ++ before) ++ (after ++ later ++ (rest.flatten ++ wiring))) := by
            refine ((hearlier.append hrest).append (hothers.append (hclosed.weaken.append hquiet))).congr fun e => ?_
            simp only [List.mem_append, or_assoc, or_left_comm, or_comm]
          exact hall.construct
      · -- wiring a page constructs nothing
        exact (hwiring _ hj).elim

end PageTemplates
