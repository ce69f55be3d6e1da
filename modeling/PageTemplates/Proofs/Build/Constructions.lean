import PageTemplates.Proofs.Build.Course

/-!
# What is constructed in a build

A build of a template constructs a component for the template, and then one for each template inside it
(`Template.parts`), in the order of the setters, up to where the build broke off (`constructs_instantiate`). Whether the
template is to be built at all is found out without constructing anything (`constructions_of_isLoaded`).

Setters have objects built, and construct nothing else. So this is about courses (`Course.constructions_spec`), and an
induction over nested templates.
-/

namespace PageTemplates

open Program (Runs)

/-! ## §1 What is constructed -/

/-- The definition that a component is constructed for. -/
def constructedFor? : BuildEvent → Option Definition
  | ⟨.construct d, _⟩ => some d
  | _ => none

/-- The definitions that components are constructed for, in order. -/
def constructions (events : List BuildEvent) : List Definition := events.filterMap constructedFor?

@[simp] theorem constructions_nil : constructions [] = [] := rfl

@[simp] theorem constructions_append (first second : List BuildEvent) :
    constructions (first ++ second) = constructions first ++ constructions second := List.filterMap_append

def BuildRequest.ConstructsNothing (r : BuildRequest) : Prop := ∀ d, r ≠ .construct d

/-- The request is put to the gate or to the evaluator. -/
inductive BuildRequest.IsQuestion : BuildRequest → Prop where
  | check (c : Check) : IsQuestion (.check c)
  | evaluate (expression : String) : IsQuestion (.evaluate expression)

theorem constructions_cons_of_nothing {e : BuildEvent} (h : e.request.ConstructsNothing) (rest : List BuildEvent) :
    constructions (e :: rest) = constructions rest := by
  obtain ⟨r, answer⟩ := e
  cases r with
  | construct d => exact absurd rfl (h d)
  | _ => rfl

/-- In each run of a program components are constructed for some definitions, one after the other. If the run fails the
last of them may be missing. -/
def Constructs {α : Type} (p : Build α) (ds : List Definition) : Prop :=
  ∀ events result, Runs p events result → constructions events <+: ds ∧ (result.isOk → constructions events = ds)

/-! ## §2 Templates inside a template -/

namespace Template

/-- A template, followed by all templates inside it, in the order in which they are built. -/
def parts (t : Template) : List Template := t :: t.nested.attach.flatMap fun u => u.1.parts
termination_by sizeOf t
decreasing_by exact sizeOf_lt_of_mem_nested u.2

theorem parts_eq (t : Template) : t.parts = t :: t.nested.flatMap parts := by
  rw [parts, ← List.flatMap_map, List.attach_map_subtype_val]

/-- The parts of a template are those within it. -/
theorem mem_parts {t u : Template} : u ∈ t.parts ↔ t.Within u := by
  constructor
  · -- one way over nested templates, the other along the way that leads inside
    induction t using nested_induction with
    | step t ih =>
      intro hu
      rw [parts_eq, List.mem_cons] at hu
      rcases hu with rfl | hu
      · exact .refl u
      · obtain ⟨v, hv, hu⟩ := List.mem_flatMap.mp hu
        exact Relation.ReflTransGen.head hv (ih v hv hu)
  · intro hu
    induction hu using Relation.ReflTransGen.head_induction_on with
    | refl =>
      rw [parts_eq]
      exact List.mem_cons_self
    | head hnested _ ih =>
      rw [parts_eq]
      exact List.mem_cons_of_mem _ (List.mem_flatMap.mpr ⟨_, hnested, ih⟩)

end Template

/-! ## §3 Setters -/

theorem Course.mono {α : Type} {own other : BuildRequest → Prop} {objects : List Nested} {result : Except Error α}
    {events : List BuildEvent} (h : Course own objects result events) (hsub : ∀ r, own r → other r) :
    Course other objects result events := by
  induction h with
  | done a => exact .done a
  | failed objects e => exact .failed objects e
  | own h _ ih => exact .own (hsub _ h) ih
  | built h _ ih => exact .built h ih
  | broken h => exact .broken h

/-- In a course that constructs nothing of its own, everything is constructed in the builds of the objects. -/
theorem Course.constructions_spec {α : Type} {own : BuildRequest → Prop} (hown : ∀ r, own r → r.ConstructsNothing)
    {ts : List Template} (hts : ∀ t ∈ ts, Constructs t.instantiate (t.parts.map Template.definition))
    {result : Except Error α} {events : List BuildEvent} (h : Course own (ts.map Template.toNested) result events) :
    constructions events <+: (ts.flatMap Template.parts).map Template.definition ∧
      (result.isOk → constructions events = (ts.flatMap Template.parts).map Template.definition) := by
  -- by induction on the course; its objects are the templates that are still to be built
  generalize hobjects : ts.map Template.toNested = objects at h
  induction h generalizing ts with
  | done a =>
    obtain rfl := List.map_eq_nil_iff.mp hobjects
    exact ⟨List.prefix_rfl, fun _ => rfl⟩
  | failed objects e =>
    refine ⟨?_, nofun⟩
    exact List.nil_prefix
  | own h _ ih =>
    rw [constructions_cons_of_nothing (hown _ h)]
    exact ih hts hobjects
  | built h _ ih =>
    obtain ⟨t, rest, rfl, rfl, rfl⟩ := List.map_eq_cons_iff.mp hobjects
    obtain ⟨ht, hrest⟩ := List.forall_mem_cons.mp hts
    -- the build of this object has succeeded, so nothing of it is missing
    have hbuilt := (ht _ _ h).2 rfl
    obtain ⟨hbegins, hall⟩ := ih hrest rfl
    rw [constructions_append, hbuilt, List.flatMap_cons, List.map_append]
    exact ⟨(List.prefix_append_right_inj _).mpr hbegins, fun hok => by rw [hall hok]⟩
  | broken h =>
    obtain ⟨t, rest, rfl, rfl, rfl⟩ := List.map_eq_cons_iff.mp hobjects
    -- it has not, and the course breaks off with it
    have hbroken := (hts t List.mem_cons_self _ _ h).1
    rw [List.flatMap_cons, List.map_append]
    exact ⟨hbroken.trans (List.prefix_append _ _), nofun⟩

theorem Follows.mono {α : Type} {own other : BuildRequest → Prop} {objects : List Nested} {p : Build α}
    (h : Follows own objects p) (hsub : ∀ r, own r → other r) : Follows other objects p :=
  fun events result hrun => (h events result hrun).mono hsub

namespace Site

variable {s : Site}

theorem Puts.constructsNothing {a : Assignment Nested} {r : BuildRequest} (h : s.Puts a r) : r.ConstructsNothing := by
  cases h <;> exact nofun

/-- A setter constructs nothing but the objects that it holds. -/
theorem follows_apply (s : Site) (setter : Setter Template) :
    Follows BuildRequest.ConstructsNothing (setter.nested.map Template.toNested)
      (s.apply (Template.nestSetter setter)) := by
  cases setter with
  | assign a =>
    have h := (s.follows_assign (Template.nestAssignment a)).mono fun r hr => hr.constructsNothing
    rwa [Template.nested_nestAssignment] at h
  | loadTime name e f =>
    refine Follows.next (Follows.askOr nofun) fun _ => Follows.next (Follows.askOr (h := rfl) nofun) fun v => ?_
    unfold resolved
    cases hvalue : (f.assignValue v : Except Error (Assignment Nested)) with
    | error err =>
      -- there is no assignment to go on with
      have hnone : Follows BuildRequest.ConstructsNothing [] (Build.fail (α := Assignment Nested)
          (.bindingResolution name e err.message)) := Follows.fail [] _
      have hnever : ∀ (a : Assignment Nested) (events : List BuildEvent),
          Runs (Build.fail (.bindingResolution name e err.message)) events (.ok a) →
            Follows BuildRequest.ConstructsNothing [] (s.assign a) :=
        fun a _ hrun => by cases (Program.runs_done.mp hrun).2
      exact hnone.bind hnever
    | ok a =>
      have h := (s.follows_assign a).mono fun r hr => hr.constructsNothing
      rwa [(Factory.assignValue_spec hvalue).1] at h
  | runTime name e type =>
    refine (s.follows_runTime name e type).mono fun r hr => ?_
    cases hr <;> exact nofun
  | loaded flag => exact Follows.pure ()

/-- The setters of a template construct the objects that they hold, in order. -/
theorem follows_applyAll (s : Site) (setters : List (Setter Template)) :
    Follows BuildRequest.ConstructsNothing ((setters.flatMap Setter.nested).map Template.toNested)
      (s.applyAll (setters.map Template.nestSetter)) := by
  induction setters with
  | nil => exact Follows.pure ()
  | cons setter rest ih =>
    rw [List.flatMap_cons, List.map_append]
    exact (s.follows_apply setter).bind fun _ _ _ => ih

end Site

/-! ## §4 Builds -/

namespace Template

/-- Whether a template is built is found out by a check and an evaluation at most. -/
theorem follows_isLoaded (t : Template) : Follows BuildRequest.IsQuestion [] t.isLoaded := by
  unfold isLoaded
  split
  · exact Follows.pure true
  · exact Follows.pure _
  · refine Follows.next (Follows.askOr (.check _)) fun _ => Follows.next (Follows.askOr (h := rfl) (.evaluate _)) fun v => ?_
    cases v with
    | bool b => exact Follows.pure b
    | null | int _ | double _ | text _ | list _ | object _ => exact Follows.fail [] _

theorem constructions_of_isLoaded {t : Template} {events : List BuildEvent} {result : Except Error Bool}
    (h : Runs t.isLoaded events result) : constructions events = [] := by
  have hquestions : ∀ r : BuildRequest, r.IsQuestion → r.ConstructsNothing := by
    intro r hr
    cases hr <;> exact nofun
  -- a course without objects
  have hcourse : Course BuildRequest.IsQuestion ([].map Template.toNested) result events := t.follows_isLoaded _ _ h
  have hnone : ∀ u ∈ ([] : List Template), Constructs u.instantiate (u.parts.map definition) := List.forall_mem_nil _
  exact List.prefix_nil.mp (hcourse.constructions_spec hquestions hnone).1

/-- A build constructs a component for the template and for each template inside it, whatever is said about whether they
are to be built. -/
theorem constructs_instantiate (t : Template) : Constructs t.instantiate (t.parts.map definition) := by
  induction t using nested_induction with
  | step t ih =>
    intro events result h
    rw [instantiate_eq, assemble] at h
    rcases Program.runs_bind_except.mp h with ⟨e, -, hfail⟩ | ⟨i, first, rest, rfl, hmade, hothers⟩
    · obtain ⟨_, _, hresult⟩ := runs_buildAsk.mp hfail
      cases hresult
    · -- the component of the template comes first, and the setters are applied to it
      obtain ⟨i', rfl, hi⟩ := runs_buildAsk.mp hmade
      have hcourse : Course BuildRequest.ConstructsNothing (t.nested.map toNested) result rest := by
        rw [← List.append_nil (t.nested.map toNested)]
        refine Follows.bind (Site.follows_applyAll ⟨t.owner, i⟩ t.setters) (fun _ _ _ => ?_) _ _ hothers
        -- wiring a page constructs nothing
        cases t.definition.includedPage with
        | some page => exact Follows.next (Follows.ask nofun) fun _ => Follows.pure i
        | none => exact Follows.pure i
      obtain ⟨hbegins, hall⟩ := hcourse.constructions_spec (fun _ hr => hr) ih
      have hconstructed : constructions ([⟨.construct t.definition, i'⟩] ++ rest) =
          t.definition :: constructions rest := rfl
      rw [parts_eq, hconstructed, List.map_cons]
      exact ⟨List.cons_prefix_cons.mpr ⟨rfl, hbegins⟩, fun hok => by rw [hall hok]⟩

end Template

end PageTemplates
