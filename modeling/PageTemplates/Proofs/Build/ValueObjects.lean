import PageTemplates.Host.World
import PageTemplates.Proofs.Build.Pruning
import PageTemplates.Proofs.Program.Answers

/-!
# Conditions of value objects

Whether a template is built at all is asked just before the component of a control is made (`Template.component?`). The
objects that its setters hold are built without being asked about: a value object is constructed and written into its
owner even if it is said of it that it is not to be built.

What is constructed for a control is its template followed by all templates inside it (`constructs_instantiate`). Of
these the first one is loaded, and nothing is known of the others (`buildLive_constructs`).

## Structure

- §1 says when a template is to be built in some surroundings, §2 what is constructed in the visits of a build.
-/

namespace PageTemplates

open Program (Runs Answers)

/-! ## §1 Conditions -/

/-- In some surroundings a template is to be built. -/
def Context.Loads (ctx : Context) (t : Template) : Prop := ∀ w, (ctx.run t.isLoaded w).1 = .ok true

/-- Whether a template is to be built depends on the surroundings alone. -/
theorem Context.run_isLoaded_eq (ctx : Context) (t : Template) (w w' : World) :
    (ctx.run t.isLoaded w).1 = (ctx.run t.isLoaded w').1 := by
  -- neither the gate nor the evaluator looks at the world, so that any world will do for the answers
  have hasks : Program.Asks BuildRequest.IsQuestion t.isLoaded :=
    t.follows_isLoaded.asks (fun _ hr => hr) (fun _ hn => absurd hn List.not_mem_nil)
  have hsame : ∀ r : BuildRequest, r.IsQuestion → ∀ u, (ctx.answer r w).1 = (ctx.answer r u).1 := by
    intro r hr u
    cases hr <;> rfl
  have hanswers : ∀ r : BuildRequest, r.IsQuestion → ∀ u,
      ((ctx.answer r w).1, ()) = ((ctx.answer r u).1, ()) := fun r hr u => Prod.ext (hsame r hr u) rfl
  have hrun : ∀ u, (Program.run (fun r (_ : Unit) => ((ctx.answer r w).1, ())) t.isLoaded ()).1 =
      (ctx.run t.isLoaded u).1 := fun u => congrArg Prod.fst (hasks.run_eq hanswers u)
  rw [← hrun w, hrun w']

/-! ## §2 Visits -/

namespace Visit

/-- The templates that components are constructed for in a visit. -/
def constructed (v : Visit) : List Template := v.control.template.parts.take (constructions v.events).length

variable {v : Visit}

/-- What happens in a visit in some surroundings. -/
structure ConstructsIn (ctx : Context) (v : Visit) : Prop where
  /-- Components are constructed for the template of the control and for those inside it, in order. -/
  inOrder : constructions v.events = v.constructed.map Template.definition
  /-- The template of the control comes first, and it is to be built. -/
  control : ∀ u, v.constructed.head? = some u → u = v.control.template ∧ ctx.Loads u
  /-- If the control is built then so are all templates inside its own. -/
  all : v.built?.isSome → v.constructed = v.control.template.parts
  /-- If it is not to be built then nothing is. -/
  nothing : v.Succeeds → v.built? = none → v.constructed = []

theorem Own.constructsIn (h : v.Own) {ctx : Context} {w w' : World} (hanswers : Answers ctx.answer w v.events w') :
    v.ConstructsIn ctx := by
  obtain ⟨hbegins, hall, hloaded⟩ := h.constructions_spec
  constructor
  · rw [constructed, List.map_take]
    exact List.prefix_iff_eq_take.mp hbegins
  · intro u hu
    have hne : constructions v.events ≠ [] := by
      intro hnil
      simp [constructed, hnil] at hu
    -- the first component that is constructed is that of the control, which has been asked about before
    have hhead : u = v.control.template := by
      rw [constructed, Template.parts_eq, List.head?_take] at hu
      split at hu
      · cases hu
      · exact (Option.some.inj hu).symm
    obtain ⟨condition, ⟨rest, hcondition⟩, hrun⟩ := hloaded hne
    rw [← hcondition] at hanswers
    -- the surroundings answered then as they would answer at any time
    obtain ⟨m, hasked, -⟩ := Program.answers_append.mp hanswers
    refine ⟨hhead, fun u => ?_⟩
    rw [hhead, ctx.run_isLoaded_eq _ u w]
    exact congrArg Prod.fst (Program.run_of_answers hrun hasked)
  · intro hbuilt
    rw [constructed, hall hbuilt, List.length_map, List.take_length]
  · intro hsucceeds hnone
    obtain ⟨c, condition, rfl⟩ := hsucceeds.built?_eq_none_iff.mp hnone
    have hempty : constructions (Visit.skipped c condition).events = [] := Template.constructions_of_isLoaded h
    rw [constructed, hempty]
    rfl

end Visit

/-- What is constructed when a control is built in some surroundings, seen from the visits that were made. -/
structure ConstructsLoaded (ctx : Context) (c : Control) (log : List Visit) (events : List BuildEvent)
    (result : Except Error (Option LiveNode)) : Prop where
  /-- Nothing is asked for but what the controls that are visited need themselves. -/
  own : (∀ v ∈ log, v.Own ∧ v.control ∈ c.nodes) ∧ events = log.flatMap Visit.events
  visits : ∀ v ∈ log, v.ConstructsIn ctx
  /-- Everything that is constructed is to be built, exactly if that is so of the objects that controls hold. -/
  loaded_iff : (∀ v ∈ log, ∀ u ∈ v.constructed, ctx.Loads u) ↔ ∀ v ∈ log, ∀ u ∈ v.constructed.tail, ctx.Loads u
  /-- If there is no error, these are all objects inside the controls that are built. -/
  objects : ∀ r, result = .ok r → ((∀ v ∈ log, ∀ u ∈ v.constructed, ctx.Loads u) ↔
    ∀ v ∈ log, v.built?.isSome → ∀ object ∈ v.control.template.nested, ∀ u, object.Within u → ctx.Loads u)

/-- **The condition of a control decides whether it is built, and that of an object does not.** -/
theorem buildLive_constructs (ctx : Context) (c : Control) (w : World) :
    ∃ log, ConstructsLoaded ctx c log (Program.trace ctx.answer c.buildLive w).2
      (Program.trace ctx.answer c.buildLive w).1 := by
  obtain ⟨log, hlog⟩ := c.walks_buildLive _ _ (Program.runs_trace ctx.answer c.buildLive w)
  have hanswers := Program.answers_trace ctx.answer c.buildLive w
  rw [hlog.events] at hanswers
  have hvisits : ∀ v ∈ log, v.ConstructsIn ctx := fun v hv => by
    obtain ⟨s, s', hpart⟩ := hanswers.exists_part hv
    exact (hlog.own v hv).constructsIn hpart
  -- the control of a visit is to be built in any case, so it need not be looked at
  have hiff : (∀ v ∈ log, ∀ u ∈ v.constructed, ctx.Loads u) ↔ ∀ v ∈ log, ∀ u ∈ v.constructed.tail, ctx.Loads u := by
    refine forall₂_congr fun v hv => ⟨fun h u hu => h u (List.mem_of_mem_tail hu), fun h u hu => ?_⟩
    cases hconstructed : v.constructed with
    | nil => simp [hconstructed] at hu
    | cons first rest =>
      rw [hconstructed] at hu h
      rcases List.mem_cons.mp hu with rfl | hu
      · exact ((hvisits v hv).control u (by rw [hconstructed]; rfl)).2
      · exact h u hu
  refine ⟨log, ⟨fun v hv => ⟨hlog.own v hv, ?_⟩, hlog.events⟩, hvisits, hiff, fun r hr => hiff.trans ?_⟩
  · exact hlog.within.subset (List.mem_map_of_mem hv)
  · refine forall₂_congr fun v hv => ?_
    have hsucceeds := (hlog.ok r hr).1 v hv
    cases hbuilt : v.built? with
    -- nothing was constructed for a control that was not built
    | none => simp [(hvisits v hv).nothing hsucceeds hbuilt]
    | some i =>
      rw [(hvisits v hv).all (by rw [hbuilt]; rfl), Template.parts_eq, List.tail_cons]
      constructor
      · intro h _ object hobject u hu
        exact h u (List.mem_flatMap.mpr ⟨object, hobject, Template.mem_parts.mpr hu⟩)
      · intro h u hu
        obtain ⟨object, hobject, hu⟩ := List.mem_flatMap.mp hu
        exact h rfl object hobject u (Template.mem_parts.mp hu)

/-- A converter that is not to be built. -/
def unloadedConverter : Template := { plainTemplate "converter" with loaded := some (.literal false) }

/-- A field that holds it as the value of a property. -/
def convertedField : Template :=
  { plainTemplate "field" with setters := [.assign (.object "converter" unloadedConverter)] }

/-- An object that is not to be built is constructed nevertheless, and written into its owner. -/
theorem unloadedConverter_is_built :
    let ctx := Context.bare .ofScope .empty
    let w := World.initial (.library .empty)
    let run := Program.trace ctx.answer (Control.leaf 0 convertedField).buildLive w
    (ctx.run unloadedConverter.isLoaded w).1 = .ok false ∧ run.1.isOk ∧
      constructions run.2 = [convertedField.definition, unloadedConverter.definition] ∧
      ∃ b h, ((ctx.run (Control.leaf 0 convertedField).buildLive w).2.store.get? 0) = some (.bag b) ∧
        b.properties.find? "converter" = some (.object h) ∧ h.ref = 1 := by
  refine ⟨rfl, rfl, rfl, _, _, rfl, rfl, rfl⟩

end PageTemplates
