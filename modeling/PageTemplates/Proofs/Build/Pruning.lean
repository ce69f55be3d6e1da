import PageTemplates.Build.LiveTree
import PageTemplates.Proofs.Build.Constructions
import PageTemplates.Proofs.Tree.Reached

/-!
# Building a tree is pruning it

A tree is built by visiting its controls in the order of the listing. A visit asks whether the control is to be built,
and builds its component if so; below a control that is not built nothing is visited, and a visit that fails is the last
one. What comes out is the tree without the controls that were left out and all below them (`buildLive_prunes`).

The answers of the host may change from one request to the next. So which controls are left out is not known beforehand:
it is read off the visits (`builtIn`), and the tree is then pruned by it. The component of a control is the one that its
visit has constructed for the definition of the control (`Visit.Own.exists_constructed`).

## Structure

- §1 and §2 say what is visited and what is left if it is known which controls are built (`visited`, `kept`, `pruned`).
- §3 explains a run by a list of visits (`Explains`), §4 does so for the recursion over the tree.
- §5 is about trees that can come about, in which every index belongs to one control.
-/

namespace PageTemplates

open Program (Runs)

/-! ## §1 What is visited -/

namespace Control

/-- A control and those below it, each with the indices of the controls above it, of which `above` are known. -/
def lines (above : List Nat) (c : Control) : List (List Nat × Control) :=
  (above, c) :: c.attached.attach.flatMap fun d => d.1.lines (c.index :: above)
termination_by sizeOf c
decreasing_by exact sizeOf_lt_of_mem_attached d.2

theorem lines_eq (above : List Nat) (c : Control) :
    c.lines above = (above, c) :: c.attached.flatMap (lines (c.index :: above)) := by
  rw [lines, ← List.flatMap_map, List.attach_map_subtype_val]

/-- The lines above a control are longer by what is known from the beginning. -/
theorem lines_append (above : List Nat) (c : Control) :
    c.lines above = (c.lines []).map fun x => (x.1 ++ above, x.2) := by
  induction c using attached_induction generalizing above with
  | step c ih =>
    rw [lines_eq, lines_eq [], List.map_cons, List.map_flatMap]
    -- below the control both sides know one more index, and the rest is by induction
    refine congrArg _ (List.flatMap_congr fun d hd => ?_)
    rw [ih d hd (c.index :: above), ih d hd [c.index], List.map_map]
    simp only [Function.comp_def, List.append_assoc, List.singleton_append]

theorem map_snd_lines (above : List Nat) (c : Control) : (c.lines above).map Prod.snd = c.nodes := by
  induction c using attached_induction generalizing above with
  | step c ih =>
    rw [lines_eq, nodes_eq, List.map_cons, List.map_flatMap]
    -- the lines are the listing with what is above, so that without that the listing is left
    exact congrArg _ (List.flatMap_congr fun d hd => ih d hd _)

variable (built : Nat → Option Instance)

/-- The controls for which all controls above them are built, in the order of the listing. -/
def visited (c : Control) : List Control :=
  ((c.lines []).filter fun x => x.1.all fun i => (built i).isSome).map Prod.snd

/-- The controls that are built, as all controls above them are, in the order of the listing. -/
def kept (c : Control) : List Control := (c.visited built).filter fun d => (built d.index).isSome

theorem visited_sublist (c : Control) : (c.visited built).Sublist c.nodes := by
  rw [← map_snd_lines []]
  exact List.filter_sublist.map Prod.snd

theorem visited_eq (c : Control) :
    c.visited built = c :: if (built c.index).isSome then c.attached.flatMap (visited built) else [] := by
  -- a control that is not built is above all those below it, and one that is built makes no difference
  have hbelow : ∀ d : Control, ((d.lines [c.index]).filter fun x => x.1.all fun i => (built i).isSome).map Prod.snd =
      if (built c.index).isSome then d.visited built else [] := by
    intro d
    rw [lines_append, List.filter_map, List.map_map, visited]
    split <;> simp_all [Function.comp_def]
  -- nothing is above the control itself
  rw [visited, lines_eq, List.filter_cons_of_pos (by simp), List.map_cons, List.filter_flatMap, List.map_flatMap]
  simp only [hbelow]
  split <;> simp

theorem kept_eq (c : Control) :
    c.kept built = if (built c.index).isSome then c :: c.attached.flatMap (kept built) else [] := by
  rw [kept, visited_eq, List.filter_cons]
  split
  · rw [List.filter_flatMap]
    rfl
  · rfl

/-! ## §2 What is left -/

mutual

/-- What is left of a control and all below it. -/
def pruned : Control → Option LiveNode
  | node i _ cs fs => (built i).map fun component => .node component (prunedAll cs) (prunedFacets fs)

/-- What is left of some controls. -/
def prunedAll : List Control → List LiveNode
  | [] => []
  | c :: rest => c.pruned.toList ++ prunedAll rest

/-- What is left of some facets, under the same names. -/
def prunedFacets : List (String × Control) → List (String × LiveNode)
  | [] => []
  | (name, c) :: rest => (c.pruned.map fun n => (name, n)).toList ++ prunedFacets rest

end

theorem pruned_eq_none_iff {c : Control} : c.pruned built = none ↔ built c.index = none := by
  obtain ⟨i, t, cs, fs⟩ := c
  rw [pruned, Option.map_eq_none_iff]
  rfl

theorem prunedAll_eq_flatMap (cs : List Control) :
    prunedAll built cs = cs.flatMap fun c => (c.pruned built).toList := by
  induction cs with
  | nil => rw [prunedAll, List.flatMap_nil]
  | cons c rest ih => rw [prunedAll, List.flatMap_cons, ih]

theorem map_snd_prunedFacets (fs : List (String × Control)) :
    (prunedFacets built fs).map Prod.snd = (fs.map Prod.snd).flatMap fun c => (c.pruned built).toList := by
  induction fs with
  | nil => rw [prunedFacets, List.map_nil, List.map_nil, List.flatMap_nil]
  | cons f rest ih =>
    rw [prunedFacets, List.map_append, List.map_cons, List.flatMap_cons, ih]
    cases f.2.pruned built <;> rfl

end Control

namespace LiveNode

mutual

/-- All components of a graph: one, those below its children, those below its facets. -/
def components : LiveNode → List Instance
  | node c cs fs => c :: (componentsAll cs ++ componentsFacets fs)

/-- All components of a list of graphs. -/
def componentsAll : List LiveNode → List Instance
  | [] => []
  | n :: rest => n.components ++ componentsAll rest

/-- All components of facets. -/
def componentsFacets : List (String × LiveNode) → List Instance
  | [] => []
  | (_, n) :: rest => n.components ++ componentsFacets rest

end

theorem componentsAll_eq_flatMap (ns : List LiveNode) : componentsAll ns = ns.flatMap components := by
  induction ns with
  | nil => rw [componentsAll, List.flatMap_nil]
  | cons n rest ih => rw [componentsAll, List.flatMap_cons, ih]

theorem componentsFacets_eq_flatMap (fs : List (String × LiveNode)) :
    componentsFacets fs = (fs.map Prod.snd).flatMap components := by
  induction fs with
  | nil => rw [componentsFacets, List.map_nil, List.flatMap_nil]
  | cons f rest ih => rw [componentsFacets, List.map_cons, List.flatMap_cons, ih]

mutual

theorem count_eq_length : ∀ n : LiveNode, n.count = n.components.length
  | node c cs fs => by
    rw [count, components, List.length_cons, List.length_append, countAll_eq_length cs, countFacets_eq_length fs]
    omega

theorem countAll_eq_length : ∀ ns : List LiveNode, countAll ns = (componentsAll ns).length
  | [] => by rw [countAll, componentsAll, List.length_nil]
  | n :: rest => by
    rw [countAll, componentsAll, List.length_append, count_eq_length n, countAll_eq_length rest]

theorem countFacets_eq_length : ∀ fs : List (String × LiveNode), countFacets fs = (componentsFacets fs).length
  | [] => by rw [countFacets, componentsFacets, List.length_nil]
  | (_, n) :: rest => by
    rw [countFacets, componentsFacets, List.length_append, count_eq_length n, countFacets_eq_length rest]

end

end LiveNode

/-- What is left has one component for each control that is kept, in the same order. -/
theorem Control.components_pruned (built : Nat → Option Instance) (c : Control) :
    ((c.pruned built).toList.flatMap LiveNode.components).map some = (c.kept built).map fun d => built d.index := by
  -- by induction on the tree: what is left of a control is its component and what is left of those attached to it
  induction c using Control.attached_induction with
  | step c ih =>
    obtain ⟨i, t, cs, fs⟩ := c
    rw [kept_eq, pruned]
    cases hbuilt : built i with
    | none => simp [index, hbuilt]
    | some component =>
      have hattached : (prunedAll built cs ++ (prunedFacets built fs).map Prod.snd) =
          (node i t cs fs).attached.flatMap fun c => (c.pruned built).toList := by
        rw [prunedAll_eq_flatMap, map_snd_prunedFacets, ← List.flatMap_append]
        rfl
      have hcomponents : (LiveNode.node component (prunedAll built cs) (prunedFacets built fs)).components =
          component :: ((node i t cs fs).attached.flatMap fun c => (c.pruned built).toList).flatMap
            LiveNode.components := by
        rw [LiveNode.components, LiveNode.componentsAll_eq_flatMap, LiveNode.componentsFacets_eq_flatMap,
          ← List.flatMap_append, hattached]
      rw [Option.map_some, Option.toList_some, List.flatMap_singleton, hcomponents, List.map_cons, List.flatMap_assoc,
        List.map_flatMap, List.flatMap_congr ih]
      simp [index, hbuilt, List.map_flatMap]

/-! ## §3 Visits -/

/-- A visit to a control. -/
inductive Visit where
  /-- It cannot be told whether the control is to be built. -/
  | undecided (control : Control) (condition : List BuildEvent) (e : Error)
  /-- The control is not to be built. -/
  | skipped (control : Control) (condition : List BuildEvent)
  /-- The control is to be built, and its component is made or not. -/
  | attempted (control : Control) (condition making : List BuildEvent) (outcome : Except Error Instance)

namespace Visit

def control : Visit → Control
  | undecided c .. | skipped c _ | attempted c .. => c

/-- All that is asked for in a visit. -/
def events : Visit → List BuildEvent
  | undecided _ condition _ | skipped _ condition => condition
  | attempted _ condition making _ => condition ++ making

/-- What comes out: a component, none if the control is not to be built, or an error. -/
def result : Visit → Except Error (Option Instance)
  | undecided _ _ e => .error e
  | skipped .. => .ok none
  | attempted _ _ _ outcome => outcome.map some

/-- The component that is built. -/
def built? (v : Visit) : Option Instance := v.result.toOption.join

/-- A visit asks for what its own control needs: for the condition, and for a component only if the answer is that the
control is to be built. -/
def Own : Visit → Prop
  | undecided c condition e => Runs c.template.isLoaded condition (.error e)
  | skipped c condition => Runs c.template.isLoaded condition (.ok false)
  | attempted c condition making outcome =>
    Runs c.template.isLoaded condition (.ok true) ∧ Runs c.template.instantiate making outcome

def Succeeds (v : Visit) : Prop := v.result.isOk

end Visit

/-- A visit that succeeds and builds nothing is one to a control that is not to be built. -/
theorem Visit.Succeeds.built?_eq_none_iff {v : Visit} (h : v.Succeeds) :
    v.built? = none ↔ ∃ c condition, v = .skipped c condition := by
  constructor
  · intro hbuilt
    cases v with
    | undecided c condition e => cases h
    | skipped c condition => exact ⟨c, condition, rfl⟩
    | attempted c condition making outcome =>
      cases outcome with
      | error e => cases h
      | ok i => cases hbuilt
  · rintro ⟨c, condition, rfl⟩
    rfl

namespace Visit

variable {v : Visit}

/-- What is constructed in a visit. -/
theorem Own.constructions_spec (h : v.Own) :
    constructions v.events <+: v.control.template.parts.map Template.definition ∧
      (v.built?.isSome → constructions v.events = v.control.template.parts.map Template.definition) ∧
      (constructions v.events ≠ [] → ∃ condition, condition <+: v.events ∧
        Runs v.control.template.isLoaded condition (.ok true)) := by
  -- only in an attempt is anything constructed, and there it is the instantiation of the template
  cases v with
  | undecided c condition e =>
    have hnone : constructions (Visit.undecided c condition e).events = [] := Template.constructions_of_isLoaded h
    rw [hnone]
    refine ⟨?_, nofun, fun hne => absurd rfl hne⟩
    exact List.nil_prefix
  | skipped c condition =>
    have hnone : constructions (Visit.skipped c condition).events = [] := Template.constructions_of_isLoaded h
    rw [hnone]
    refine ⟨?_, nofun, fun hne => absurd rfl hne⟩
    exact List.nil_prefix
  | attempted c condition making outcome =>
    obtain ⟨hcondition, hmaking⟩ := h
    have hsame : constructions (Visit.attempted c condition making outcome).events = constructions making := by
      rw [events, constructions_append, Template.constructions_of_isLoaded hcondition, List.nil_append]
    obtain ⟨hbegins, hall⟩ := c.template.constructs_instantiate _ _ hmaking
    rw [hsame]
    refine ⟨hbegins, fun hbuilt => hall ?_, fun _ => ⟨condition, List.prefix_append _ _, hcondition⟩⟩
    cases outcome with
    | error e => cases hbuilt
    | ok i => rfl

theorem Own.constructions_eq_nil (h : v.Own)
    (hnone : ∀ condition making outcome, v ≠ .attempted v.control condition making outcome) :
    constructions v.events = [] := by
  cases v with
  | undecided c condition e => exact Template.constructions_of_isLoaded h
  | skipped c condition => exact Template.constructions_of_isLoaded h
  | attempted c condition making outcome => exact absurd rfl (hnone condition making outcome)

/-- The component that is built in a visit is constructed for the definition of the control, before anything else is
done to build it. -/
theorem Own.exists_constructed (h : v.Own) {i : Instance} (hbuilt : v.built? = some i) :
    ∃ condition making, v.events = condition ++ constructed v.control.template.definition i :: making ∧
      constructions condition = [] := by
  cases v with
  | undecided | skipped => cases hbuilt
  | attempted c condition making outcome =>
    cases outcome with
    | error e => cases hbuilt
    | ok j =>
      obtain rfl : j = i := Option.some.inj hbuilt
      -- an instantiation begins with the construction for the definition of the template
      obtain ⟨parts, wiring, rfl, -, -⟩ := runs_instantiate h.2
      exact ⟨condition, _, rfl, Template.constructions_of_isLoaded h.1⟩

end Visit

/-- Whatever happens when the component of a control is asked for is a visit to it. -/
theorem exists_visit {c : Control} {events : List BuildEvent} {result : Except Error (Option Instance)}
    (h : Runs c.template.component? events result) :
    ∃ v : Visit, v.control = c ∧ v.Own ∧ v.events = events ∧ v.result = result := by
  unfold Template.component? at h
  -- the condition fails, or it says that the control is left out, or that it is built
  rcases Program.runs_bind_except.mp h with ⟨e, rfl, hfail⟩ | ⟨flag, first, second, rfl, hcondition, h⟩
  · exact ⟨.undecided c events e, rfl, hfail, rfl, rfl⟩
  · cases flag with
    | false =>
      obtain ⟨rfl, rfl⟩ := Program.runs_pure_except.mp h
      exact ⟨.skipped c first, rfl, hcondition, (List.append_nil _).symm, rfl⟩
    | true =>
      rcases Program.runs_bind_except.mp h with ⟨e, rfl, hfail⟩ | ⟨i, third, fourth, rfl, hmade, hdone⟩
      · exact ⟨.attempted c first second (.error e), rfl, ⟨hcondition, hfail⟩, rfl, rfl⟩
      · obtain ⟨rfl, rfl⟩ := Program.runs_pure_except.mp hdone
        exact ⟨.attempted c first third (.ok i), rfl, ⟨hcondition, hmade⟩, by rw [List.append_nil]; rfl, rfl⟩

/-- A visit is a run of asking for the component of its control. -/
theorem Visit.Own.runs {v : Visit} (h : v.Own) : Runs v.control.template.component? v.events v.result := by
  unfold Template.component?
  refine Program.runs_bind_except.mpr ?_
  -- the same cases from the visit to the run
  cases v with
  | undecided c condition e => exact .inl ⟨e, rfl, h⟩
  | skipped c condition =>
    exact .inr ⟨false, condition, [], (List.append_nil _).symm, h, Program.runs_pure_except.mpr ⟨rfl, rfl⟩⟩
  | attempted c condition making outcome =>
    refine .inr ⟨true, condition, making, rfl, h.1, Program.runs_bind_except.mpr ?_⟩
    cases outcome with
    | error e => exact .inl ⟨e, rfl, h.2⟩
    | ok i => exact .inr ⟨i, making, [], (List.append_nil _).symm, h.2, Program.runs_pure_except.mpr ⟨rfl, rfl⟩⟩

/-- Which controls are built agrees with some visits. -/
def Agrees (built : Nat → Option Instance) (log : List Visit) : Prop := ∀ v ∈ log, built v.control.index = v.built?

theorem agrees_append {built : Nat → Option Instance} {first second : List Visit} :
    Agrees built (first ++ second) ↔ Agrees built first ∧ Agrees built second := List.forall_mem_append

/-- A run is explained by visits. Of the controls `all` those in `order` are visited, up to the first visit that fails;
if none fails the result is `value`. What the order and the value are depends on which controls are built, and that is
known from the visits. -/
structure Explains {α : Type} (all : List Control) (order : (Nat → Option Instance) → List Control)
    (value : (Nat → Option Instance) → α) (log : List Visit) (events : List BuildEvent) (result : Except Error α) :
    Prop where
  own : ∀ v ∈ log, v.Own
  events : events = log.flatMap Visit.events
  within : (log.map Visit.control).Sublist all
  visits : ∀ built, Agrees built log → log.map Visit.control <+: order built
  ok : ∀ a, result = .ok a → (∀ v ∈ log, v.Succeeds) ∧
    ∀ built, Agrees built log → log.map Visit.control = order built ∧ a = value built
  error : ∀ e, result = .error e → ∃ earlier v, log = earlier ++ [v] ∧ (∀ u ∈ earlier, u.Succeeds) ∧ v.result = .error e

/-- A control comes first, and then, if it is built, what comes after it. -/
def orderAt (c : Control) (order : (Nat → Option Instance) → List Control) (built : Nat → Option Instance) :
    List Control := c :: if (built c.index).isSome then order built else []

/-- What is made of the component of a control, if it is built. -/
def valueAt {β : Type} (c : Control) (value : Instance → (Nat → Option Instance) → β) (built : Nat → Option Instance) :
    Option β := (built c.index).map fun i => value i built

section Visits

variable {β : Type} {all : List Control} {order : (Nat → Option Instance) → List Control}
  {value : Instance → (Nat → Option Instance) → β} {v : Visit} {result : Except Error (Option β)}

/-- After a visit that builds nothing there are no others. -/
theorem Explains.alone (hown : v.Own) (hbuilt : v.built? = none) (h : result = v.result.map fun _ => none) :
    Explains (v.control :: all) (orderAt v.control order) (valueAt v.control value) [v] v.events result := by
  refine ⟨List.forall_mem_singleton.mpr hown, (List.append_nil v.events).symm, ?_, ?_, ?_, ?_⟩
  · exact (List.nil_sublist all).cons_cons v.control
  · intro built _
    exact List.prefix_append [v.control] _
  · rintro a rfl
    obtain ⟨r, hr, rfl⟩ := Outcome.map_eq_ok.mp h.symm
    refine ⟨List.forall_mem_singleton.mpr (by rw [Visit.Succeeds, hr]; rfl), fun built hagrees => ?_⟩
    rw [orderAt, valueAt, hagrees v List.mem_cons_self, hbuilt]
    exact ⟨rfl, rfl⟩
  · rintro e rfl
    refine ⟨[], v, rfl, List.forall_mem_nil _, ?_⟩
    cases hv : v.result with
    | error e' =>
      rw [hv] at h
      exact congrArg _ (Except.error.inj h).symm
    | ok r =>
      rw [hv] at h
      cases h

/-- After a visit that builds a component come the others. -/
theorem Explains.after {i : Instance} {log : List Visit} {events : List BuildEvent} (hown : v.Own)
    (hv : v.result = .ok (some i)) (h : Explains all order (fun built => some (value i built)) log events result) :
    Explains (v.control :: all) (orderAt v.control order) (valueAt v.control value) (v :: log) (v.events ++ events)
      result := by
  have hsucceeds : v.Succeeds := by rw [Visit.Succeeds, hv]; rfl
  have hindex : ∀ built, Agrees built (v :: log) → built v.control.index = some i ∧ Agrees built log := by
    intro built hagrees
    rw [hagrees v List.mem_cons_self, Visit.built?, hv]
    exact ⟨rfl, fun u hu => hagrees u (List.mem_cons_of_mem _ hu)⟩
  refine ⟨List.forall_mem_cons.mpr ⟨hown, h.own⟩, ?_, h.within.cons_cons _, ?_, ?_, ?_⟩
  · rw [List.flatMap_cons, ← h.events]
  · intro built hagrees
    obtain ⟨hbuilt, htail⟩ := hindex built hagrees
    rw [orderAt, hbuilt]
    exact (List.prefix_cons_inj _).mpr (h.visits built htail)
  · rintro a rfl
    obtain ⟨hothers, hvalue⟩ := h.ok a rfl
    refine ⟨List.forall_mem_cons.mpr ⟨hsucceeds, hothers⟩, fun built hagrees => ?_⟩
    obtain ⟨hbuilt, htail⟩ := hindex built hagrees
    obtain ⟨horder, rfl⟩ := hvalue built htail
    rw [orderAt, valueAt, hbuilt, List.map_cons, horder]
    exact ⟨rfl, rfl⟩
  · rintro e rfl
    obtain ⟨earlier, u, rfl, hothers, hu⟩ := h.error e rfl
    exact ⟨v :: earlier, u, rfl, List.forall_mem_cons.mpr ⟨hsucceeds, hothers⟩, hu⟩

end Visits

/-- Every run of a build is explained by visits. -/
def Walks {α : Type} (p : Build α) (all : List Control) (order : (Nat → Option Instance) → List Control)
    (value : (Nat → Option Instance) → α) : Prop :=
  ∀ events result, Runs p events result → ∃ log, Explains all order value log events result

/-! ## §4 The recursion over the tree -/

namespace Walks

variable {α β : Type} {all more : List Control} {order later : (Nat → Option Instance) → List Control}

theorem pure (a : α) : Walks (pure a : Build α) [] (fun _ => []) fun _ => a := by
  intro events result h
  obtain ⟨rfl, rfl⟩ := Program.runs_pure_except.mp h
  refine ⟨[], List.forall_mem_nil _, rfl, .refl _, fun _ _ => List.prefix_refl _, ?_, nofun⟩
  rintro b ⟨⟩
  exact ⟨List.forall_mem_nil _, fun _ _ => ⟨rfl, rfl⟩⟩

theorem bind {p : Build α} {f : α → Build β} {first : (Nat → Option Instance) → α}
    {second : α → (Nat → Option Instance) → β} (hp : Walks p all order first)
    (hf : ∀ a, Walks (f a) more later (second a)) :
    Walks (p >>= f) (all ++ more) (fun built => order built ++ later built)
      fun built => second (first built) built := by
  intro events result h
  rcases Program.runs_bind_except.mp h with ⟨e, rfl, hfail⟩ | ⟨a, early, late, rfl, hfirst, hsecond⟩
  · -- the first part has failed, so its visits are all
    obtain ⟨log, hlog⟩ := hp _ _ hfail
    refine ⟨log, hlog.own, hlog.events, hlog.within.trans (List.sublist_append_left _ _), ?_, nofun, ?_⟩
    · intro built hbuilt
      exact (hlog.visits built hbuilt).trans (List.prefix_append _ _)
    · rintro e ⟨⟩
      exact hlog.error _ rfl
  · obtain ⟨log, hlog⟩ := hp _ _ hfirst
    obtain ⟨rest, hrest⟩ := hf a _ _ hsecond
    obtain ⟨hsucceed, hdone⟩ := hlog.ok a rfl
    refine ⟨log ++ rest, ?_, ?_, ?_, ?_, ?_, ?_⟩
    · exact List.forall_mem_append.mpr ⟨hlog.own, hrest.own⟩
    · rw [List.flatMap_append, ← hlog.events, ← hrest.events]
    · rw [List.map_append]
      exact hlog.within.append hrest.within
    · -- the first part has not failed, so it has made all its visits before the others begin
      intro built hbuilt
      obtain ⟨hearly, hlate⟩ := agrees_append.mp hbuilt
      rw [List.map_append, (hdone built hearly).1]
      exact (List.prefix_append_right_inj _).mpr (hrest.visits built hlate)
    · rintro b rfl
      obtain ⟨hothers, hvalue⟩ := hrest.ok b rfl
      refine ⟨List.forall_mem_append.mpr ⟨hsucceed, hothers⟩, fun built hbuilt => ?_⟩
      obtain ⟨hearly, hlate⟩ := agrees_append.mp hbuilt
      obtain ⟨horder, rfl⟩ := hdone built hearly
      obtain ⟨hlater, hb⟩ := hvalue built hlate
      exact ⟨by rw [List.map_append, horder, hlater], hb⟩
    · rintro e rfl
      obtain ⟨earlier, v, rfl, hothers, hv⟩ := hrest.error e rfl
      exact ⟨log ++ earlier, v, (List.append_assoc _ _ _).symm, List.forall_mem_append.mpr ⟨hsucceed, hothers⟩, hv⟩

theorem map {p : Build α} {first : (Nat → Option Instance) → α} (hp : Walks p all order first) (g : α → β) :
    Walks (p >>= fun a => Pure.pure (g a)) all order fun built => g (first built) := by
  have h := hp.bind fun a => Walks.pure (g a)
  simpa only [List.append_nil] using h

/-- A visit, and what follows it if the control is built. -/
theorem visit {c : Control} {f : Option Instance → Build (Option β)} {value : Instance → (Nat → Option Instance) → β}
    (hnone : f none = Pure.pure none)
    (hsome : ∀ i, Walks (f (some i)) all order fun built => some (value i built)) :
    Walks (c.template.component? >>= f) (c :: all) (orderAt c order) (valueAt c value) := by
  intro events result h
  -- an error ends the run with this visit, and so does a control that is left out; otherwise those below it follow
  rcases Program.runs_bind_except.mp h with ⟨e, rfl, hfail⟩ | ⟨made, early, late, rfl, hvisit, hrest⟩
  · obtain ⟨v, rfl, hown, rfl, hv⟩ := exists_visit hfail
    exact ⟨[v], .alone hown (by rw [Visit.built?, hv]; rfl) (by rw [hv]; rfl)⟩
  · obtain ⟨v, rfl, hown, rfl, hv⟩ := exists_visit hvisit
    cases made with
    | none =>
      rw [hnone] at hrest
      obtain ⟨rfl, rfl⟩ := Program.runs_pure_except.mp hrest
      rw [List.append_nil]
      exact ⟨[v], .alone hown (by rw [Visit.built?, hv]; rfl) (by rw [hv]; rfl)⟩
    | some i =>
      obtain ⟨log, hlog⟩ := hsome i _ _ hrest
      exact ⟨v :: log, hlog.after hown hv⟩

end Walks

namespace Control

/-- Controls are built one after the other, and what is left of them is put into one list. -/
theorem walks_buildLiveAll {cs : List Control}
    (h : ∀ c ∈ cs, Walks c.buildLive c.nodes (fun built => c.visited built) fun built => c.pruned built) :
    Walks (buildLiveAll cs) (cs.flatMap nodes) (fun built => cs.flatMap (visited built)) fun built =>
      prunedAll built cs := by
  induction cs with
  | nil => exact Walks.pure []
  | cons c rest ih =>
    -- one control after the other, by induction on the list
    have hrest := ih fun d hd => h d (List.mem_cons_of_mem _ hd)
    exact (h c List.mem_cons_self).bind fun built => hrest.map fun more => built.toList ++ more

/-- Facets are built in the order of their names, and what is left of them keeps its name. -/
theorem walks_buildLiveFacets {fs : List (String × Control)}
    (h : ∀ f ∈ fs, Walks f.2.buildLive f.2.nodes (fun built => f.2.visited built) fun built => f.2.pruned built) :
    Walks (buildLiveFacets fs) ((fs.map Prod.snd).flatMap nodes)
      (fun built => (fs.map Prod.snd).flatMap (visited built)) fun built => prunedFacets built fs := by
  induction fs with
  | nil => exact Walks.pure []
  | cons f rest ih =>
    have hrest := ih fun g hg => h g (List.mem_cons_of_mem _ hg)
    exact (h f List.mem_cons_self).bind fun built => hrest.map fun more =>
      (built.map fun n => (f.1, n)).toList ++ more

/-- **Building a control is visiting it and those below it**: what was asked for is what the visits asked for, and what
comes out is the control pruned by what the visits built. -/
theorem walks_buildLive (c : Control) :
    Walks c.buildLive c.nodes (fun built => c.visited built) fun built => c.pruned built := by
  induction c using attached_induction with
  | step c ih =>
    obtain ⟨i, t, cs, fs⟩ := c
    have hchildren := walks_buildLiveAll fun d (hd : d ∈ cs) => ih d (List.mem_append_left _ hd)
    have hfacets := walks_buildLiveFacets fun f (hf : f ∈ fs) =>
      ih f.2 (List.mem_append_right _ (List.mem_map_of_mem hf))
    -- if the control is built then its children are visited, and after them its facets
    have hbelow : ∀ component, Walks (do
        let built ← buildLiveAll cs
        let more ← buildLiveFacets fs
        pure (some (LiveNode.node component built more))) (cs.flatMap nodes ++ (fs.map Prod.snd).flatMap nodes)
        (fun built => cs.flatMap (visited built) ++ (fs.map Prod.snd).flatMap (visited built))
        fun built => some (.node component (prunedAll built cs) (prunedFacets built fs)) := fun component =>
      hchildren.bind fun built => hfacets.map fun more => some (LiveNode.node component built more)
    have horder : (fun built => (node i t cs fs).visited built) = orderAt (node i t cs fs) fun built =>
        cs.flatMap (visited built) ++ (fs.map Prod.snd).flatMap (visited built) := by
      funext built
      rw [visited_eq, attached, List.flatMap_append]
      rfl
    rw [nodes_eq, attached, List.flatMap_append, horder, buildLive]
    simp only [pruned]
    exact Walks.visit (c := node i t cs fs) rfl hbelow

end Control

/-! ## §5 Trees -/

/-- The component that was built for the control of an index in the course of some visits. -/
def builtIn (log : List Visit) (index : Nat) : Option Instance :=
  (log.find? fun v => v.control.index == index).bind Visit.built?

theorem agrees_builtIn {log : List Visit} (h : (log.map fun v => v.control.index).Nodup) :
    Agrees (builtIn log) log := by
  intro v hv
  -- a visit to the index is found, because there is this one
  have hfound : (log.find? fun u => u.control.index == v.control.index).isSome :=
    List.find?_isSome.mpr ⟨v, hv, beq_self_eq_true _⟩
  obtain ⟨u, hu⟩ := Option.isSome_iff_exists.mp hfound
  -- no other visit is to a control of this index
  have hindex : u.control.index = v.control.index := by simpa using List.find?_some hu
  have heq : u = v := List.inj_on_of_nodup_map h (List.mem_of_find?_eq_some hu) hv hindex
  rw [builtIn, hu, Option.bind_some, heq]

/-- What comes of building a control, seen from the visits that were made. -/
structure Prunes (c : Control) (log : List Visit) (events : List BuildEvent) (result : Except Error (Option LiveNode)) :
    Prop where
  /-- Nothing is asked for but what the controls that are visited need themselves. -/
  own : (∀ v ∈ log, v.Own) ∧ events = log.flatMap Visit.events
  /-- What is known of the controls that are visited is what their visits built. -/
  agrees : Agrees (builtIn log) log
  /-- The visits go in the order of the listing, and there are none below a control that is not built. -/
  visits : log.map Visit.control <+: c.visited (builtIn log)
  /-- If there is no error then nothing is passed over, and the result is the control pruned. -/
  ok : ∀ r, result = .ok r → (∀ v ∈ log, v.Succeeds) ∧ log.map Visit.control = c.visited (builtIn log) ∧
    r = c.pruned (builtIn log)
  /-- There is an error just if a visit fails; that visit is the last one, and its error is the result. -/
  error : ∀ e, result = .error e ↔
    ∃ earlier v, log = earlier ++ [v] ∧ (∀ u ∈ earlier, u.Succeeds) ∧ v.result = .error e
  /-- Nothing comes out just if the control itself is not to be built. -/
  skipped : result = .ok none ↔ ∃ condition, log = [.skipped c condition]
  /-- In a visit components are constructed for the control and for the objects inside its template, in order. If the
  control is built, the component that comes out is the one that is constructed first, for its own definition. -/
  constructs : ∀ v ∈ log, constructions v.events <+: v.control.template.parts.map Template.definition ∧
    ∀ i, v.built? = some i →
      constructions v.events = v.control.template.parts.map Template.definition ∧
        ∃ condition making, v.events = condition ++ constructed v.control.template.definition i :: making ∧
          constructions condition = []
  /-- Nothing is constructed for a control that is not to be built, or of which that cannot be told. -/
  constructsNothing : ∀ v ∈ log, (∀ condition making outcome, v ≠ .attempted v.control condition making outcome) →
    constructions v.events = []
  /-- What comes out has one component for each control that is kept, in the order of the listing. -/
  components : ∀ n, result = .ok (some n) →
    n.components.map some = (c.kept (builtIn log)).map (fun d => builtIn log d.index) ∧
      n.count = (c.kept (builtIn log)).length

theorem Explains.prunes {c : Control} {log : List Visit} {events : List BuildEvent}
    {result : Except Error (Option LiveNode)} (hindices : c.indices.Nodup)
    (h : Explains c.nodes (fun built => c.visited built) (fun built => c.pruned built) log events result) :
    Prunes c log events result := by
  -- indices are different and each control is visited once at most, so that a visit is found by its index
  have hagrees : Agrees (builtIn log) log := by
    refine agrees_builtIn ?_
    have hnodup := (h.within.map Control.index).nodup hindices
    rwa [List.map_map] at hnodup
  have hok : ∀ r, result = .ok r → (∀ v ∈ log, v.Succeeds) ∧ log.map Visit.control = c.visited (builtIn log) ∧
      r = c.pruned (builtIn log) := fun r hr => ⟨(h.ok r hr).1, (h.ok r hr).2 _ hagrees⟩
  have hconstructs : ∀ v ∈ log, constructions v.events <+: v.control.template.parts.map Template.definition ∧
      ∀ i, v.built? = some i → constructions v.events = v.control.template.parts.map Template.definition ∧
        ∃ condition making, v.events = condition ++ constructed v.control.template.definition i :: making ∧
          constructions condition = [] := by
    intro v hv
    obtain ⟨hbegins, hall, -⟩ := (h.own v hv).constructions_spec
    refine ⟨hbegins, fun i hbuilt => ⟨hall ?_, (h.own v hv).exists_constructed hbuilt⟩⟩
    rw [hbuilt]
    rfl
  refine ⟨⟨h.own, h.events⟩, hagrees, h.visits _ hagrees, hok, fun e => ⟨h.error e, ?_⟩, ⟨?_, ?_⟩, hconstructs,
    fun v hv => (h.own v hv).constructions_eq_nil, ?_⟩
  · -- a visit that has failed is not among the visits of a run that succeeds
    rintro ⟨earlier, v, rfl, _, hv⟩
    cases result with
    | ok r =>
      have hsucceeds := (hok r rfl).1 v (List.mem_append_right _ List.mem_cons_self)
      rw [Visit.Succeeds, hv] at hsucceeds
      cases hsucceeds
    | error e' =>
      obtain ⟨others, u, hlog, _, hu⟩ := h.error e' rfl
      obtain ⟨-, heq⟩ := List.append_inj' hlog rfl
      cases heq
      exact congrArg _ (Except.error.inj (hu.symm.trans hv))
  · -- if nothing is left then the control itself was not built, and there is no visit but its own
    intro hnone
    obtain ⟨hsucceed, hvisits, hpruned⟩ := hok none hnone
    have hleft := (Control.pruned_eq_none_iff _).mp hpruned.symm
    rw [Control.visited_eq, hleft] at hvisits
    obtain ⟨v, rfl, rfl⟩ := List.map_eq_singleton_iff.mp hvisits
    rw [hagrees v List.mem_cons_self] at hleft
    obtain ⟨c, condition, rfl⟩ := (hsucceed v List.mem_cons_self).built?_eq_none_iff.mp hleft
    exact ⟨condition, rfl⟩
  · rintro ⟨condition, rfl⟩
    cases result with
    | error e =>
      obtain ⟨earlier, v, hlog, _, hv⟩ := h.error e rfl
      obtain ⟨-, heq⟩ := List.append_inj' (show [] ++ [_] = earlier ++ [v] from hlog) rfl
      cases heq
      cases hv
    | ok r =>
      obtain ⟨-, -, rfl⟩ := hok r rfl
      exact congrArg _ ((Control.pruned_eq_none_iff _).mpr (hagrees _ List.mem_cons_self))
  · intro n hn
    obtain ⟨-, -, hpruned⟩ := hok _ hn
    have hcomponents := c.components_pruned (builtIn log)
    rw [← hpruned, Option.toList_some, List.flatMap_singleton] at hcomponents
    refine ⟨hcomponents, ?_⟩
    rw [n.count_eq_length, ← List.length_map (f := some), hcomponents, List.length_map]

/-- The indices below a control are different, because all indices of the tree are. -/
theorem Tree.Reached.nodup_indices {t : Tree} {index : Nat} {c : Control} (ht : t.Reached)
    (hc : t.get? index = some c) : c.indices.Nodup := by
  have hsub := Control.nodes_sublist_of_mem (Tree.mem_nodes_of_get? hc).1
  exact (hsub.map Control.index).nodup (ht.numbered.indices.nodup_iff.mpr List.nodup_range)

/-- Every run of building a control of a tree that can come about prunes it. -/
theorem exists_prunes {t : Tree} {index : Nat} {c : Control} (ht : t.Reached) (hc : t.get? index = some c)
    {events : List BuildEvent} {result : Except Error (Option LiveNode)} (h : Runs c.buildLive events result) :
    ∃ log, Prunes c log events result := by
  obtain ⟨log, hlog⟩ := c.walks_buildLive _ _ h
  exact ⟨log, hlog.prunes (ht.nodup_indices hc)⟩

/-- **Building a control of a tree prunes it**: whatever the host answers, building any control of a tree that can come
about visits the controls below it in the order of the listing, facets by name, and makes what is left of it when the
controls that are not to be built are taken away with all below them. -/
theorem buildLive_prunes {t : Tree} {index : Nat} {c : Control} (ht : t.Reached) (hc : t.get? index = some c) {σ : Type}
    (handle : Program.Handler BuildRequest.Answer σ) (s : σ) :
    c.indices.Nodup ∧ c.NamesOrdered ∧
      ∃ log, Prunes c log (Program.trace handle c.buildLive s).2 (Program.trace handle c.buildLive s).1 := by
  have hsub := Control.nodes_sublist_of_mem (Tree.mem_nodes_of_get? hc).1
  refine ⟨ht.nodup_indices hc, fun d hd => ht.numbered.names d (hsub.subset hd), ?_⟩
  exact exists_prunes ht hc (Program.runs_trace handle c.buildLive s)

/-- A host that gives every component the same place, answers no expression, and lets everything pass. -/
def bareHost : Program.Handler BuildRequest.Answer Unit
  | .construct d, w => (⟨0, d.componentType⟩, w)
  | .check _, w => (.ok (), w)
  | .evaluate e, w => (.error (.unresolvable e), w)
  | .bindValue e type, w => (.ok ⟨e, type⟩, w)
  | .bindCallable e, w => (.ok (.bare .scoped e), w)
  | .wireOwner c _, w => (.ok (some c), w)
  | .wireComponent c _, w => (.ok (some c), w)
  | .write .., w => (.ok (), w)
  | .yielded _, w => (none, w)
  | .finish i, w => (⟨i.ref, i.typeName, none⟩, w)
  | .wirePage .., w => ((), w)

/-- The same host, but it gives every expression one value. -/
def valueHost (v : Value) : Program.Handler BuildRequest.Answer Unit
  | .evaluate _, w => (.ok v, w)
  | r, w => bareHost r w

/-- A template of some tag without properties. -/
def plainTemplate (tag : String) : Template := .empty ⟨0, "", tag, tag, .empty, none, default⟩ 0

/-- A root with a child that is not to be built, another below that one, and a facet. -/
def partlyLoaded : Tree :=
  ⟨.node 0 (plainTemplate "view")
    [.node 1 { plainTemplate "panel" with loaded := some (.literal false) } [.leaf 2 (plainTemplate "text")] []]
    [("header", .leaf 3 (plainTemplate "text"))], 4⟩

theorem partlyLoaded_prunes :
    partlyLoaded.Reached ∧ partlyLoaded.get? 0 = some partlyLoaded.root ∧
      ∃ log n, (Program.trace bareHost partlyLoaded.root.buildLive ()).1 = .ok (some n) ∧
        Prunes partlyLoaded.root log (Program.trace bareHost partlyLoaded.root.buildLive ()).2 (.ok (some n)) ∧
        n.count = 2 := by
  -- the tree is grown step by step
  have hreached : partlyLoaded.Reached := by
    have hview := Tree.Reached.ofRoot (plainTemplate "view")
    have hpanel := hview.addChild (show Tree.addChild _ 0 (plainTemplate "panel") = .ok (1, _) from rfl)
    have hoff := hpanel.setTemplate 1 { plainTemplate "panel" with loaded := some (.literal false) }
    have htext := hoff.addChild (show Tree.addChild _ 1 (plainTemplate "text") = .ok (2, _) from rfl)
    exact htext.addFacet (show Tree.addFacet _ 0 "header" (plainTemplate "text") = .ok (3, _) from rfl)
  have hroot : partlyLoaded.get? 0 = some partlyLoaded.root := rfl
  obtain ⟨-, -, log, hlog⟩ := buildLive_prunes hreached hroot bareHost ()
  exact ⟨hreached, hroot, log, _, rfl, hlog, rfl⟩

end PageTemplates
