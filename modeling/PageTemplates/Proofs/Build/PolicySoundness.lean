import PageTemplates.Proofs.Build.Bags
import PageTemplates.Proofs.Build.Provenance
import PageTemplates.Proofs.Build.Pruning
import PageTemplates.Proofs.Template.Making
import PageTemplates.Security.Policy

/-!
# Policies hold in what has been built

A tree is built under a policy, of templates that were made with the factories of their properties and that begin as
empty bags. Then every component that was constructed, however deeply nested, is a bag whose contents come from the
setters of its template, part by part, and a setter whose property the policy denies has contributed nothing
(`SoundBag`). Bindings of a kind that is switched off are in no bag, and without load-time bindings no expression is
evaluated (`KeepsPolicy`, `buildLive_policy_sound`).

The argument puts together where the effects of a build come from, what a bag holds after it, and that a check which has
passed was let pass by the policy.
-/

namespace PageTemplates

open Program (Answers Event Runs)

/-! ## §1 Templates that are made of bags -/

/-- Compiling is answered with empty templates for bags, and with the factories of the properties that are asked for. -/
def AnsweredForBags : Event CompileRequest.Answer → Prop
  | ⟨.create .., answer⟩ =>
    ∀ t, answer = (.ok t : Except Error Template) → ∃ d memo, t = .empty d memo ∧ d.BuildsEmptyBag
  | ⟨.select _ _ property, answer⟩ =>
    ∀ f, answer = (.ok f : Except Error Factory) → ∃ d, Factory.ofProperty d property = .ok f

namespace Factory

/-- The two properties that every definition has are named as they should be. -/
theorem builtIn?_spec {d : Definition} {name : String} {f : Factory} (h : builtIn? d name = some f) :
    f.property = name ∧ f.Proper := by
  unfold builtIn? at h
  split at h
  · rename_i hname
    cases h
    exact ⟨hname.symm, fun _ => rfl, nofun⟩
  · split at h
    · rename_i hname
      cases h
      exact ⟨hname.symm, nofun, fun _ => rfl⟩
    · cases h

/-- No declaration makes a property the id or the shown flag. -/
theorem kindOf_spec {tag name : String} {p : Property} {kind : FactoryKind} (h : kindOf tag name p = .ok kind) :
    kind ≠ .id ∧ kind ≠ .rendered := by
  -- by the four forms of a declaration
  unfold kindOf at h
  split at h
  · cases h
    exact ⟨nofun, nofun⟩
  · cases h
    exact ⟨nofun, nofun⟩
  · cases h
    exact ⟨nofun, nofun⟩
  · split at h
    · cases h
      exact ⟨nofun, nofun⟩
    · cases h

/-- The factory of a property is for that property. -/
theorem ofProperty_spec {d : Definition} {name : String} {f : Factory} (h : ofProperty d name = .ok f) :
    f.property = name ∧ f.Proper := by
  unfold ofProperty at h
  split at h
  · rename_i g hbuiltIn
    cases h
    exact builtIn?_spec hbuiltIn
  · split at h
    · cases h
    · obtain ⟨kind, hkind, rfl⟩ := Outcome.map_eq_ok.mp h
      obtain ⟨hid, hrendered⟩ := kindOf_spec hkind
      exact ⟨rfl, fun heq => absurd heq hid, fun heq => absurd heq hrendered⟩

end Factory

/-- What a factory makes of anything is a setter of its property. -/
theorem Raw.consistent_compileWith {raw : Raw} {tag name : String} {f : Factory} {s : Setter Template}
    (hf : f.property = name ∧ f.Proper) (h : raw.compileWith tag name f = .ok s) : s.Consistent := by
  cases raw with
  | text text =>
    unfold compileWith Template.compileText at h
    dsimp only at h
    split at h
    · cases h
      exact hf
    · obtain ⟨a, _, rfl⟩ := Outcome.map_eq_ok.mp h
      exact trivial
    · split at h
      · obtain ⟨a, _, rfl⟩ := Outcome.map_eq_ok.mp h
        exact trivial
      · split at h
        · cases h
          exact trivial
        · cases h
  | value v =>
    obtain ⟨a, _, rfl⟩ := Outcome.map_eq_ok.mp h
    exact trivial
  | objects ts =>
    obtain ⟨a, _, rfl⟩ := Outcome.map_eq_ok.mp h
    exact trivial

namespace Template.Made

variable {t : Template}

/-- A template that was made is one for an empty bag, since that is how it began. -/
theorem buildsEmptyBag (h : t.Made AnsweredForBags) : t.definition.BuildsEmptyBag := by
  obtain ⟨uri, namespaceUri, tag, memo, hcreated⟩ := h.exists_created
  obtain ⟨d, memo', heq, hd⟩ := hcreated _ rfl
  have hdefinition : t.definition = d := congrArg Template.definition heq
  rwa [hdefinition]

/-- The setters of a template that was made are those of their properties, since each was compiled with the factory of
its own property. -/
theorem consistent_setters (h : t.Made AnsweredForBags) : ∀ s ∈ t.setters, s.Consistent := by
  induction h with
  | empty _ => exact List.forall_mem_nil _
  | attach _ _ hevents hs ih _ =>
    intro s hmem
    rcases mem_setters_attach hmem with rfl | hmem
    · -- a setter is a condition, or was made by the factory that was selected for it
      rcases runs_compileSetter hs with ⟨flag, rfl⟩ | ⟨f, hf, hmade⟩
      · exact trivial
      · obtain ⟨d, hd⟩ := hevents _ hf f rfl
        exact Raw.consistent_compileWith (Factory.ofProperty_spec hd) hmade
    · exact ih s hmem

theorem consistent (h : t.Made AnsweredForBags) : t.Consistent :=
  fun _ hu => (h.within hu).consistent_setters

theorem of_empty {d : Definition} (hd : d.BuildsEmptyBag) (memo : Nat) :
    (Template.empty d memo).Made AnsweredForBags := by
  have hknown : AnsweredForBags ⟨.create none "" d.tag, (.ok (.empty d memo) : Except Error Template)⟩ :=
    fun u hu => ⟨d, memo, (Except.ok.inj hu).symm, hd⟩
  exact .empty hknown

/-- A setter that is compiled for a template may be attached to it. -/
theorem attach_compiled {raw : Raw} {name : String} {f : Factory} {s : Setter Template} (h : t.Made AnsweredForBags)
    (hraw : ∀ v ∈ raw.templates, v.Made AnsweredForBags) (hname : name ≠ loadedName)
    (hf : Factory.ofProperty t.definition name = .ok f) (hs : raw.compileWith t.tag name f = .ok s) :
    (t.attach s).Made AnsweredForBags := by
  have hanswered : AnsweredForBags ⟨.select t.memo t.definition name, (.ok f : Except Error Factory)⟩ :=
    fun g hg => ⟨t.definition, Except.ok.inj hg ▸ hf⟩
  -- the only question is that for the factory
  have hselected : ∀ made : Factory → Except Error (Setter Template), made f = .ok s →
      Runs (Compile.select t.memo t.definition name >>= fun f => Compile.ofExcept (made f) : Compile _)
        [⟨.select t.memo t.definition name, (.ok f : Except Error Factory)⟩] (.ok s) :=
    fun made hmade => .ask _ _ (hmade ▸ .done _)
  have hcompiled : Runs (t.compileSetter name raw)
      [⟨.select t.memo t.definition name, (.ok f : Except Error Factory)⟩] (.ok s) := by
    cases raw with
    | text text =>
      unfold compileSetter compileTextSetter
      dsimp only
      rw [if_neg hname]
      exact hselected _ hs
    | value v | objects ts =>
      unfold compileSetter
      dsimp only
      rw [if_neg hname]
      exact hselected _ hs
  exact .attach h hraw (List.forall_mem_singleton.mpr hanswered) hcompiled

end Template.Made

/-! ## §2 What a policy lets pass -/

namespace Policy

variable {p : Policy} {c : Check} {property : String}

/-- A policy that lets a property pass does not deny it. -/
theorem denies_of_decideProperty (h : p.decideProperty c property = .ok ()) :
    p.deniesProperty c.tag property = false := by
  unfold decideProperty at h
  split at h
  · cases h
  · rename_i hdenied
    exact Bool.eq_false_iff.mpr hdenied

/-- A policy that lets a binding pass allows its kind, and the property too. -/
theorem allowed_of_decideBinding {allowed : Bool} (h : p.decideBinding allowed c property = .ok ()) :
    allowed = true ∧ p.decideProperty c property = .ok () := by
  unfold decideBinding at h
  split at h
  · exact ⟨‹_›, h⟩
  · cases h

/-- A property for which any check has passed is not denied. -/
theorem denies_of_gate (h : p.gate c = .ok ()) (hc : c.property? = some property) :
    p.deniesProperty c.tag property = false := by
  refine denies_of_decideProperty ?_
  cases c with
  | create uri namespaceUri tag => cases hc
  | write target name v =>
    cases hc
    exact h
  | loadTime target name e | runTime target name b | method target name callable =>
    cases hc
    exact (allowed_of_decideBinding h).2

end Policy

/-- A policy permits a write on behalf of a property of a tag. -/
structure Write.Permitted (p : Policy) (tag name : String) (w : Write) : Prop where
  named : ∀ key, w.key? = some key → key = name
  property : p.deniesProperty tag name = false
  live : w.IsLive → p.allowsRunTime = true
  callable : w.IsCallable → p.allowsMethod = true

namespace Site.Grants

variable {p : Policy} {s : Site} {name : String} {c : Check} {w : Write}

/-- The check that grants a write is about the owner and the property. -/
theorem about (h : s.Grants name c w) : c.tag = s.owner.tag ∧ c.property? = some name := by
  cases h <;> exact ⟨rfl, rfl⟩

/-- A write that is granted is filed under the name of the property, if it is filed under any. -/
theorem eq_of_key? (h : s.Grants name c w) {key : String} (hkey : w.key? = some key) : key = name := by
  cases h with
  | id text hname | rendered flag hname => exact (Option.some.inj hkey).symm.trans hname.symm
  | item addMethod v => cases hkey
  | property v | liveValue b | callable c => exact (Option.some.inj hkey).symm

/-- A check for a write has passed under a policy, so the policy permits the write. -/
theorem permitted (h : s.Grants name c w) (hgate : p.gate c = .ok ()) : w.Permitted p s.owner.tag name := by
  have hdenied := Policy.denies_of_gate hgate h.about.2
  rw [h.about.1] at hdenied
  refine ⟨fun key => h.eq_of_key?, hdenied, ?_, ?_⟩
  · cases h with
    | liveValue b => exact fun _ => (Policy.allowed_of_decideBinding hgate).1
    | property v | id text hname | rendered flag hname | item addMethod v | callable c => exact False.elim
  · cases h with
    | callable c => exact fun _ => (Policy.allowed_of_decideBinding hgate).1
    | property v | id text hname | rendered flag hname | item addMethod v | liveValue b => exact False.elim

end Site.Grants

/-- A check that has passed was let pass by the gate. -/
theorem gate_of_passed {ctx : Context} {w w' : World} {events : List BuildEvent} (h : Answers ctx.answer w events w')
    {c : Check} (hc : passed c ∈ events) : ctx.gate c = .ok () := by
  obtain ⟨m, hm⟩ := h.exists_state hc
  exact hm.symm

/-! ## §3 Bags -/

/-- What a setter has contributed to a component, in the part of the requests in which it was applied. -/
structure Contribution (p : Policy) (events : List BuildEvent) (t : Template) (i : Instance) (s : Setter Template)
    (part : List BuildEvent) : Prop where
  applied : part <:+: events ∧ Runs (Site.apply ⟨t.owner, i⟩ (Template.nestSetter s)) part (.ok ())
  /-- What is written to the component and filed under a name is filed under that of the setter. -/
  named : ∀ w ∈ writesOn i.ref part, ∀ key, w.key? = some key → key = s.name
  /-- A setter of a denied property has written nothing. -/
  denied : p.deniesProperty t.tag s.name → writesOn i.ref part = []

/-- A bag was built of a template in the course of some requests, and holds nothing that a policy forbids. -/
structure SoundBag (p : Policy) (events : List BuildEvent) (t : Template) (i : Instance) (b : Bag) : Prop where
  built : ∃ own, own <:+: events ∧ Runs t.instantiate own (.ok i)
  /-- The bag holds what the setters of the template have contributed, one after the other, and nothing else. -/
  parts : ∃ parts, List.Forall₂ (Contribution p events t i) t.setters parts ∧
    b.recorded = (parts.flatMap (writesOn i.ref)).foldl Bag.write (.empty b.typeName)
  lacks : ∀ name, p.deniesProperty t.tag name → b.Lacks name
  live : p.allowsRunTime = false → b.liveValues = .empty
  callables : p.allowsMethod = false → b.callables = .empty

section Bags

variable {p : Policy} {t : Template} {i : Instance}

/-- Whatever a setter writes to its own component is permitted. -/
theorem permitted_of_steps {s : Setter Template} {part : List BuildEvent} {objects : List Template}
    (h : Site.Steps ⟨t.owner, i⟩ s.name (objects.map Template.toNested) part)
    (hgate : ∀ c, passed c ∈ part → p.gate c = .ok ()) (hothers : ∀ d j, constructed d j ∈ part → j.ref ≠ i.ref) :
    ∀ w ∈ writesOn i.ref part, w.Permitted p t.tag s.name := by
  intro w hw
  obtain ⟨e, he, j, hrequest, href⟩ := mem_writesOn hw
  -- a write on something that has been constructed in this part is one on another place
  rcases h.granted (containedObjects objects) he hrequest with ⟨-, c, hc, hgrants⟩ | ⟨d, hd⟩
  · exact hgrants.permitted (hgate c hc)
  · exact absurd href (hothers d j hd)

/-- What permitted writes, and no others, make of an empty bag. -/
theorem sound_foldl_write {ws : List Write} (h : ∀ w ∈ ws, ∃ name, w.Permitted p t.tag name) (typeName : String) :
    (∀ name, p.deniesProperty t.tag name → (ws.foldl Bag.write (.empty typeName)).Lacks name) ∧
      (p.allowsRunTime = false → (ws.foldl Bag.write (.empty typeName)).liveValues = .empty) ∧
      (p.allowsMethod = false → (ws.foldl Bag.write (.empty typeName)).callables = .empty) := by
  -- each of the three is kept by a permitted write, and holds of an empty bag
  refine ⟨fun name hdenied => ?_, fun hoff => ?_, fun hoff => ?_⟩
  · refine List.foldlRecOn (motive := Bag.Lacks name) ws Bag.write (Bag.lacks_empty name typeName) fun b hb w hw => ?_
    obtain ⟨other, hpermitted⟩ := h w hw
    refine hb.write fun hkey => ?_
    rw [hpermitted.named name hkey, hpermitted.property] at hdenied
    cases hdenied
  · have hempty : (Bag.empty typeName).liveValues = .empty := rfl
    refine List.foldlRecOn (motive := fun b => b.liveValues = .empty) ws Bag.write hempty fun b hb w hw => ?_
    obtain ⟨name, hpermitted⟩ := h w hw
    refine (Bag.liveValues_write fun hlive => ?_).trans hb
    rw [hpermitted.live hlive] at hoff
    cases hoff
  · have hempty : (Bag.empty typeName).callables = .empty := rfl
    refine List.foldlRecOn (motive := fun b => b.callables = .empty) ws Bag.write hempty fun b hb w hw => ?_
    obtain ⟨name, hpermitted⟩ := h w hw
    refine (Bag.callables_write fun hcallable => ?_).trans hb
    rw [hpermitted.callable hcallable] at hoff
    cases hoff

variable {ctx : Context} {w w' : World} {before own after : List BuildEvent}

/-- After a build of its own a component holds what the setters of the template have written, one after the other,
whatever else was built before and after. -/
theorem exists_parts (h : Answers ctx.answer w (before ++ own ++ after) w')
    (hbags : BuildsBags (before ++ own ++ after)) (hown : Runs t.instantiate own (.ok i)) (hcontained : Contained [] (before ++ after)) :
    ∃ parts typeName, List.Forall₂ (fun s part =>
        Runs (Site.apply ⟨t.owner, i⟩ (Template.nestSetter s)) part (.ok ())) t.setters parts ∧
      (∀ part ∈ parts, part <:+: before ++ own ++ after ∧ ∀ d j, constructed d j ∈ part → j.ref ≠ i.ref) ∧
      w'.bag? i.ref = some ((parts.flatMap (writesOn i.ref)).foldl Bag.write (.empty typeName)) := by
  obtain ⟨parts, wiring, rfl, hparts, hwiring⟩ := runs_instantiate hown
  -- after the component has been constructed, all there is to look at are the parts and what comes after them
  have hsplit : before ++ constructed t.definition i :: (parts.flatten ++ wiring) ++ after =
      before ++ constructed t.definition i :: (parts.flatten ++ (wiring ++ after)) := by
    simp only [List.append_assoc, List.cons_append]
  rw [hsplit] at h hbags ⊢
  obtain ⟨hothers, typeName, hbag⟩ := bag?_of_constructed h hbags
  -- nothing but the parts writes to the component
  have hquiet : writesOn i.ref (wiring ++ after) = [] := by
    refine writesOn_eq_nil fun e he j change hrequest => ?_
    rcases List.mem_append.mp he with he | he
    · have hwired := hwiring e he
      rw [hrequest] at hwired
      exact hwired.elim
    · obtain ⟨d, hd⟩ := (hcontained e (List.mem_append_right _ he) j change hrequest).resolve_left List.not_mem_nil
      refine hothers d j ?_
      rcases List.mem_append.mp hd with hd | hd
      · exact List.mem_append_left _ hd
      · exact List.mem_append_right _ (List.mem_append_right _ (List.mem_append_right _ hd))
  rw [writesOn_append, hquiet, List.append_nil, writesOn_flatten] at hbag
  refine ⟨parts, typeName, hparts, fun part hpart => ⟨?_, fun d j hd => hothers d j ?_⟩, hbag⟩
  · have hcontiguous : part <:+: parts.flatten := List.infix_of_mem_flatten hpart
    exact ((hcontiguous.trans (List.prefix_append _ _).isInfix).trans (List.suffix_cons _ _).isInfix).trans
      (List.suffix_append _ _).isInfix
  · exact List.mem_append_right _ (List.mem_append_left _ (List.mem_flatten.mpr ⟨part, hpart, hd⟩))

/-- The component that a build of its own has made is a bag that keeps the policy. -/
theorem exists_soundBag (hgate : ctx.gate = p.gate) (ht : t.Consistent)
    (h : Answers ctx.answer w (before ++ own ++ after) w') (hbags : BuildsBags (before ++ own ++ after))
    (hown : Runs t.instantiate own (.ok i)) (hcontained : Contained [] (before ++ after)) :
    ∃ b, w'.store.get? i.ref = some (.bag b) ∧ SoundBag p (before ++ own ++ after) t i b := by
  obtain ⟨parts, typeName, hparts, hwithin, hbag⟩ := exists_parts h hbags hown hcontained
  -- the part of the setter at each place is in the same place
  have hpermitted : ∀ k (hk : k < t.setters.length) (hk' : k < parts.length),
      ∀ change ∈ writesOn i.ref (parts.get ⟨k, hk'⟩), change.Permitted p t.tag (t.setters.get ⟨k, hk⟩).name := by
    intro k hk hk'
    have hsetter := ht t (Template.Within.refl t) _ (t.setters.get_mem ⟨k, hk⟩)
    have hsteps := Site.goes_apply _ hsetter _ _ (hparts.get hk hk')
    obtain ⟨hcontiguous, hothers⟩ := hwithin _ (parts.get_mem ⟨k, hk'⟩)
    exact permitted_of_steps hsteps (fun c hc => hgate ▸ gate_of_passed h (hcontiguous.subset hc)) hothers
  have hall : ∀ change ∈ parts.flatMap (writesOn i.ref), ∃ name, change.Permitted p t.tag name := by
    intro change hchange
    obtain ⟨part, hpart, hchange⟩ := List.mem_flatMap.mp hchange
    obtain ⟨k, rfl⟩ := List.get_of_mem hpart
    exact ⟨_, hpermitted k (Nat.lt_of_lt_of_eq k.2 hparts.length_eq.symm) k.2 change hchange⟩
  -- what the bag has recorded is made of permitted writes, so it lacks what the policy forbids
  obtain ⟨b, hheld, hrecorded⟩ := World.bag?_eq_some.mp hbag
  have htypeName : b.typeName = typeName :=
    (congrArg Bag.typeName hrecorded).trans (Bag.typeName_foldl_write _ _)
  obtain ⟨hlacks, hlive, hcallables⟩ := sound_foldl_write hall typeName
  rw [← hrecorded] at hlacks hlive hcallables
  refine ⟨b, hheld, ⟨own, ⟨before, after, rfl⟩, hown⟩, ⟨parts, ?_, ?_⟩, ?_, hlive, hcallables⟩
  · -- setters and parts are compared place by place, as the permissions are
    refine List.forall₂_iff_get.mpr ⟨hparts.length_eq, fun k hk hk' => ?_⟩
    have hchanges := hpermitted k hk hk'
    refine ⟨⟨(hwithin _ (parts.get_mem _)).1, hparts.get hk hk'⟩, fun change hchange => (hchanges change hchange).named,
      fun hdenied => List.eq_nil_iff_forall_not_mem.mpr fun change hchange => ?_⟩
    rw [(hchanges change hchange).property] at hdenied
    cases hdenied
  · rw [htypeName]
    exact hrecorded
  · intro name hdenied
    exact { hlacks name hdenied with }

end Bags

/-! ## §4 Trees -/

/-- Whether a control is to be built is told without constructing anything. -/
theorem Template.notMem_of_isLoaded {t : Template} {flag : Bool} {events : List BuildEvent}
    (h : Runs t.isLoaded events (.ok flag)) (d : Definition) (i : Instance) : constructed d i ∉ events := by
  unfold isLoaded at h
  split at h
  · rw [(Program.runs_pure_except.mp h).1]
    exact List.not_mem_nil
  · rw [(Program.runs_pure_except.mp h).1]
    exact List.not_mem_nil
  · obtain ⟨_, first, rest, rfl, hcheck, h⟩ := Program.runs_bind_ok h
    obtain ⟨v, second, third, rfl, hevaluate, hdone⟩ := Program.runs_bind_ok h
    rw [runs_askOr_ok hcheck, runs_askOr_ok hevaluate]
    cases v with
    | bool b =>
      rw [(Program.runs_pure_except.mp hdone).1]
      exact fun hi => List.not_mem_nil (mem_tail_of_constructed (mem_tail_of_constructed hi nofun) nofun)
    | null | int _ | double _ | text _ | list _ | object _ => cases (Program.runs_done.mp hdone).2

namespace Visit

variable {v : Visit}

/-- In a visit that succeeds nothing is constructed but for the component of the control. -/
theorem Own.exists_making (hown : v.Own) (hsucceeds : v.Succeeds) {d : Definition} {i : Instance}
    (h : constructed d i ∈ v.events) :
    ∃ c condition making j, v = .attempted c condition making (.ok j) ∧ constructed d i ∈ making := by
  cases v with
  | undecided c condition e => cases hsucceeds
  | skipped c condition => exact absurd h (Template.notMem_of_isLoaded hown d i)
  | attempted c condition making outcome =>
    cases outcome with
    | error e => cases hsucceeds
    | ok j =>
      refine ⟨c, condition, making, j, rfl, (List.mem_append.mp h).resolve_left ?_⟩
      exact Template.notMem_of_isLoaded hown.1 d i

theorem Own.contained (hown : v.Own) : Contained [] v.events := (guarded_component _ []).contained hown.runs

theorem contained_flatMap {log : List Visit} (h : ∀ v ∈ log, v.Own) : Contained [] (log.flatMap events) := by
  refine Contained.flatten fun part hpart => ?_
  obtain ⟨v, hv, rfl⟩ := List.mem_map.mp hpart
  exact (h v hv).contained

/-- Whatever is constructed in the course of some visits has a build of its own in one of them. -/
theorem exists_own_build {log : List Visit} (hown : ∀ v ∈ log, v.Own) (hsucceed : ∀ v ∈ log, v.Succeeds)
    (hconsistent : ∀ v ∈ log, v.control.template.Consistent) {d : Definition} {i : Instance}
    (hi : constructed d i ∈ log.flatMap events) :
    ∃ v ∈ log, ∃ u before own after, v.control.template.Within u ∧ u.definition = d ∧
      log.flatMap events = before ++ own ++ after ∧ Runs u.instantiate own (.ok i) ∧
        Contained [] (before ++ after) := by
  obtain ⟨v, hv, hvisit⟩ := List.mem_flatMap.mp hi
  obtain ⟨c, condition, making, j, rfl, hinside⟩ := (hown v hv).exists_making (hsucceed v hv) hvisit
  obtain ⟨hcondition, hmaking⟩ := hown _ hv
  obtain ⟨u, before, own, after, hu, hd, rfl, hbuild, hothers⟩ :=
    PageTemplates.exists_own_build (hconsistent _ hv) hmaking hinside
  obtain ⟨earlier, later, rfl⟩ := List.append_of_mem hv
  refine ⟨_, hv, u, earlier.flatMap events ++ (condition ++ before), own, after ++ later.flatMap events, hu, hd, ?_,
    hbuild, ?_⟩
  · simp only [List.flatMap_append, List.flatMap_cons, events, List.append_assoc]
  · -- what is left of all visits, put together again
    have hearlier := contained_flatMap fun w hw => hown w (List.mem_append_left _ hw)
    have hlater := contained_flatMap fun w hw => hown w (List.mem_append_right _ (List.mem_cons_of_mem _ hw))
    have hquiet := (guarded_isLoaded c.template []).contained hcondition
    refine ((hearlier.append hquiet).append (hothers.append hlater)).congr fun e => ?_
    simp only [List.mem_append, or_assoc, or_left_comm, or_comm]

end Visit

/-- The component that was built for the control of an index was constructed for its template. -/
theorem exists_constructed_of_builtIn {log : List Visit} (hown : ∀ v ∈ log, v.Own) {index : Nat} {i : Instance}
    (h : builtIn log index = some i) :
    ∃ v ∈ log, constructed v.control.template.definition i ∈ log.flatMap Visit.events := by
  obtain ⟨v, hv, hbuilt⟩ := Option.bind_eq_some_iff.mp h
  have hmem := List.mem_of_find?_eq_some hv
  refine ⟨v, hmem, List.mem_flatMap.mpr ⟨v, hmem, ?_⟩⟩
  cases v with
  | undecided c condition e => cases hbuilt
  | skipped c condition => cases hbuilt
  | attempted c condition making outcome =>
    cases outcome with
    | error e => cases hbuilt
    | ok j =>
      cases hbuilt
      obtain ⟨parts, wiring, rfl, _, _⟩ := runs_instantiate (hown _ hmem).2
      exact List.mem_append_right _ List.mem_cons_self

/-- What was built of a control keeps a policy. It is seen from the requests of the build, the world that they have led
to, and the result. -/
structure KeepsPolicy (p : Policy) (c : Control) (events : List BuildEvent) (w : World) (result : Option LiveNode) :
    Prop where
  /-- Every component of the result was constructed for the template of a control. -/
  components : ∀ n, result = some n → ∀ i ∈ n.components, ∃ d ∈ c.nodes, constructed d.template.definition i ∈ events
  /-- Every component that was constructed, whatever it is part of, is a bag that holds nothing that is forbidden. -/
  bags : ∀ definition i, constructed definition i ∈ events → ∃ d ∈ c.nodes, ∃ t, d.template.Within t ∧
    t.definition = definition ∧ ∃ b, w.store.get? i.ref = some (.bag b) ∧ SoundBag p events t i b
  evaluations : p.allowsLoadTime = false → ∀ e ∈ events, ∀ text, e.request ≠ .evaluate text

/-- **A tree that is built under a policy keeps the policy**, in any scope and with any evaluator, if its templates
begin as empty bags and were made with the factories of their properties. -/
theorem buildLive_policy_sound {p : Policy} {ctx : Context} {t : Tree} {index : Nat} {c : Control} {w w' : World}
    {result : Option LiveNode} (hgate : ctx.gate = p.gate) (ht : t.Reached) (hc : t.get? index = some c)
    (hmade : ∀ d ∈ c.nodes, d.template.Made AnsweredForBags) (h : ctx.run c.buildLive w = (.ok result, w')) :
    KeepsPolicy p c (Program.trace ctx.answer c.buildLive w).2 w' result := by
  have hrun : Program.run ctx.answer c.buildLive w = (.ok result, w') := h
  have hanswers := Program.answers_trace ctx.answer c.buildLive w
  have hruns : Runs c.buildLive _ _ := Program.runs_trace ctx.answer c.buildLive w
  rw [Program.trace_fst, hrun] at hruns
  rw [hrun] at hanswers
  generalize (Program.trace ctx.answer c.buildLive w).2 = events at hanswers hruns ⊢
  -- the build is a sequence of visits, in each of which at most one component is built for a control
  obtain ⟨log, hlog⟩ := exists_prunes ht hc hruns
  obtain ⟨hown, rfl⟩ := hlog.own
  obtain ⟨hsucceed, -, -⟩ := hlog.ok result rfl
  have hnodes : ∀ v ∈ log, v.control ∈ c.nodes := fun v hv =>
    (c.visited_sublist _).subset (hlog.visits.subset (List.mem_map_of_mem hv))
  have hconsistent : ∀ v ∈ log, v.control.template.Consistent := fun v hv => (hmade _ (hnodes v hv)).consistent
  refine ⟨?_, fun definition i hi => ?_, fun hoff e he text hrequest => ?_⟩
  · -- a component of the result was built in a visit
    rintro n rfl i hi
    have hkept : some i ∈ (c.kept (builtIn log)).map fun d => builtIn log d.index := by
      rw [← (hlog.components n rfl).1]
      exact List.mem_map_of_mem hi
    obtain ⟨d, -, hbuilt⟩ := List.mem_map.mp hkept
    obtain ⟨v, hv, hconstructed⟩ := exists_constructed_of_builtIn hown hbuilt
    exact ⟨v.control, hnodes v hv, hconstructed⟩
  · obtain ⟨v, hv, u, before, own, after, hu, hd, hevents, hbuild, hothers⟩ :=
      Visit.exists_own_build hown hsucceed hconsistent hi
    -- whatever is constructed belongs to some template of the tree, so all of it is bags
    have hbags : BuildsBags (log.flatMap Visit.events) := by
      intro other j hj
      obtain ⟨v, hv, u, _, _, _, hu, rfl, _, _, _⟩ := Visit.exists_own_build hown hsucceed hconsistent hj
      exact ((hmade _ (hnodes v hv)).within hu).buildsEmptyBag
    rw [hevents] at hanswers hbags ⊢
    have hwithin : u.Consistent := ((hmade _ (hnodes v hv)).within hu).consistent
    exact ⟨v.control, hnodes v hv, u, hu, hd, exists_soundBag hgate hwithin hanswers hbags hbuild hothers⟩
  · obtain ⟨v, hv, he⟩ := List.mem_flatMap.mp he
    obtain ⟨target, name, hpassed⟩ := (guarded_component _ []).exists_evaluated (hown v hv).runs he hrequest
    have hallowed := gate_of_passed hanswers (List.mem_flatMap.mpr ⟨v, hv, hpassed⟩)
    rw [hgate] at hallowed
    rw [(Policy.allowed_of_decideBinding hallowed).1] at hoff
    cases hoff

/-- A text field and its converter. -/
def fieldDefinition : Definition :=
  ⟨0, "", "inputText", "Field", .ofList [("converter", .complex "converter" "Converter")], none, .mk .bag "Field" []⟩

def converterDefinition : Definition :=
  ⟨1, "", "convertNumber", "Converter", .ofList [("kind", .simple "kind" "java.lang.String")], none,
    .mk .bag "Converter" []⟩

def numberConverter : Template :=
  (Template.empty converterDefinition 0).attach (.assign (.scalar "kind" (.text "number") .string))

def numberField : Template :=
  (Template.empty fieldDefinition 0).attach (.assign (.object "converter" numberConverter))

/-- A policy that forbids all bindings and a property of converters. -/
def strictPolicy : Policy := ⟨[], ["convertNumber.pattern"], false, false, false⟩

theorem numberField_keeps_policy :
    ∃ n w', (Context.mk .empty .ofScope strictPolicy.gate true none .byManner).run (Tree.ofRoot numberField).root.buildLive
        (.initial (.library .empty)) = (.ok (some n), w') ∧ w'.size = 2 ∧
      KeepsPolicy strictPolicy (Tree.ofRoot numberField).root
        (Program.trace (Context.mk .empty .ofScope strictPolicy.gate true none .byManner).answer
          (Tree.ofRoot numberField).root.buildLive (.initial (.library .empty))).2 w' (some n) := by
  have hkind : "kind" ≠ loadedName := by decide
  have hproperty : "converter" ≠ loadedName := by decide
  have hconverter : numberConverter.Made AnsweredForBags :=
    Template.Made.attach_compiled (.of_empty ⟨_, .inl rfl⟩ 0)
      (show ∀ v ∈ (Raw.value (.text "number")).templates, _ from List.forall_mem_nil _) hkind rfl rfl
  have hfield : numberField.Made AnsweredForBags :=
    Template.Made.attach_compiled (.of_empty ⟨_, .inl rfl⟩ 0)
      (show ∀ v ∈ (Raw.objects [numberConverter]).templates, _ from List.forall_mem_singleton.mpr hconverter)
      hproperty rfl rfl
  have hroot : (Tree.ofRoot numberField).get? 0 = some (Tree.ofRoot numberField).root := rfl
  refine ⟨_, _, rfl, rfl, buildLive_policy_sound rfl (.ofRoot numberField) hroot ?_ rfl⟩
  intro d hd
  rw [Control.nodes_eq] at hd
  exact List.mem_singleton.mp hd ▸ hfield

end PageTemplates
