import PageTemplates.Host.Engine
import PageTemplates.Proofs.Build.Course
import PageTemplates.Proofs.Tree.Listing

/-!
# What a build takes from the scope

A build asks for the values of load-time expressions and for nothing else that depends on the scope: a live value and a
callable are made of the text of their expression. Which expressions may be evaluated is read off the tree
(`Control.evaluates_buildLive`), so that two scopes that agree on the variables of these expressions make no difference.

A component that includes a page keeps the scope for later. What is built in two scopes is therefore compared without
the scopes that are kept (`World.forgetful`); that is the only difference there is, and there is none if both
surroundings have the same builder of pages (`buildLive_scope_independent`).

## Structure

- §1 says when two scopes agree on an expression.
- §2 says which expressions a build may evaluate: setter by setter, then by induction on templates and on trees.
- §3 shows that no answer depends on the scopes that are kept in components.
- §4 compares two builds.
-/

namespace PageTemplates

open Program (Runs Asks)

/-! ## §1 Agreement on an expression -/

/-- Two scopes give the body of an expression the same binding, or none. -/
def Scope.AgreeOn (a b : Scope) (e : String) : Prop :=
  ∀ body, Expression.body e = .ok body → a.get? (String.ofList body) = b.get? (String.ofList body)

/-- Where two scopes agree on an expression, it has the same value or the same error in both. -/
theorem Scope.AgreeOn.evaluate_eq {a b : Scope} {e : String} (h : a.AgreeOn b e) :
    Expression.evaluate e a = Expression.evaluate e b := by
  unfold Expression.evaluate
  -- the scope is asked for the body alone, and only if there is one
  cases hbody : Expression.body e with
  | error err => rfl
  | ok body => simp only [h body hbody]

/-! ## §2 What may be evaluated -/

/-- A load-time expression of a template itself: of one of its setters, or deciding whether it is built. -/
def Template.Mentions (t : Template) (e : String) : Prop :=
  t.loaded = some (.expression e) ∨ ∃ name f, .loadTime name e f ∈ t.setters

/-- A load-time expression of a template or of one that is nested in it. -/
def Template.Involves (t : Template) (e : String) : Prop := ∃ u, t.Within u ∧ u.Mentions e

/-- A load-time expression that occurs in a tree. -/
def Control.Involves (c : Control) (e : String) : Prop := ∃ d ∈ c.nodes, d.template.Involves e

/-- If it is an evaluation, it is one of certain expressions. -/
def BuildRequest.EvaluatesOnly (Allowed : String → Prop) : BuildRequest → Prop
  | .evaluate e => Allowed e
  | _ => True

section Evaluations

variable {Allowed Other : String → Prop} {α β : Type}

/-- Only certain expressions are evaluated. -/
abbrev Evaluates (Allowed : String → Prop) (p : Build α) : Prop := Asks (BuildRequest.EvaluatesOnly Allowed) p

theorem evaluates_mono {p : Build α} (hp : Evaluates Allowed p) (h : ∀ e, Allowed e → Other e) : Evaluates Other p := by
  refine Asks.mono hp fun r hr => ?_
  cases r with
  | evaluate e => exact h e hr
  | _ => trivial

theorem evaluates_pure (a : α) : Evaluates Allowed (pure a : Build α) := Asks.done (Except.ok a)

theorem evaluates_fail (e : Error) : Evaluates Allowed (Build.fail e : Build α) := Asks.done (Except.error e)

theorem evaluates_ask {r : BuildRequest} (h : r.EvaluatesOnly Allowed) : Evaluates Allowed (Build.ask r) :=
  Asks.ask h fun _ => Asks.done _

theorem evaluates_askOr {ε : Type} {r : BuildRequest} {h : r.Answer = Except ε α} {cause : ε → Error}
    (hr : r.EvaluatesOnly Allowed) : Evaluates Allowed (Build.askOr r h cause) :=
  Asks.ask hr fun _ => Asks.done _

/-- What an assignment evaluates is evaluated by the objects that it holds. -/
theorem evaluates_assign {s : Site} {a : Assignment Template}
    (hn : ∀ u ∈ a.nested, Evaluates Allowed u.instantiate) : Evaluates Allowed (s.assign (Template.nestAssignment a)) := by
  -- of itself an assignment puts checks, writes and wirings only
  have hfollows := s.follows_assign (Template.nestAssignment a)
  rw [Template.nested_nestAssignment] at hfollows
  refine hfollows.asks (fun r hr => ?_) fun n hmem => ?_
  · cases hr <;> trivial
  · obtain ⟨u, hu, rfl⟩ := List.mem_map.mp hmem
    exact hn u hu

/-- A setter evaluates its own expression, if it is one of load time, and what the objects that it holds evaluate. -/
theorem evaluates_apply {s : Site} {setter : Setter Template}
    (hown : ∀ name e f, setter = .loadTime name e f → Allowed e)
    (hn : ∀ u ∈ setter.nested, Evaluates Allowed u.instantiate) :
    Evaluates Allowed (s.apply (Template.nestSetter setter)) := by
  cases setter with
  | assign a => exact evaluates_assign hn
  | runTime name e type =>
    refine (s.follows_runTime name e type).asks (fun r hr => ?_) (by simp)
    cases hr <;> trivial
  | loaded flag => exact evaluates_pure ()
  | loadTime name e f =>
    have he : Allowed e := hown name e f rfl
    intro events result hrun
    cases Site.resolves_of_runs hrun with
    | refused | failed | unfit => simp [passed, refused, evaluatedAs, BuildRequest.EvaluatesOnly, he]
    | assigned hvalue hassign =>
      refine List.forall_mem_cons.mpr ⟨trivial, List.forall_mem_cons.mpr ⟨he, fun x hx => ?_⟩⟩
      -- the value is assigned as it came, and nothing is evaluated for that
      cases hputs : x.request with
      | evaluate other =>
        have hown := Site.puts_of_assignValue hvalue hassign x hx
        rw [hputs] at hown
        cases hown
      | _ => trivial

/-- Setters evaluate what each of them evaluates. -/
theorem evaluates_applyAll {s : Site} {setters : List (Setter Template)}
    (hown : ∀ name e f, .loadTime name e f ∈ setters → Allowed e)
    (hn : ∀ u ∈ setters.flatMap Setter.nested, Evaluates Allowed u.instantiate) :
    Evaluates Allowed (s.applyAll (setters.map Template.nestSetter)) := by
  -- by induction on the setters, each with the objects that it holds
  induction setters with
  | nil => exact evaluates_pure ()
  | cons setter rest ih =>
    rw [List.flatMap_cons, List.forall_mem_append] at hn
    apply Asks.bind_except
    · exact evaluates_apply (fun name e f h => hown name e f (h ▸ List.mem_cons_self)) hn.1
    · intro _
      exact ih (fun name e f h => hown name e f (List.mem_cons_of_mem _ h)) hn.2

end Evaluations

/-- A template evaluates the load-time expressions that occur in it. -/
theorem evaluates_instantiate (t : Template) : Evaluates t.Involves t.instantiate := by
  induction t using Template.nested_induction with
  | step t ih =>
    rw [Template.instantiate_eq]
    -- constructing evaluates nothing, and neither does wiring a page at the end
    refine Asks.bind_except (evaluates_ask (by trivial)) fun i => ?_
    apply Asks.bind_except
    · apply evaluates_applyAll
      · intro name e f h
        exact ⟨t, .refl t, .inr ⟨name, f, h⟩⟩
      · intro u hu
        -- what is involved in a nested template is involved in the one around it
        exact evaluates_mono (ih u hu) fun e ⟨v, hv, he⟩ => ⟨v, Relation.ReflTransGen.head hu hv, he⟩
    · intro _
      cases t.definition.includedPage with
      | none => exact evaluates_pure i
      | some page => exact Asks.bind_except (evaluates_ask (by trivial)) fun _ => evaluates_pure i

/-- Whether a template is built depends on one expression at most. -/
theorem evaluates_isLoaded (t : Template) : Evaluates t.Involves t.isLoaded := by
  unfold Template.isLoaded
  cases hloaded : t.loaded with
  | none => exact evaluates_pure true
  | some condition =>
    cases condition with
    | literal flag => exact evaluates_pure flag
    | expression e =>
      have he : t.Involves e := ⟨t, .refl t, .inl hloaded⟩
      refine Asks.bind_except (evaluates_askOr (by trivial)) fun _ => ?_
      refine Asks.bind_except (evaluates_askOr he) fun v => ?_
      -- the value decides, and nothing more is evaluated for that
      cases v with
      | bool b => exact evaluates_pure b
      | null | int _ | double _ | text _ | list _ | object _ => exact evaluates_fail _

/-- A template is built or left out; either way only expressions that occur in it are evaluated. -/
theorem evaluates_component (t : Template) : Evaluates t.Involves t.component? := by
  refine Asks.bind_except (evaluates_isLoaded t) fun flag => ?_
  cases flag with
  | false => exact evaluates_pure none
  | true => exact Asks.bind_except (evaluates_instantiate t) fun i => evaluates_pure (some i)

namespace Control

theorem evaluates_buildLiveAll {Allowed : String → Prop} {cs : List Control}
    (h : ∀ c ∈ cs, Evaluates Allowed c.buildLive) : Evaluates Allowed (buildLiveAll cs) := by
  induction cs with
  | nil => exact evaluates_pure []
  | cons c rest ih =>
    obtain ⟨hc, hrest⟩ := List.forall_mem_cons.mp h
    refine Asks.bind_except hc fun built => ?_
    exact Asks.bind_except (ih hrest) fun more => evaluates_pure _

theorem evaluates_buildLiveFacets {Allowed : String → Prop} {fs : List (String × Control)}
    (h : ∀ c ∈ fs.map Prod.snd, Evaluates Allowed c.buildLive) : Evaluates Allowed (buildLiveFacets fs) := by
  induction fs with
  | nil => exact evaluates_pure []
  | cons f rest ih =>
    obtain ⟨hc, hrest⟩ := List.forall_mem_cons.mp h
    refine Asks.bind_except hc fun built => ?_
    exact Asks.bind_except (ih hrest) fun more => evaluates_pure _

/-- A build evaluates only expressions that occur in the tree. -/
theorem evaluates_buildLive (c : Control) : Evaluates c.Involves c.buildLive := by
  induction c using attached_induction with
  | step c ih =>
    have own : ∀ e, c.template.Involves e → c.Involves e := fun e he => ⟨c, c.self_mem_nodes, he⟩
    have below : ∀ d ∈ c.attached, Evaluates c.Involves d.buildLive := by
      intro d hd
      refine evaluates_mono (ih d hd) fun e ⟨x, hx, he⟩ => ⟨x, ?_, he⟩
      rw [nodes_eq]
      exact List.mem_cons_of_mem c (List.mem_flatMap.mpr ⟨d, hd, hx⟩)
    -- the control comes first, and nothing comes after it if it is not built
    obtain ⟨i, t, cs, fs⟩ := c
    obtain ⟨hchildren, hfacets⟩ := List.forall_mem_append.mp below
    refine Asks.bind_except (evaluates_mono (evaluates_component t) own) fun built => ?_
    cases built with
    | none => exact evaluates_pure none
    | some component =>
      refine Asks.bind_except (evaluates_buildLiveAll hchildren) fun children => ?_
      exact Asks.bind_except (evaluates_buildLiveFacets hfacets) fun facets => evaluates_pure _

end Control

/-! ## §3 The scopes that components keep -/

/-- The builder without its scope. -/
def PageBuilder.forgetful (b : PageBuilder) : PageBuilder := ⟨b.evaluator, .empty⟩

def Inclusion.forgetful (i : Inclusion) : Inclusion := ⟨i.page, i.builder.map PageBuilder.forgetful⟩

def Bag.forgetful (b : Bag) : Bag := { b with inclusion := b.inclusion.map Inclusion.forgetful }

def Plain.forgetful (p : Plain) : Plain := { p with inclusion := p.inclusion.map Inclusion.forgetful }

/-- The component without the scope that it keeps for including a page. -/
def Component.forgetful : Component → Component
  | .bag b => .bag b.forgetful
  | .plain p => .plain p.forgetful

/-- The store without the scopes that its components keep. -/
def Store.forgetful (s : Store) : Store := ⟨s.cells.map Component.forgetful⟩

def Workshop.forgetful (w : Workshop) : Workshop := ⟨w.store.forgetful, w.reports⟩

/-- The world without the scopes that its components keep for including pages. -/
def World.forgetful (w : World) : World := { w with store := w.store.forgetful }

/-- The surroundings with a builder of pages that keeps no scope. -/
def Context.forgetful (ctx : Context) : Context := { ctx with builder := ctx.builder.map PageBuilder.forgetful }

namespace Component

@[simp] theorem typeName_forgetful (c : Component) : c.forgetful.typeName = c.typeName := by
  cases c <;> rfl

@[simp] theorem yields_forgetful (c : Component) : c.forgetful.yields = c.yields := by
  cases c <;> rfl

@[simp] theorem report?_forgetful (c : Component) (w : Write) : c.forgetful.report? w = c.report? w := by
  cases c <;> rfl

theorem write_forgetful (c : Component) (w : Write) :
    c.forgetful.write w = ((c.write w).1, (c.write w).2.forgetful) := by
  cases c with
  | bag b => cases w <;> rfl
  | plain p => rfl

theorem wirePage_forgetful (c : Component) (page : String) (builder : Option PageBuilder) :
    c.forgetful.wirePage page (builder.map PageBuilder.forgetful) = (c.wirePage page builder).forgetful := by
  -- what is wired is the builder, and this forgets its scope before or after that
  cases c with
  | plain p => cases hinclusion : p.inclusion <;> cases builder <;>
      simp [forgetful, wirePage, Plain.forgetful, Inclusion.forgetful, hinclusion]
  | bag b => cases hinclusion : b.inclusion <;> cases builder <;>
      simp [forgetful, wirePage, Bag.forgetful, Bag.setPage, Bag.setBuilder, Inclusion.forgetful, hinclusion]

end Component

namespace Store

theorem get?_forgetful (s : Store) (ref : Nat) : s.forgetful.get? ref = (s.get? ref).map Component.forgetful := by
  simp [forgetful, get?]

@[simp] theorem set_forgetful (s : Store) (ref : Nat) (c : Component) :
    s.forgetful.set ref c.forgetful = (s.set ref c).forgetful := by
  simp [forgetful, set, Array.map_setIfInBounds]

@[simp] theorem add_forgetful (s : Store) (c : Component) :
    s.forgetful.add c.forgetful = ((s.add c).1, (s.add c).2.forgetful) := by
  simp [forgetful, add]

@[simp] theorem write_forgetful (s : Store) (ref : Nat) (w : Write) :
    s.forgetful.write ref w = ((s.write ref w).1, (s.write ref w).2.forgetful) := by
  unfold write
  rw [get?_forgetful]
  cases s.get? ref with
  | none => rfl
  | some c => simp only [Option.map_some, c.write_forgetful, set_forgetful]

@[simp] theorem report?_forgetful (s : Store) (ref : Nat) (w : Write) :
    (s.forgetful.get? ref).bind (·.report? w) = (s.get? ref).bind (·.report? w) := by
  cases hc : s.get? ref <;> simp [get?_forgetful, hc]

@[simp] theorem yields_forgetful (s : Store) (ref : Nat) :
    (s.forgetful.get? ref).bind Component.yields = (s.get? ref).bind Component.yields := by
  cases hc : s.get? ref <;> simp [get?_forgetful, hc]

@[simp] theorem handle_forgetful (s : Store) (i : Instance) : s.forgetful.handle i = s.handle i := by
  simp only [handle, yields_forgetful]

end Store

theorem Blueprint.initial_forgetful (kind : BlueprintKind) (typeName : String) :
    (Blueprint.initial kind typeName).forgetful = Blueprint.initial kind typeName := by
  -- nothing has been wired yet
  cases kind with
  | foreign conduct includes => cases includes <;> rfl
  | bag | including | plain refusals | callable refusals yields => rfl

theorem Workshop.store_forgetful (w : Workshop) : w.forgetful.store = w.store.forgetful := rfl

theorem Workshop.write_forgetful (w : Workshop) (ref : Nat) (name : String) (v : Value) :
    w.forgetful.write ref name v = (w.write ref name v).forgetful := by
  simp only [write, forgetful, Store.write_forgetful, Store.report?_forgetful]

-- the recursion is that of building
mutual

theorem Draft.build_forgetful (w : Workshop) : ∀ d : Draft,
    d.build w.forgetful = ((d.build w).1, (d.build w).2.forgetful)
  | .ready v => rfl
  | .list items => by simp only [Draft.build, buildDrafts_forgetful w items]
  | .object b => by simp only [Draft.build, Blueprint.build_forgetful w b, Workshop.store_forgetful, Store.handle_forgetful]

theorem buildDrafts_forgetful (w : Workshop) : ∀ ds : List Draft,
    buildDrafts w.forgetful ds = ((buildDrafts w ds).1, (buildDrafts w ds).2.forgetful)
  | [] => rfl
  | d :: rest => by
    simp only [buildDrafts, Draft.build_forgetful w d, buildDrafts_forgetful (d.build w).2 rest]

theorem Blueprint.build_forgetful (w : Workshop) : ∀ b : Blueprint,
    b.build w.forgetful = ((b.build w).1, (b.build w).2.forgetful)
  | .mk kind typeName properties => by
    -- a new component keeps no scope yet
    have hadd := w.store.add_forgetful (Blueprint.initial kind typeName)
    rw [Blueprint.initial_forgetful] at hadd
    simp only [Blueprint.build, Workshop.forgetful, hadd]
    exact congrArg (Prod.mk _) (writeDrafts_forgetful _ ⟨_, w.reports⟩ properties)

theorem writeDrafts_forgetful (ref : Nat) (w : Workshop) : ∀ ps : List (String × Draft),
    writeDrafts ref w.forgetful ps = (writeDrafts ref w ps).forgetful
  | [] => rfl
  | (name, d) :: rest => by
    simp only [writeDrafts, Draft.build_forgetful w d, Workshop.write_forgetful]
    exact writeDrafts_forgetful ref _ rest

end

namespace World

theorem instantiate_forgetful (w : World) (d : Definition) :
    w.forgetful.instantiate d = ((w.instantiate d).1, (w.instantiate d).2.forgetful) := by
  have hbuild := Blueprint.build_forgetful ⟨w.store, []⟩ d.blueprint
  simp only [Workshop.forgetful] at hbuild
  simp only [instantiate, construct, note, forgetful, hbuild]

theorem write_forgetful (w : World) (ref : Nat) (change : Write) :
    w.forgetful.write ref change = ((w.write ref change).1, (w.write ref change).2.forgetful) := by
  simp only [write, forgetful, Store.report?_forgetful]
  cases (w.store.get? ref).bind (·.report? change) <;> simp [note]

end World

/-- The scopes that components keep have no influence on the answers. -/
theorem Context.answer_forgetful (ctx : Context) (r : BuildRequest) (w : World) :
    ctx.forgetful.answer r w.forgetful = ((ctx.answer r w).1, (ctx.answer r w).2.forgetful) := by
  cases r with
  | construct d => exact w.instantiate_forgetful d
  | check c => cases hwatched : ctx.watched <;> simp [answer, Context.forgetful, World.forgetful, World.note, hwatched]
  | write i change => exact w.write_forgetful i.ref change
  | yielded i => simp only [answer, World.forgetful, Store.yields_forgetful]
  | finish i => simp only [answer, World.forgetful, Store.handle_forgetful]
  | wirePage i page =>
    simp only [answer, World.forgetful, Context.forgetful, Store.get?_forgetful]
    cases w.store.get? i.ref with
    | none => rfl
    | some c => simp [Component.wirePage_forgetful]
  | evaluate _ | bindValue _ _ | bindCallable _ | wireOwner _ _ | wireComponent _ _ => rfl

/-! ## §4 Two builds -/

/-- Surroundings that evaluate expressions in a scope, and that differ at most in their scopes: the one in which they
evaluate, and the one that their builder of pages keeps. What other callables there are, and how they are wired, is the
same in both. -/
structure Context.DifferInScope (a b : Context) : Prop where
  left : a.evaluator = .ofScope
  right : b.evaluator = .ofScope
  gate : a.gate = b.gate
  watched : a.watched = b.watched
  builder : a.builder.map PageBuilder.forgetful = b.builder.map PageBuilder.forgetful
  wiring : a.wiring = b.wiring

namespace Context.DifferInScope

variable {a b : Context} {Allowed : String → Prop} {α : Type} {p : Build α}

/-- Surroundings with the same builder of pages give the same answers where their scopes agree. -/
theorem answer_eq (h : a.DifferInScope b) (hbuilder : a.builder = b.builder)
    (hagree : ∀ e, Allowed e → a.scope.AgreeOn b.scope e) (r : BuildRequest) (hr : r.EvaluatesOnly Allowed) (w : World) :
    b.answer r w = a.answer r w := by
  -- a scope is looked at by an evaluation alone; everything else that is different is in the builder of pages
  cases r with
  | evaluate e => simp only [answer, h.left, h.right, Evaluator.ofScope, (hagree e hr).evaluate_eq]
  | bindValue e type => simp only [answer, h.left, h.right]
  | bindCallable e => simp only [answer, h.left, h.right]
  | check c => simp only [answer, h.gate, h.watched]
  | wirePage i page => simp only [answer, hbuilder]
  | wireOwner c owner => simp only [answer, wireOwner, h.wiring]
  | wireComponent c i => simp only [answer, wireComponent, h.wiring]
  | construct d | write i change | yielded i | finish i => rfl

theorem run_eq (h : a.DifferInScope b) (hbuilder : a.builder = b.builder)
    (hagree : ∀ e, Allowed e → a.scope.AgreeOn b.scope e) (hp : Evaluates Allowed p) (w : World) :
    a.run p w = b.run p w :=
  (hp.run_eq (g := id) (fun r hr w => h.answer_eq hbuilder hagree r hr w) w).symm

/-- What a build makes of a world without scopes is what it makes of the world, without scopes. -/
theorem run_forgetful (ctx : Context) (p : Build α) (w : World) :
    ctx.forgetful.run p w.forgetful = ((ctx.run p w).1, (ctx.run p w).2.forgetful) :=
  (Asks.anything p).run_eq (fun r _ w => ctx.answer_forgetful r w) w

theorem run_forgetful_eq (h : a.DifferInScope b) (hagree : ∀ e, Allowed e → a.scope.AgreeOn b.scope e)
    (hp : Evaluates Allowed p) (w : World) :
    (a.run p w).1 = (b.run p w).1 ∧ (a.run p w).2.forgetful = (b.run p w).2.forgetful := by
  -- forgetting all scopes first makes the two builders equal
  have hforgetful : a.forgetful.DifferInScope b.forgetful := by
    refine ⟨h.left, h.right, h.gate, h.watched, ?_, h.wiring⟩
    simp only [Context.forgetful, h.builder]
  -- without the scopes that are kept, the two have the same builder
  have hsame := hforgetful.run_eq h.builder hagree hp w.forgetful
  rw [run_forgetful, run_forgetful] at hsame
  exact Prod.mk.inj hsame

end Context.DifferInScope

/-- Builds of one engine in two scopes differ in their scopes alone, however callables are wired. -/
theorem Engine.context_differInScope (e : Engine) (first second : Scope) (wiring : Wiring) :
    (e.context .ofScope first wiring).DifferInScope (e.context .ofScope second wiring) :=
  ⟨rfl, rfl, rfl, rfl, rfl, rfl⟩

/-- Without load-time expressions the scope makes no difference. -/
theorem buildLive_of_not_involves (c : Control) (hc : ∀ e, ¬ c.Involves e) {a b : Context} (h : a.DifferInScope b)
    (w : World) : (a.run c.buildLive w).1 = (b.run c.buildLive w).1 :=
  (h.run_forgetful_eq (fun e he => absurd he (hc e)) c.evaluates_buildLive w).1

/-- **A build depends on the scope only through its load-time expressions**: if two scopes agree on each load-time
expression of a tree, building it gives the same graph or the same error, and the same world up to the scopes that are
kept for including pages. The components and the callables may be of any kind. -/
theorem buildLive_scope_independent (c : Control) {a b : Context} (h : a.DifferInScope b)
    (hagree : ∀ e, c.Involves e → a.scope.AgreeOn b.scope e) (w : World) :
    (a.run c.buildLive w).1 = (b.run c.buildLive w).1 ∧
      (a.run c.buildLive w).2.forgetful = (b.run c.buildLive w).2.forgetful ∧
      (a.builder = b.builder → a.run c.buildLive w = b.run c.buildLive w) := by
  obtain ⟨hresult, hworld⟩ := h.run_forgetful_eq hagree c.evaluates_buildLive w
  exact ⟨hresult, hworld, fun hbuilder => h.run_eq hbuilder hagree c.evaluates_buildLive w⟩

/-- A control with one property, which is given by an expression. -/
def scopedControl : Control :=
  .leaf 0 ⟨⟨0, "", "a", "a", NameMap.empty.insert "n" (.simple "n" "int"), none, default⟩, 0,
    [.loadTime "n" "$\x7bx\x7d" ⟨"n", "int", true, .scalar .int⟩], none⟩

theorem involves_scopedControl {e : String} (h : scopedControl.Involves e) : e = "$\x7bx\x7d" := by
  obtain ⟨d, hd, u, hu, hmentions⟩ := h
  obtain rfl := List.mem_singleton.mp hd
  -- nothing is nested in the template
  obtain rfl : scopedControl.template = u := by
    rcases Relation.ReflTransGen.cases_head hu with heq | ⟨v, hv, _⟩
    · exact heq
    · cases hv
  rcases hmentions with hloaded | ⟨name, f, hmem⟩
  · cases hloaded
  · cases List.mem_singleton.mp hmem
    rfl

/-- Two scopes with one variable in common, and a page that needs no other. -/
theorem scopedControl_scope_independent :
    let e : Engine := ⟨⟨.standard, false, false⟩, ⟨0, Gate.permissive⟩, Gate.permissive⟩
    let a := e.context .ofScope ((Scope.empty.set "x" (.int 7)).set "y" (.int 1))
    let b := e.context .ofScope (Scope.empty.set "x" (.int 7))
    let w := World.initial (.library .empty)
    (a.run scopedControl.buildLive w).1.isOk ∧
      (a.run scopedControl.buildLive w).1 = (b.run scopedControl.buildLive w).1 ∧
      (a.run scopedControl.buildLive w).2.forgetful = (b.run scopedControl.buildLive w).2.forgetful := by
  intro e a b w
  -- the second variable of the one scope is in no expression
  have hagree : ∀ e, scopedControl.Involves e → a.scope.AgreeOn b.scope e := by
    intro e he body hbody
    rw [involves_scopedControl he, show Expression.body "$\x7bx\x7d" = .ok ['x'] from rfl] at hbody
    cases hbody
    rfl
  obtain ⟨hresult, hworld, -⟩ :=
    buildLive_scope_independent scopedControl (e.context_differInScope _ _ _) hagree w
  exact ⟨rfl, hresult, hworld⟩

end PageTemplates
