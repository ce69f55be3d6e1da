import PageTemplates.Proofs.Build.Provenance
import PageTemplates.Proofs.Build.Renaming
import PageTemplates.Security.Policy

/-!
# Two builds in lockstep

The same build begins twice, in two worlds whose stores are the same up to a renaming of places
(`Comparison.Mirrors`). It puts the same requests, gets the same answers up to the renaming, and ends in stores that are
again the same (`Comparison.Lockstep`). All that it takes is a gate that judges a check by its kind, its tag and its
property alone (`Gate.Impartial`), as every policy does, and that whatever objects are known beforehand are at places
that the renaming leaves alone (`Context.Knows`, `Template.Knows`).

## Structure

- §1 is about gates, §2 about what is known beforehand.
- §3 has the rules of lockstep, request by request.
- §4 goes through assignments and setters, §5 through templates by induction on nesting.
-/

namespace PageTemplates

/-! ## §1 Gates -/

/-- Checks of the same kind, tag and property get the same answer. -/
def Gate.Impartial (gate : Gate) : Prop :=
  ∀ c c' : Check, c'.kind = c.kind → c'.tag = c.tag → c'.property? = c.property? → gate c' = gate c

theorem Gate.impartial_permissive : permissive.Impartial := fun _ _ _ _ _ => rfl

/-- A policy looks at the kind, the tag and the property of a check, and at no place. -/
theorem Policy.impartial_gate (p : Policy) : p.gate.Impartial := by
  intro c c' hkind htag hproperty
  have hviolation : ∀ reason, Violation.ofCheck c' reason = .ofCheck c reason := by
    intro reason
    simp only [Violation.ofCheck, hkind, htag, hproperty]
  have hdecide : ∀ property, p.decideProperty c' property = p.decideProperty c property := by
    intro property
    simp only [decideProperty, htag, hviolation]
  have hbinding : ∀ allowed property, p.decideBinding allowed c' property = p.decideBinding allowed c property := by
    intro allowed property
    simp only [decideBinding, hdecide, hviolation]
  -- a check is of the same kind as the other, and then the two differ at most in what they are about
  cases c with
  | create uri ns tag =>
    cases c' <;> cases hkind
    obtain rfl : _ = tag := htag
    simp only [gate, Check.tag, hviolation]
    rfl
  | write target property v =>
    cases c' <;> cases hkind
    cases hproperty
    exact hdecide property
  | loadTime target property e =>
    cases c' <;> cases hkind
    cases hproperty
    exact hbinding p.allowsLoadTime property
  | runTime target property b =>
    cases c' <;> cases hkind
    cases hproperty
    exact hbinding p.allowsRunTime property
  | method target property c =>
    cases c' <;> cases hkind
    cases hproperty
    exact hbinding p.allowsMethod property

/-! ## §2 What is known beforehand -/

section Known

variable {τ : Type} {n : Nat}

/-- An element that exists already has its objects at places below a bound. -/
def Item.Below (n : Nat) : Item τ → Prop
  | .value v => v.Below n
  | .object _ => True

/-- All objects that exist already in an assignment are at places below a bound. -/
def Assignment.Below (n : Nat) : Assignment τ → Prop
  | .scalar _ v _ => v.Below n
  | .collection _ _ items => ∀ item ∈ items, item.Below n
  | .id _ | .rendered _ | .object .. | .method .. => True

/-- All objects that exist already in a setter are at places below a bound. -/
def Setter.Below (n : Nat) : Setter τ → Prop
  | .assign a => a.Below n
  | .loadTime .. | .runTime .. | .loaded _ => True

/-- The objects of an assignment are the same when it is nested, because what is still to be built is none of them. -/
theorem Template.below_nestAssignment {a : Assignment Template} (h : a.Below n) : (nestAssignment a).Below n := by
  cases a with
  | scalar name v type => exact h
  | collection name addMethod items =>
    rw [nestAssignment, nestItems_eq_map]
    intro item hitem
    obtain ⟨given, hgiven, rfl⟩ := List.mem_map.mp hitem
    cases given with
    | value v => exact h _ hgiven
    | object t => trivial
  | id text | rendered flag | object name t | method name source => trivial

/-- A text is read as a value without objects. -/
theorem Coercion.below_ofText {property text : String} {type : ValueType} {v : Value}
    (h : ofText property text type = .ok v) : v.Below n := by
  cases type with
  | object | string =>
    cases h
    trivial
  | int =>
    unfold ofText at h
    dsimp only at h
    split at h <;> cases h
    trivial
  | double =>
    unfold ofText at h
    dsimp only at h
    split at h <;> cases h
    trivial
  | boolean =>
    obtain ⟨flag, _, rfl⟩ := Outcome.map_eq_ok.mp h
    trivial

/-- A value that is coerced stays as it is, or has no objects. -/
theorem Coercion.below_ofValue {property : String} {type : ValueType} {v u : Value} (hv : v.Below n)
    (h : ofValue property v type = .ok u) : u.Below n := by
  unfold ofValue at h
  split at h
  -- the value is taken as it came, or read from a text, or it is a number or a flag of another type
  case h_1 =>
    cases h
    exact hv
  case h_2 => exact below_ofText h
  case h_7 =>
    split at h <;> cases h
    trivial
  all_goals
    cases h
    try trivial

namespace Factory

variable {f : Factory}

/-- An element is the value that it is made of, as it came or coerced. -/
theorem below_itemOf {type : Option ValueType} {v : Value} {item : Item τ} (hv : v.Below n)
    (h : f.itemOf type v = .ok item) : item.Below n := by
  unfold itemOf at h
  split at h
  · cases h
    exact hv
  · obtain ⟨u, hu, rfl⟩ := Outcome.map_eq_ok.mp h
    exact Coercion.below_ofValue hv hu
  · cases h

/-- The elements of a value are its items, or the value itself. -/
theorem below_elements {v : Value} (hv : v.Below n) : ∀ u ∈ elements v, u.Below n := by
  cases v with
  | list items => exact Value.itemsBelow_iff.mp hv
  | null | bool b | int i | double d | text s | object h =>
    intro u hu
    obtain rfl := List.mem_singleton.mp hu
    exact hv

/-- An assignment that is made of a value has the objects of the value alone. -/
theorem below_assignValue {v : Value} {a : Assignment τ} (hv : v.Below n) (h : f.assignValue v = .ok a) :
    a.Below n := by
  unfold assignValue at h
  -- each kind of factory passes the value on, or coerces it, or takes from it what has no objects
  cases hkind : f.kind with
  | collection addMethod type =>
    rw [hkind] at h
    obtain ⟨items, hitems, rfl⟩ := Outcome.map_eq_ok.mp h
    intro item hitem
    obtain ⟨u, hu, hmade⟩ := Outcome.mem_of_mapM_eq_ok hitems item hitem
    exact below_itemOf (below_elements hv u hu) hmade
  | scalar type =>
    rw [hkind] at h
    obtain ⟨u, hu, rfl⟩ := Outcome.map_eq_ok.mp h
    exact Coercion.below_ofValue hv hu
  | id =>
    rw [hkind] at h
    cases v <;> cases h <;> trivial
  | rendered =>
    rw [hkind] at h
    dsimp only at h
    split at h <;> cases h
    trivial
  | complex =>
    rw [hkind] at h
    cases v <;> cases h
    exact hv
  | method =>
    rw [hkind] at h
    dsimp only at h
    split at h
    · cases h
      trivial
    · split at h <;> cases h
      trivial
    · cases h

end Factory

end Known

/-- All objects that a template mentions, and those that are nested in it, are at places below a bound, and no component
that is built for them sees places. -/
def Template.Knows (n : Nat) (t : Template) : Prop :=
  ∀ u, t.Within u → u.definition.blueprint.Below n ∧ ∀ s ∈ u.setters, s.Below n

/-- Whatever an evaluation gives is at places below a bound, and the gate is impartial. -/
structure Context.Knows (n : Nat) (ctx : Context) : Prop where
  impartial : ctx.gate.Impartial
  below : ∀ e v, ctx.evaluator.evaluate e ctx.scope = .ok v → v.Below n

/-! ## §3 Lockstep -/

/-- Both succeed, with results that are related, or both fail. -/
def Outcome.Alike {ε α β : Type} (Q : α → β → Prop) : Except ε α → Except ε β → Prop
  | .ok a, .ok b => Q a b
  | .error _, .error _ => True
  | .ok _, .error _ | .error _, .ok _ => False

/-- A write is answered by the store; the report of it is only noted. -/
theorem World.result_write (w : World) (ref : Nat) (change : Write) :
    (w.write ref change).1 = (w.store.write ref change).1 := by
  unfold write
  split <;> rfl

namespace Context

variable {α β : Type}

/-- A program that goes on with the result of another one is run after it, unless that fails. -/
theorem run_bind (ctx : Context) (p : Build α) (f : α → Build β) (w : World) :
    ctx.run (p >>= f : Build β) w = match ctx.run p w with
      | (.ok a, v) => ctx.run (f a) v
      | (.error e, v) => (.error e, v) := by
  have hrun := Program.run_bind ctx.answer p (ExceptT.bindCont f) w
  show Program.run ctx.answer (p >>= f : Build β) w = _
  rw [show (p >>= f : Build β) = (show Program BuildRequest.Answer (Except Error α) from p) >>= ExceptT.bindCont f
    from rfl, hrun]
  unfold run
  generalize Program.run ctx.answer p w = outcome
  obtain ⟨result, v⟩ := outcome
  cases result <;> rfl

/-- No place is given back. -/
theorem size_le_answer (ctx : Context) (r : BuildRequest) (w : World) : w.size ≤ (ctx.answer r w).2.size := by
  cases r with
  | construct d => exact Blueprint.size_le ⟨w.store, []⟩ d.blueprint
  | check | evaluate | bindValue | bindCallable | wireOwner | wireComponent | write | yielded | finish | wirePage =>
    exact size_answer nofun

theorem size_le_run (ctx : Context) (p : Build α) (w : World) : w.size ≤ (ctx.run p w).2.size := by
  show w.size ≤ (Program.run ctx.answer p w).2.size
  generalize (show Program BuildRequest.Answer (Except Error α) from p) = p
  induction p generalizing w with
  | done a => exact Nat.le_refl _
  | ask r next ih => exact Nat.le_trans (ctx.size_le_answer r w) (ih _ _)

end Context

namespace Comparison

variable {C : Comparison} {ctx : Context} {α β : Type} {Q : α → α → Prop} {R : β → β → Prop} {n : Nat}

/-- Two programs that begin in stores that are the same up to the renaming both fail, or both succeed with results that
are related, and end in such stores again. -/
def Lockstep (C : Comparison) (ctx : Context) (Q : α → α → Prop) (p p' : Build α) : Prop :=
  ∀ w w' : World, C.Mirrors w.store w'.store → (ctx.run p w).2.size ≤ C.bound →
    Outcome.Alike Q (ctx.run p w).1 (ctx.run p' w').1 ∧
      C.Mirrors (ctx.run p w).2.store (ctx.run p' w').2.store

theorem lockstep_pure {a a' : α} (h : Q a a') : C.Lockstep ctx Q (pure a : Build α) (pure a') :=
  fun _ _ hstores _ => ⟨h, hstores⟩

theorem lockstep_fail (e e' : Error) : C.Lockstep ctx Q (Build.fail e : Build α) (Build.fail e') :=
  fun _ _ hstores _ => ⟨trivial, hstores⟩

theorem Lockstep.bind {p p' : Build α} {f f' : α → Build β} (hp : C.Lockstep ctx Q p p')
    (hf : ∀ a a', Q a a' → C.Lockstep ctx R (f a) (f' a')) :
    C.Lockstep ctx R (p >>= f : Build β) (p' >>= f' : Build β) := by
  intro w w' hstores hsize
  rw [Context.run_bind] at hsize
  -- the first part ends below the bound, because the second one gives no place back
  have hfirst : (ctx.run p w).2.size ≤ C.bound := by
    revert hsize
    rcases ctx.run p w with ⟨_ | a, v⟩
    · exact id
    · exact Nat.le_trans (ctx.size_le_run (f a) v)
  obtain ⟨hresult, hstores⟩ := hp w w' hstores hfirst
  rw [Context.run_bind, Context.run_bind]
  generalize ctx.run p w = outcome at hresult hstores hsize
  generalize ctx.run p' w' = outcome' at hresult hstores
  obtain ⟨result, v⟩ := outcome
  obtain ⟨result', v'⟩ := outcome'
  -- the two first parts both fail, or go on with related results
  cases result with
  | error e =>
    cases result' with
    | error e' => exact ⟨trivial, hstores⟩
    | ok a' => cases hresult
  | ok a =>
    cases result' with
    | error e' => cases hresult
    | ok a' => exact hf a a' hresult v v' hstores hsize

/-- Two requests that get the same answer up to the renaming. -/
theorem lockstep_ask {r r' : BuildRequest} {next : r.Answer → Program BuildRequest.Answer (Except Error α)}
    {next' : r'.Answer → Program BuildRequest.Answer (Except Error α)}
    (h : ∀ w w' : World, C.Mirrors w.store w'.store → (ctx.answer r w).2.size ≤ C.bound →
      C.Lockstep ctx Q (next (ctx.answer r w).1) (next' (ctx.answer r' w').1) ∧
        C.Mirrors (ctx.answer r w).2.store (ctx.answer r' w').2.store) :
    C.Lockstep ctx Q (ExceptT.mk (.ask r next) : Build α) (ExceptT.mk (.ask r' next')) := by
  intro w w' hstores hsize
  have hanswered := Nat.le_trans (ctx.size_le_run (next (ctx.answer r w).1) (ctx.answer r w).2) hsize
  obtain ⟨hnext, hstores⟩ := h w w' hstores hanswered
  exact hnext _ _ hstores hsize

/-- What is answered in the same way is passed on in the same way. -/
theorem lockstep_done {ε : Type} {cause cause' : ε → Error} (hQ : ∀ a, Q a a) (r : Except ε α) :
    C.Lockstep ctx Q (ExceptT.mk (.done (r.mapError cause)) : Build α) (ExceptT.mk (.done (r.mapError cause'))) := by
  cases r with
  | error e => exact lockstep_fail _ _
  | ok a => exact lockstep_pure (hQ a)

/-- A check gets the same answer for the other place, and passes or stops both builds. -/
theorem lockstep_check (hctx : ctx.Knows n) {c c' : Check} (hkind : c'.kind = c.kind) (htag : c'.tag = c.tag)
    (hproperty : c'.property? = c.property?) :
    C.Lockstep ctx (fun _ _ => True) (Build.check c) (Build.check c') := by
  -- a check is noted at most
  have hstore : ∀ (c : Check) (w : World), (ctx.answer (.check c) w).2.store = w.store := by
    intro c w
    show (if ctx.watched then w.note (.checked c) else w).store = w.store
    split <;> rfl
  refine lockstep_ask fun w w' hstores _ => ⟨?_, ?_⟩
  · have hanswer : ctx.gate c' = ctx.gate c := hctx.impartial c c' hkind htag hproperty
    show C.Lockstep ctx _ (ExceptT.mk (.done ((ctx.gate c).mapError _))) (ExceptT.mk (.done ((ctx.gate c').mapError _)))
    rw [hanswer]
    exact lockstep_done (fun _ => trivial) _
  · rwa [hstore, hstore]

/-- An expression has the same value in both, and there are no new objects in it. -/
theorem lockstep_evaluate (hctx : ctx.Knows n) (property expression : String) :
    C.Lockstep ctx (fun v v' => v = v' ∧ v.Below n) (Build.evaluate property expression)
      (Build.evaluate property expression) := by
  refine lockstep_ask fun w w' hstores _ => ⟨?_, hstores⟩
  show C.Lockstep ctx _ (ExceptT.mk (.done ((ctx.evaluator.evaluate expression ctx.scope).mapError _)))
    (ExceptT.mk (.done ((ctx.evaluator.evaluate expression ctx.scope).mapError _)))
  cases hvalue : ctx.evaluator.evaluate expression ctx.scope with
  | error e => exact lockstep_fail _ _
  | ok v => exact lockstep_pure ⟨rfl, hctx.below expression v hvalue⟩

theorem lockstep_bindValue (property expression : String) (type : ValueType) :
    C.Lockstep ctx Eq (Build.bindValue property expression type)
      (Build.bindValue property expression type) :=
  lockstep_ask fun _ _ hstores _ => ⟨lockstep_done (fun _ => rfl) _, hstores⟩

theorem lockstep_bindCallable (property expression : String) :
    C.Lockstep ctx Eq (Build.bindCallable property expression)
      (Build.bindCallable property expression) :=
  lockstep_ask fun _ _ hstores _ => ⟨lockstep_done (fun _ => rfl) _, hstores⟩

/-- A node is the same in both builds. -/
theorem lockstep_wireOwner (property : String) (c : Callable) (owner : Owner) :
    C.Lockstep ctx Eq (Build.wireOwner property c owner) (Build.wireOwner property c owner) := by
  apply Lockstep.bind (Q := Eq)
  · exact lockstep_ask fun _ _ hstores _ => ⟨lockstep_done (fun _ => rfl) _, hstores⟩
  · rintro wired _ rfl
    exact lockstep_pure rfl

/-- A callable looks at the type of the component alone. -/
theorem lockstep_wireComponent (property : String) (c : Callable) {i i' : Instance} (htype : i'.typeName = i.typeName) :
    C.Lockstep ctx Eq (Build.wireComponent property c i) (Build.wireComponent property c i') := by
  apply Lockstep.bind (Q := Eq)
  · refine lockstep_ask fun w w' hstores _ => ⟨?_, hstores⟩
    show C.Lockstep ctx _ (ExceptT.mk (.done ((ctx.wireComponent c i.typeName).mapError _)))
      (ExceptT.mk (.done ((ctx.wireComponent c i'.typeName).mapError _)))
    -- however callables are wired, the type is all that they see of a component
    rw [htype]
    exact lockstep_done (fun _ => rfl) _
  · rintro wired _ rfl
    exact lockstep_pure rfl

/-- A write on components that take it is answered in the same way. -/
theorem lockstep_write {P : Write → Prop} {i i' : Instance} (h : C.Takes P i.ref i'.ref) (property : String) {x : Write}
    (hx : P x) :
    C.Lockstep ctx (fun _ _ => True) (Build.write property i x) (Build.write property i' (x.rename C.ρ)) := by
  refine lockstep_ask fun w w' hstores _ => ?_
  obtain ⟨hanswer, hstores⟩ := h _ _ x hstores hx
  constructor
  · show C.Lockstep ctx _ (ExceptT.mk (.done ((w.write i.ref x).1.mapError _)))
      (ExceptT.mk (.done ((w'.write i'.ref (x.rename C.ρ)).1.mapError _)))
    rw [World.result_write, World.result_write, hanswer]
    exact lockstep_done (fun _ => trivial) _
  · show C.Mirrors (w.write i.ref x).2.store (w'.write i'.ref (x.rename C.ρ)).2.store
    rwa [World.store_write, World.store_write]

/-- The component that is constructed is a new one in both. -/
theorem lockstep_construct (hC : C.Fits n) {d : Definition} (hd : d.blueprint.Below n) :
    C.Lockstep ctx C.Fresh (Build.construct d) (Build.construct d) := by
  refine lockstep_ask fun w w' hstores hsize => ?_
  have hstart : C.MirrorsIn ⟨w.store, []⟩ ⟨w'.store, []⟩ := hstores
  obtain ⟨hfresh, hstores⟩ := Blueprint.build_mirrors hC hstart d.blueprint hd hsize
  exact ⟨lockstep_pure hfresh, hstores⟩

/-- New components stand for the same callable. -/
theorem lockstep_yielded {i i' : Instance} (hi : C.Fresh i i') :
    C.Lockstep ctx Eq (Build.yielded i) (Build.yielded i') := by
  refine lockstep_ask fun w w' hstores _ => ⟨lockstep_pure ?_, hstores⟩
  exact (hstores.yields_fresh hi).symm

/-- New components are finished as values that differ in their place. -/
theorem lockstep_finish (hC : C.Fits n) {i i' : Instance} (hi : C.Fresh i i') :
    C.Lockstep ctx (fun h h' => h' = h.rename C.ρ) (Build.finish i) (Build.finish i') :=
  lockstep_ask fun _ _ hstores _ => ⟨lockstep_pure (hstores.handle_fresh hC hi), hstores⟩

/-- A page is wired to both of two new components. -/
theorem lockstep_wirePage {i i' : Instance} (hi : C.Fresh i i') (page : String) :
    C.Lockstep ctx (fun _ _ => True) (Build.wirePage i page) (Build.wirePage i' page) := by
  refine lockstep_ask fun w w' hstores _ => ⟨lockstep_pure trivial, ?_⟩
  have hget := hstores.get?_fresh hi
  obtain ⟨m, href, href'⟩ := hi.place
  unfold Context.answer
  dsimp only
  rw [hget]
  cases hc : w.store.get? i.ref with
  | none => exact hstores
  | some c =>
    show C.Mirrors (w.store.set i.ref _) (w'.store.set i'.ref _)
    -- the builder that both are given is that of the surroundings
    rw [Component.wirePage_rename, href, href']
    exact hstores.set_fresh (href ▸ Store.lt_size_of_get? hc) ((hstores.blind_fresh hi hc).wirePage page ctx.builder)

/-! ## §4 Setters -/

/-- Setters are applied at two sites of which one mirrors the other: they are for the same node and the same type of
component, and they take the writes that are to be made. -/
structure Sites (C : Comparison) (P : Write → Prop) (s s' : Site) : Prop where
  owner : s'.owner = s.owner
  typeName : s'.component.typeName = s.component.typeName
  takes : C.Takes P s.component.ref s'.component.ref

section Setters

variable {P : Write → Prop} {s s' : Site} {name : String}

/-- An object that is still to be built is built in the same way. -/
abbrev Builds (C : Comparison) (ctx : Context) (b : Nested) : Prop := C.Lockstep ctx C.Fresh b.build b.build

/-- A value is checked, then written; the checks differ in the value at most, which no impartial gate looks at. -/
theorem lockstep_writeChecked (hctx : ctx.Knows n) (hsites : C.Sites P s s') (name : String) (shown shown' : Value)
    {x : Write} (hx : P x) : C.Lockstep ctx (fun _ _ => True) (s.writeChecked name shown x)
      (s'.writeChecked name shown' (x.rename C.ρ)) := by
  apply Lockstep.bind (Q := fun _ _ => True)
  · exact lockstep_check hctx rfl (congrArg Owner.tag hsites.owner) rfl
  intro _ _ _
  exact lockstep_write hsites.takes name hx

/-- An element is a value that exists already, or an object that is built in both. -/
theorem lockstep_itemValue (hC : C.Fits n) {item : Item Nested} (hbelow : item.Below n)
    (hbuilds : ∀ b ∈ item.nested, C.Builds ctx b) :
    C.Lockstep ctx (fun v v' => v' = v.rename C.ρ) (Site.itemValue item) (Site.itemValue item) := by
  cases item with
  | value v => exact lockstep_pure (Value.rename_eq_self hC.old hbelow).symm
  | object b =>
    apply (hbuilds b List.mem_cons_self).bind
    intro i i' hi
    apply (lockstep_finish hC hi).bind
    rintro h _ rfl
    exact lockstep_pure rfl

/-- Elements are added one by one, by induction on the list; each may build an object of its own before. -/
theorem lockstep_addItems (hC : C.Fits n) (hctx : ctx.Knows n) (hsites : C.Sites P s s') {addMethod : String}
    (hP : ∀ v, P (.item addMethod v)) {items : List (Item Nested)} (hbelow : ∀ item ∈ items, item.Below n)
    (hbuilds : ∀ b ∈ items.flatMap Item.nested, C.Builds ctx b) :
    C.Lockstep ctx (fun _ _ => True) (s.addItems name addMethod items) (s'.addItems name addMethod items) := by
  induction items with
  | nil => exact lockstep_pure trivial
  | cons item rest ih =>
    rw [List.flatMap_cons, List.forall_mem_append] at hbuilds
    -- the first element is added in both before anything is done about the others
    obtain ⟨hitem, hrest⟩ := List.forall_mem_cons.mp hbelow
    apply (lockstep_itemValue hC hitem hbuilds.1).bind
    rintro v _ rfl
    apply (lockstep_writeChecked hctx hsites name v (v.rename C.ρ) (hP v)).bind
    intro _ _ _
    exact ih hrest hbuilds.2

/-- A callable has no objects, so that both builds get hold of the same one. -/
theorem lockstep_callableOf {source : CallableSource Nested} (hbuilds : ∀ b ∈ source.nested, C.Builds ctx b) :
    C.Lockstep ctx Eq (Site.callableOf name source) (Site.callableOf name source) := by
  cases source with
  | expression e => exact lockstep_bindCallable name e
  | ready c => exact lockstep_pure rfl
  | object b =>
    apply (hbuilds b List.mem_cons_self).bind
    intro i i' hi
    apply (lockstep_yielded hi).bind
    rintro answer _ rfl
    cases answer with
    | none => exact lockstep_fail _ _
    | some c => exact lockstep_pure rfl

/-- A callable is wired in both builds to the same node and to components of one type, then checked and installed. -/
theorem lockstep_installCallable (hctx : ctx.Knows n) (hsites : C.Sites P s s') (hP : ∀ c, P (.callable name c))
    {source : CallableSource Nested} (hbuilds : ∀ b ∈ source.nested, C.Builds ctx b) :
    C.Lockstep ctx (fun _ _ => True) (s.installCallable name source) (s'.installCallable name source) := by
  apply (lockstep_callableOf hbuilds).bind
  rintro c _ rfl
  rw [hsites.owner]
  apply (lockstep_wireOwner name c s.owner).bind
  rintro c₁ _ rfl
  apply (lockstep_wireComponent name c₁ hsites.typeName).bind
  rintro c₂ _ rfl
  apply Lockstep.bind (Q := fun _ _ => True)
  · exact lockstep_check hctx rfl (congrArg Owner.tag hsites.owner) rfl
  intro _ _ _
  exact lockstep_write hsites.takes name (hP c₂)

/-- An assignment does the same at two sites, if these take what it writes. It writes under its own name alone. -/
theorem lockstep_assign (hC : C.Fits n) (hctx : ctx.Knows n) (hsites : C.Sites P s s') {a : Assignment Nested}
    (hP : ∀ x : Write, x.Among (· = a.name) → P x) (hbelow : a.Below n) (hbuilds : ∀ b ∈ a.nested, C.Builds ctx b) :
    C.Lockstep ctx (fun _ _ => True) (s.assign a) (s'.assign a) := by
  have named : ∀ {x : Write}, x.key? = some a.name → P x := fun hkey => hP _ fun key h => by
    rw [hkey] at h
    exact (Option.some.inj h).symm
  -- what is written is a value that exists already, or one that both builds have just built
  cases a with
  | scalar name v type =>
    have hwrite := lockstep_writeChecked hctx hsites name v v (x := .property name v) (named rfl)
    rwa [Write.rename, Value.rename_eq_self hC.old hbelow] at hwrite
  | id text => exact lockstep_writeChecked hctx hsites _ _ _ (x := .id text) (named rfl)
  | rendered flag => exact lockstep_writeChecked hctx hsites _ _ _ (x := .rendered flag) (named rfl)
  | object name b =>
    apply (hbuilds b List.mem_cons_self).bind
    intro i i' hi
    apply (lockstep_finish hC hi).bind
    rintro h _ rfl
    exact lockstep_writeChecked hctx hsites _ _ _ (x := .property name (.object h)) (named rfl)
  | collection name addMethod items =>
    exact lockstep_addItems hC hctx hsites (fun v => hP _ nofun) hbelow hbuilds
  | method name source => exact lockstep_installCallable hctx hsites (fun c => named rfl) hbuilds

/-- What a value is resolved to depends on the value alone. -/
theorem lockstep_resolved (property expression : String) (f : Factory) (v : Value) :
    C.Lockstep ctx (fun a a' => a = a' ∧ f.assignValue v = .ok a) (Site.resolved property expression f v)
      (Site.resolved property expression f v) := by
  unfold Site.resolved
  cases f.assignValue v with
  | error e => exact lockstep_fail _ _
  | ok a => exact lockstep_pure ⟨rfl, rfl⟩

/-- Which writes a setter may make: any, or those under its own name if it is consistent. -/
def Covers (P : Write → Prop) (setter : Setter Template) : Prop :=
  (∀ x, P x) ∨ setter.Consistent ∧ ∀ x : Write, x.Among (· = setter.name) → P x

theorem Covers.of_among {setter : Setter Template} (h : Covers P setter) {x : Write}
    (hx : x.Among (· = setter.name)) : P x := h.elim (fun hall => hall x) fun hown => hown.2 x hx

/-- A setter does the same at two sites. One that is resolved at load time becomes an assignment, of the same name if
the setter is consistent. -/
theorem lockstep_apply (hC : C.Fits n) (hctx : ctx.Knows n) (hsites : C.Sites P s s') {setter : Setter Template}
    (hP : Covers P setter) (hbelow : setter.Below n)
    (hbuilds : ∀ t ∈ setter.nested, C.Lockstep ctx C.Fresh t.instantiate t.instantiate) :
    C.Lockstep ctx (fun _ _ => True) (s.apply (Template.nestSetter setter))
      (s'.apply (Template.nestSetter setter)) := by
  cases setter with
  | assign a =>
    refine lockstep_assign hC hctx hsites (fun x hx => hP.of_among ?_) (Template.below_nestAssignment hbelow)
      fun b hb => ?_
    · rwa [name_nestAssignment] at hx
    · rw [Template.nested_nestAssignment] at hb
      obtain ⟨t, ht, rfl⟩ := List.mem_map.mp hb
      exact hbuilds t ht
  | loadTime name e f =>
    apply Lockstep.bind (Q := fun _ _ => True)
    · exact lockstep_check hctx rfl (congrArg Owner.tag hsites.owner) rfl
    intro _ _ _
    apply (lockstep_evaluate hctx name e).bind
    rintro v _ ⟨rfl, hv⟩
    apply (lockstep_resolved name e f v).bind
    rintro a _ ⟨rfl, hassigned⟩
    -- the value has old objects alone, and so has the assignment that is made of it
    refine lockstep_assign hC hctx hsites (fun x hx => ?_) (Factory.below_assignValue hv hassigned) ?_
    · rcases hP with hall | ⟨⟨hname, hproper⟩, hown⟩
      · exact hall x
      · rw [hproper.name_assignValue hassigned, hname] at hx
        exact hown x hx
    · rw [(Factory.assignValue_spec hassigned).1]
      exact List.forall_mem_nil _
  | runTime name e type =>
    apply (lockstep_bindValue name e type).bind
    rintro b _ rfl
    apply Lockstep.bind (Q := fun _ _ => True)
    · exact lockstep_check hctx rfl (congrArg Owner.tag hsites.owner) rfl
    intro _ _ _
    exact lockstep_write hsites.takes name (x := .liveValue name b) (hP.of_among fun key h => (Option.some.inj h).symm)
  | loaded flag => exact lockstep_pure trivial

end Setters

/-! ## §5 Templates -/

/-- Setters are applied one by one, by induction on the list. -/
theorem lockstep_applyAll (hC : C.Fits n) (hctx : ctx.Knows n) {s s' : Site} (hsites : C.Sites (fun _ => True) s s')
    {setters : List (Setter Template)} (hbelow : ∀ setter ∈ setters, setter.Below n)
    (hbuilds : ∀ t ∈ setters.flatMap Setter.nested, C.Lockstep ctx C.Fresh t.instantiate t.instantiate) :
    C.Lockstep ctx (fun _ _ => True) (s.applyAll (setters.map Template.nestSetter))
      (s'.applyAll (setters.map Template.nestSetter)) := by
  induction setters with
  | nil => exact lockstep_pure trivial
  | cons setter rest ih =>
    rw [List.flatMap_cons, List.forall_mem_append] at hbuilds
    obtain ⟨hsetter, hrest⟩ := List.forall_mem_cons.mp hbelow
    apply (lockstep_apply hC hctx hsites (.inl fun _ => trivial) hsetter hbuilds.1).bind
    intro _ _ _
    exact ih hrest hbuilds.2

end Comparison

/-- A template is built in the same way wherever the build begins. -/
theorem Template.lockstep_instantiate {C : Comparison} {ctx : Context} {n : Nat} (hC : C.Fits n) (hctx : ctx.Knows n)
    (t : Template) (ht : t.Knows n) : C.Lockstep ctx C.Fresh t.instantiate t.instantiate := by
  induction t using Template.nested_induction with
  | step t ih =>
    -- nested templates know what is known around them, and are built in lockstep by induction on nesting
    obtain ⟨hblueprint, hsetters⟩ := ht t (.refl t)
    rw [Template.instantiate_eq]
    apply (Comparison.lockstep_construct hC hblueprint).bind
    intro i i' hi
    have hsites : C.Sites (fun _ => True) ⟨t.owner, i⟩ ⟨t.owner, i'⟩ := ⟨rfl, hi.typeName, hi.takes⟩
    have hbuilds : ∀ u ∈ t.setters.flatMap Setter.nested, C.Lockstep ctx C.Fresh u.instantiate u.instantiate :=
      fun u hu => ih u hu fun v hv => ht v (Relation.ReflTransGen.head hu hv)
    apply (Comparison.lockstep_applyAll hC hctx hsites hsetters hbuilds).bind
    intro _ _ _
    -- the page is wired last
    cases t.definition.includedPage with
    | none => exact Comparison.lockstep_pure hi
    | some page =>
      apply (Comparison.lockstep_wirePage hi page).bind
      intro _ _ _
      exact Comparison.lockstep_pure hi

end PageTemplates
