import PageTemplates.Host.World
import PageTemplates.Proofs.Build.Gated
import PageTemplates.Proofs.Program.Answers

/-!
# What bags hold after a build

A host that builds bags alone keeps account of the writes: a bag holds what has been written to it, write by write
(`bag?_of_answers`), each component that is constructed gets a place that nothing else gets (`bag?_of_constructed`), and
wiring a page changes nothing but what the bag includes.
-/

namespace PageTemplates

open Program (Answers)

/-! ## §1 Bags -/

/-- What has been recorded in a bag, whatever page it includes. -/
def Bag.recorded (b : Bag) : Bag := { b with inclusion := none }

/-- What a bag includes has no influence on what it records. -/
theorem Bag.recorded_write (b : Bag) (w : Write) : (b.write w).recorded = b.recorded.write w := by
  cases w <;> rfl

theorem Bag.typeName_foldl_write (b : Bag) (ws : List Write) : (ws.foldl Bag.write b).typeName = b.typeName := by
  induction ws generalizing b with
  | nil => rfl
  | cons w rest ih =>
    -- the first write leaves the type, and so do the others by induction
    refine (ih (b.write w)).trans ?_
    cases w <;> rfl

/-- The name that a write is filed under; elements are filed under the operation that adds them. -/
def Write.key? : Write → Option String
  | .property name _ | .liveValue name _ | .callable name _ => some name
  | .id _ => some idName
  | .rendered _ => some renderedName
  | .item .. => none

/-- A live value is installed. -/
def Write.IsLive : Write → Prop
  | .liveValue .. => True
  | _ => False

/-- A callable is installed. -/
def Write.IsCallable : Write → Prop
  | .callable .. => True
  | _ => False

namespace Bag

variable {b : Bag} {w : Write}

theorem liveValues_write (h : ¬ w.IsLive) : (b.write w).liveValues = b.liveValues := by
  cases w with
  | liveValue name v => exact absurd trivial h
  | property name v | id text | rendered flag | item addMethod v | callable name c => rfl

theorem callables_write (h : ¬ w.IsCallable) : (b.write w).callables = b.callables := by
  cases w with
  | callable name c => exact absurd trivial h
  | property name v | id text | rendered flag | item addMethod v | liveValue name v => rfl

/-- A bag has nothing that is filed under a name. -/
structure Lacks (name : String) (b : Bag) : Prop where
  id : name = idName → b.id = none
  property : b.properties.find? name = none
  liveValue : b.liveValues.find? name = none
  callable : b.callables.find? name = none

theorem lacks_empty (name typeName : String) : (empty typeName).Lacks name := ⟨fun _ => rfl, rfl, rfl, rfl⟩

/-- What is filed under another name makes no difference. -/
theorem Lacks.write {name : String} (h : b.Lacks name) (hw : w.key? ≠ some name) : (b.write w).Lacks name := by
  have hother : ∀ {other}, w.key? = some other → other ≠ name := fun hkey heq => hw (heq ▸ hkey)
  -- a write is recorded in one of the four places, and there under its own name alone
  cases w with
  | property other v =>
    exact { h with property := (b.properties.find?_insert ..).trans ((if_neg (hother rfl)).trans h.property) }
  | id text => exact { h with id := fun heq => absurd heq.symm (hother rfl) }
  | rendered flag =>
    exact { h with property := (b.properties.find?_insert ..).trans ((if_neg (hother rfl)).trans h.property) }
  | item addMethod v => exact { h with }
  | liveValue other v =>
    exact { h with liveValue := (b.liveValues.find?_insert ..).trans ((if_neg (hother rfl)).trans h.liveValue) }
  | callable other c =>
    exact { h with callable := (b.callables.find?_insert ..).trans ((if_neg (hother rfl)).trans h.callable) }

end Bag

/-- A component of the definition begins as a bag to which nothing has been written. -/
def Definition.BuildsEmptyBag (d : Definition) : Prop :=
  ∃ typeName, d.blueprint = .mk .bag typeName [] ∨ d.blueprint = .mk .including typeName []

/-- What has been recorded in the bag at a place, if there is a bag. -/
def World.bag? (w : World) (ref : Nat) : Option Bag :=
  match w.store.get? ref with
  | some (.bag b) => some b.recorded
  | some (.plain _) | none => none

/-- The number of components that a host has. -/
def World.size (w : World) : Nat := w.store.cells.size

/-- The writes on the component at a place, in order. -/
def writesOn (ref : Nat) (events : List BuildEvent) : List Write :=
  events.filterMap fun e => match e.request with
    | .write i w => if i.ref = ref then some w else none
    | _ => none

theorem writesOn_write (ref : Nat) (i : Instance) (w : Write) (answer : (BuildRequest.write i w).Answer) :
    writesOn ref [⟨.write i w, answer⟩] = if i.ref = ref then [w] else [] := by
  by_cases h : i.ref = ref
  · simp [writesOn, h]
  · simp [writesOn, h]

theorem writesOn_append (ref : Nat) (first second : List BuildEvent) :
    writesOn ref (first ++ second) = writesOn ref first ++ writesOn ref second := List.filterMap_append

theorem writesOn_flatten (ref : Nat) (parts : List (List BuildEvent)) :
    writesOn ref parts.flatten = parts.flatMap (writesOn ref) := by
  induction parts with
  | nil => rfl
  | cons part rest ih => rw [List.flatten_cons, writesOn_append, ih, List.flatMap_cons]

theorem mem_writesOn {ref : Nat} {events : List BuildEvent} {w : Write} (h : w ∈ writesOn ref events) :
    ∃ e ∈ events, ∃ i : Instance, e.request = .write i w ∧ i.ref = ref := by
  obtain ⟨e, he, hw⟩ := List.mem_filterMap.mp h
  refine ⟨e, he, ?_⟩
  split at hw
  · rename_i i change hrequest
    split at hw
    · rename_i href
      cases hw
      exact ⟨i, hrequest, href⟩
    · cases hw
  · cases hw

theorem writesOn_eq_nil {ref : Nat} {events : List BuildEvent}
    (h : ∀ e ∈ events, ∀ i w, e.request = .write i w → i.ref ≠ ref) : writesOn ref events = [] := by
  -- a write on the component would have been put by one of the requests
  refine List.eq_nil_iff_forall_not_mem.mpr fun w hw => ?_
  obtain ⟨e, he, i, hrequest, href⟩ := mem_writesOn hw
  exact h e he i w hrequest href

/-! ## §2 One request -/

namespace World

variable {w : World} {ref : Nat} {b : Bag}

/-- There is a bag at a place if the store has one there, which may besides include a page. -/
theorem bag?_eq_some : w.bag? ref = some b ↔ ∃ held, w.store.get? ref = some (.bag held) ∧ held.recorded = b := by
  unfold bag?
  constructor
  · intro h
    split at h
    · rename_i held hheld
      exact ⟨held, hheld, Option.some.inj h⟩
    · cases h
    · cases h
  · rintro ⟨held, hheld, rfl⟩
    rw [hheld]

end World

theorem Store.get?_set {s : Store} {ref : Nat} (c : Component) (h : ref < s.cells.size) (other : Nat) :
    (s.set ref c).get? other = if ref = other then some c else s.get? other := by
  unfold Store.set Store.get?
  rw [Array.getElem?_setIfInBounds]
  simp [h]

theorem Store.size_set (s : Store) (ref : Nat) (c : Component) : (s.set ref c).cells.size = s.cells.size :=
  Array.size_setIfInBounds

/-- A new component gets the next place. -/
theorem World.instantiate_emptyBag {d : Definition} (hd : d.BuildsEmptyBag) (w : World) :
    ∃ held typeName, held.recorded = .empty typeName ∧ (w.instantiate d).1.ref = w.size ∧
      (w.instantiate d).2.store = (w.store.add (.bag held)).2 := by
  -- a bag begins empty whether it can include a page or not
  obtain ⟨typeName, hd | hd⟩ := hd
  · refine ⟨.empty typeName, typeName, rfl, ?_⟩
    unfold World.instantiate
    rw [hd]
    exact ⟨rfl, rfl⟩
  · refine ⟨.including typeName, typeName, rfl, ?_⟩
    unfold World.instantiate
    rw [hd]
    exact ⟨rfl, rfl⟩

theorem World.size_instantiate {d : Definition} (hd : d.BuildsEmptyBag) (w : World) :
    (w.instantiate d).2.size = w.size + 1 := by
  obtain ⟨held, typeName, _, _, hstore⟩ := w.instantiate_emptyBag hd
  rw [size, hstore]
  exact Array.size_push _

theorem World.store_write (w : World) (ref : Nat) (change : Write) :
    (w.write ref change).2.store = (w.store.write ref change).2 := by
  unfold World.write
  split <;> rfl

section Answer

variable {ctx : Context} {w : World} {ref : Nat} {b : Bag}

/-- A write is recorded in the bag that it goes to. -/
theorem World.bag?_write (h : w.bag? ref = some b) (i : Instance) (change : Write) :
    (w.write i.ref change).2.bag? ref = some (if i.ref = ref then b.write change else b) := by
  obtain ⟨held, hheld, rfl⟩ := bag?_eq_some.mp h
  rw [bag?_eq_some, store_write]
  unfold Store.write
  -- a write goes to a place that is not taken, to the bag itself, or to another component
  cases hi : w.store.get? i.ref with
  | none =>
    have hne : i.ref ≠ ref := by
      rintro rfl
      rw [hheld] at hi
      cases hi
    exact ⟨held, hheld, (if_neg hne).symm⟩
  | some c =>
    have hlt : i.ref < w.store.cells.size := (Array.getElem?_eq_some_iff.mp hi).1
    by_cases href : i.ref = ref
    · rw [href, hheld] at hi
      cases hi
      rw [if_pos href]
      refine ⟨held.write change, ?_, held.recorded_write change⟩
      exact (Store.get?_set _ hlt ref).trans (if_pos href)
    · rw [if_neg href]
      exact ⟨held, (Store.get?_set _ hlt ref).trans ((if_neg href).trans hheld), rfl⟩

/-- Wiring a page leaves what has been recorded. -/
theorem World.bag?_wirePage (h : w.bag? ref = some b) (i : Instance) (page : String) :
    (ctx.answer (.wirePage i page) w).2.bag? ref = some b := by
  obtain ⟨held, hheld, rfl⟩ := bag?_eq_some.mp h
  unfold Context.answer
  dsimp only
  split
  · rename_i c hc
    have hlt : i.ref < w.store.cells.size := (Array.getElem?_eq_some_iff.mp hc).1
    -- the wired component is the bag, of which the page is not recorded, or it is another one
    by_cases href : i.ref = ref
    · rw [href, hheld] at hc
      cases hc
      refine bag?_eq_some.mpr ⟨_, (Store.get?_set _ hlt ref).trans (if_pos href), ?_⟩
      split <;> rfl
    · exact bag?_eq_some.mpr ⟨held, (Store.get?_set _ hlt ref).trans ((if_neg href).trans hheld), rfl⟩
  · exact h

/-- No place is given back. -/
theorem Context.size_answer {r : BuildRequest} (hd : ∀ d, r = .construct d → d.BuildsEmptyBag) :
    w.size ≤ (ctx.answer r w).2.size := by
  -- only constructing adds a place, and nothing removes one
  cases r with
  | construct d =>
    have hsize : (ctx.answer (.construct d) w).2.size = w.size + 1 := World.size_instantiate (hd d rfl) w
    omega
  | write i change =>
    have hstore : (ctx.answer (.write i change) w).2.store = (w.store.write i.ref change).2 := w.store_write i.ref change
    rw [World.size, World.size, hstore]
    unfold Store.write
    split
    · exact Nat.le_refl _
    · exact Nat.le_of_eq (Store.size_set _ _ _).symm
  | wirePage i page =>
    unfold Context.answer
    dsimp only
    split
    · exact Nat.le_of_eq (Store.size_set _ _ _).symm
    · exact Nat.le_refl _
  | check c =>
    unfold Context.answer
    dsimp only
    split <;> exact Nat.le_refl _
  | evaluate e | bindValue e type | bindCallable e | wireOwner c owner | wireComponent c i | yielded i | finish i =>
    exact Nat.le_refl _

/-- What a request does to a bag: it is written to, or stays as it is. -/
theorem Context.bag?_answer {r : BuildRequest} (hd : ∀ d, r = .construct d → d.BuildsEmptyBag)
    (h : w.bag? ref = some b) :
    (ctx.answer r w).2.bag? ref = some ((writesOn ref [⟨r, (ctx.answer r w).1⟩]).foldl Bag.write b) := by
  cases r with
  | construct d =>
    obtain ⟨held, typeName, _, _, hstore⟩ := w.instantiate_emptyBag (hd d rfl)
    obtain ⟨own, hown, rfl⟩ := World.bag?_eq_some.mp h
    have hadded : (ctx.answer (.construct d) w).2.store = (w.store.add (.bag held)).2 := hstore
    refine World.bag?_eq_some.mpr ⟨own, ?_, rfl⟩
    -- the new component is put behind all others
    rw [hadded]
    have hlt : ref < w.store.cells.size := (Array.getElem?_eq_some_iff.mp hown).1
    exact (Array.getElem?_push_lt hlt).trans ((Array.getElem?_eq_getElem hlt).symm.trans hown)
  | write i change =>
    rw [writesOn_write]
    refine (World.bag?_write h i change).trans (congrArg some ?_)
    split <;> rfl
  | wirePage i page => exact World.bag?_wirePage h i page
  | check c =>
    unfold Context.answer
    dsimp only
    split <;> exact h
  | evaluate e | bindValue e type | bindCallable e | wireOwner c owner | wireComponent c i | yielded i | finish i =>
    exact h

end Answer

/-! ## §3 All requests of a build -/

section Answers

variable {ctx : Context} {w w' : World} {ref : Nat} {b : Bag} {events : List BuildEvent}

/-- Whatever is constructed begins as an empty bag. -/
def BuildsBags (events : List BuildEvent) : Prop := ∀ d i, constructed d i ∈ events → d.BuildsEmptyBag

theorem BuildsBags.head {e : BuildEvent} (h : BuildsBags (e :: events)) :
    ∀ d, e.request = .construct d → d.BuildsEmptyBag := by
  obtain ⟨r, answer⟩ := e
  rintro d rfl
  exact h d answer List.mem_cons_self

/-- Whatever is constructed in a part of a build is constructed in the build. -/
theorem BuildsBags.sub {others : List BuildEvent} (h : BuildsBags events) (hsub : ∀ e ∈ others, e ∈ events) :
    BuildsBags others := fun d i hi => h d i (hsub _ hi)

theorem size_le_of_answers (h : Answers ctx.answer w events w') (hd : BuildsBags events) : w.size ≤ w'.size := by
  -- by induction on the requests, the places being those of one request and of the others
  induction h with
  | nil w => exact Nat.le_refl _
  | cons r _ ih =>
    exact Nat.le_trans (Context.size_answer hd.head) (ih (hd.sub fun _ he => List.mem_cons_of_mem _ he))

/-- A bag holds what has been written to it. -/
theorem bag?_of_answers (h : Answers ctx.answer w events w') (hd : BuildsBags events) (hb : w.bag? ref = some b) :
    w'.bag? ref = some ((writesOn ref events).foldl Bag.write b) := by
  induction h generalizing b with
  | nil w => exact hb
  | @cons r w w' events _ ih =>
    have hsplit : writesOn ref (⟨r, (ctx.answer r w).1⟩ :: events) =
        writesOn ref [⟨r, (ctx.answer r w).1⟩] ++ writesOn ref events := writesOn_append ref [_] events
    -- the write of the first request is the first one, and the others come after it by induction
    rw [hsplit, List.foldl_append]
    exact ih (hd.sub fun _ he => List.mem_cons_of_mem _ he) (Context.bag?_answer hd.head hb)

/-- What is constructed first gets the next place, and is an empty bag there. -/
theorem answers_constructed {d : Definition} {i : Instance}
    (h : Answers ctx.answer w (constructed d i :: events) w') (hd : d.BuildsEmptyBag) :
    i.ref = w.size ∧ ∃ m typeName, Answers ctx.answer m events w' ∧ m.size = w.size + 1 ∧
      m.bag? i.ref = some (.empty typeName) := by
  obtain ⟨hanswer, hrest⟩ := Program.answers_cons h
  obtain ⟨held, typeName, hheld, href, hstore⟩ := w.instantiate_emptyBag hd
  have hi : i = (w.instantiate d).1 := hanswer
  rw [hi]
  refine ⟨href, (w.instantiate d).2, typeName, hrest, World.size_instantiate hd w, ?_⟩
  refine World.bag?_eq_some.mpr ⟨held, ?_, hheld⟩
  rw [hstore, href]
  exact w.store.get?_add (.bag held)

/-- The places of what is constructed are those that have been filled meanwhile. -/
theorem ref_of_answers (h : Answers ctx.answer w events w') (hd : BuildsBags events) {d : Definition}
    {i : Instance} (hi : constructed d i ∈ events) : w.size ≤ i.ref ∧ i.ref < w'.size := by
  obtain ⟨before, after, rfl⟩ := List.append_of_mem hi
  obtain ⟨m, hbefore, hrest⟩ := Program.answers_append.mp h
  obtain ⟨href, n, _, hafter, hsize, _⟩ := answers_constructed hrest (hd d i hi)
  -- what came before has filled places, and what comes after fills more
  have hle := size_le_of_answers hbefore (hd.sub fun _ he => List.mem_append_left _ he)
  have hge := size_le_of_answers hafter (hd.sub fun _ he => List.mem_append_right _ (List.mem_cons_of_mem _ he))
  omega

/-- What is constructed gets a place that nothing else gets, and holds there what is written to it from then on. -/
theorem bag?_of_constructed {before after : List BuildEvent} {d : Definition} {i : Instance}
    (h : Answers ctx.answer w (before ++ constructed d i :: after) w')
    (hd : BuildsBags (before ++ constructed d i :: after)) :
    (∀ other j, constructed other j ∈ before ++ after → j.ref ≠ i.ref) ∧
      ∃ typeName, w'.bag? i.ref = some ((writesOn i.ref after).foldl Bag.write (.empty typeName)) := by
  -- the requests are cut where the component is constructed
  obtain ⟨m, hbefore, hrest⟩ := Program.answers_append.mp h
  have hfirst : BuildsBags before := hd.sub fun _ he => List.mem_append_left _ he
  have hsecond : BuildsBags after := hd.sub fun _ he => List.mem_append_right _ (List.mem_cons_of_mem _ he)
  have hbegins := hd d i (List.mem_append_right _ List.mem_cons_self)
  obtain ⟨href, n, typeName, hafter, hsize, hempty⟩ := answers_constructed hrest hbegins
  refine ⟨fun other j hj => ?_, typeName, bag?_of_answers hafter hsecond hempty⟩
  rcases List.mem_append.mp hj with hj | hj
  · -- what was constructed earlier has a place that was filled before
    have hlt := (ref_of_answers hbefore hfirst hj).2
    omega
  · -- what is constructed later gets a place that is still free
    have hge := (ref_of_answers hafter hsecond hj).1
    omega

end Answers

end PageTemplates
