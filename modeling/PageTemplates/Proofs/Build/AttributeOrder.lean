import Mathlib.Data.List.Perm.Basic
import PageTemplates.Proofs.Build.Furnished
import PageTemplates.Proofs.Template.Furnishing

/-!
# The order of the attributes

A template is given its setters in one order or in another. For a component that is a bag this makes no difference but
to the order of its elements (`attribute_order`): the component is built for the one order just if it is built for the
other; what it holds under each name is the same, and so are the objects that have been constructed, up to a renaming of
their places; and the elements that one setter adds stay together and in order.

## Structure

- §1 says in what two worlds and two bags may differ.
- §2 is about the new component, and about what is left to do when the setters have been applied.
- §3 compares two orders of setters.
- §4 is about templates that have been given setters in different orders.
-/

namespace PageTemplates

open Program (Event Runs)

/-! ## §1 The same up to places -/

/-- Two bags hold the same up to a renaming of places, and have the same elements in some order. -/
structure Bag.Matches (ρ : Nat → Nat) (b b' : Bag) : Prop where
  typeName : b'.typeName = b.typeName
  inclusion : b'.inclusion = b.inclusion
  id : b'.id = b.id
  properties : ∀ name, b'.properties.find? name = (b.properties.find? name).map (Value.rename ρ)
  liveValues : ∀ name, b'.liveValues.find? name = b.liveValues.find? name
  callables : ∀ name, b'.callables.find? name = b.callables.find? name
  items : b'.items.Perm (b.items.map (renameElement ρ))

/-- A component has been built in a world in two ways, which have come to two worlds that are the same up to a
one-to-one renaming of the places of new components, but for the component itself. -/
structure World.Matches (w : World) (ρ : Nat → Nat) (i : Instance) (v v' : World) : Prop where
  bijOn : Set.BijOn ρ (Set.Iio v.size) (Set.Iio v'.size)
  self : ρ i.ref = i.ref
  /-- What was there before has stayed as it was, at its place. -/
  old : ∀ r < w.size, ρ r = r ∧ v.store.get? r = w.store.get? r ∧ v'.store.get? r = w.store.get? r
  new : ∀ r < v.size, w.size ≤ r → r ≠ i.ref → v'.store.get? (ρ r) = (v.store.get? r).map (Component.rename ρ)

/-- Setters that are applied in turn add elements behind those that were there: each setter its own, by its name. -/
def Context.AddsInTurn (ctx : Context) (s : Site) (w : World) (first : List (String × Value))
    (added : String → List (String × Value)) (setters : List (Setter Template)) : Prop :=
  ∀ done, done <+: setters → ∃ v b, ctx.run (s.applyAll (done.map Template.nestSetter)) w = (.ok (), v) ∧
    v.store.get? s.component.ref = some (.bag b) ∧ b.items = first ++ done.flatMap fun x => added x.name

/-! ## §2 Before and after the setters -/

/-- A component of the definition is a bag. -/
def Definition.ConstructsBag (d : Definition) : Prop :=
  ∃ typeName properties, d.blueprint = .mk .bag typeName properties ∨ d.blueprint = .mk .including typeName properties

section Construct

variable {w : World} {d : Definition}

theorem World.ref_instantiate (w : World) (d : Definition) : (w.instantiate d).1.ref = w.size := by
  unfold instantiate
  cases d.blueprint
  rfl

/-- What is constructed for a definition has objects at places that are taken by then; what was there before stays. -/
theorem World.store_instantiate (hd : d.blueprint.Below w.size) :
    (∀ r < w.size, (w.instantiate d).2.store.get? r = w.store.get? r) ∧
      ∀ ρ : Nat → Nat, Function.Injective ρ → (∀ r < (w.instantiate d).2.size, ρ r = r) → ∀ r, w.size ≤ r →
        ((w.instantiate d).2.store.get? r).map (Component.rename ρ) = (w.instantiate d).2.store.get? r := by
  -- constructing is compared with itself: places that are taken by then stay, and all others are those of new
  -- components, no bag being written to
  have hle : w.size ≤ (w.instantiate d).2.size := Blueprint.size_le ⟨w.store, []⟩ d.blueprint
  have mirrors : ∀ (ρ : Nat → Nat) (hρ : Function.Injective ρ), (∀ r < (w.instantiate d).2.size, ρ r = r) →
      (Comparison.mk w.store w.store ρ hρ (w.instantiate d).2.size w.size fun _ => False).Mirrors
        (w.instantiate d).2.store (w.instantiate d).2.store := by
    intro ρ hρ hold
    let C : Comparison := ⟨w.store, w.store, ρ, hρ, (w.instantiate d).2.size, w.size, fun _ => False⟩
    have hC : C.Fits w.size := ⟨fun r hr => hold r (Nat.lt_of_lt_of_le hr hle), fun i hi => hold _ hi⟩
    have hstart : C.MirrorsIn ⟨w.store, []⟩ ⟨w.store, []⟩ := C.mirrors_start
    exact (Blueprint.build_mirrors hC hstart d.blueprint hd (Nat.le_refl _)).2
  constructor
  · intro r hr
    exact (mirrors id Function.injective_id fun _ _ => rfl).left r hr (Nat.ne_of_lt hr)
  · intro ρ hρ hold r hr
    obtain ⟨m, rfl⟩ := Nat.exists_eq_add_of_le hr
    exact ((mirrors ρ hρ hold).fresh m).symm

theorem World.bag_instantiate (hbag : d.ConstructsBag) (hd : d.blueprint.Below w.size) :
    ∃ b, (w.instantiate d).2.store.get? (w.instantiate d).1.ref = some (.bag b) := by
  obtain ⟨kind, typeName, properties, b, hblueprint, hinitial⟩ :
      ∃ kind typeName properties b, d.blueprint = .mk kind typeName properties ∧
        Blueprint.initial kind typeName = .bag b := by
    obtain ⟨typeName, properties, h | h⟩ := hbag <;> exact ⟨_, typeName, properties, _, h, rfl⟩
  -- the properties of the blueprint may construct more components, but none at the place of the bag
  rw [hblueprint] at hd
  -- the new bag takes the properties of the blueprint
  let added := (w.store.add (.bag b)).2
  let C : Comparison := ⟨added, added, id, Function.injective_id, (writeDrafts w.size ⟨added, []⟩ properties).size,
    w.size, fun _ => True⟩
  have hb : added.get? w.size = some (.bag b) := w.store.get?_add (.bag b)
  have hC : C.Fits w.size := ⟨fun _ _ => rfl, fun _ _ => rfl⟩
  have hstart : C.MirrorsIn ⟨added, []⟩ ⟨added, []⟩ := C.mirrors_start
  have htakes : C.Takes (Write.Among C.names) w.size w.size := Comparison.takes_site hb hb
  have hstores := writeDrafts_mirrors hC (fun s t x h _ => htakes s t x h fun _ _ => trivial) hstart properties hd.2
    (Nat.le_refl _)
  obtain ⟨e, _, he, -⟩ := hstores.site b b hb hb
  refine ⟨e, ?_⟩
  have hstore : (w.instantiate d).2.store = (writeDrafts w.size ⟨added, []⟩ properties).store := by
    unfold instantiate construct
    simp only [hblueprint, Blueprint.build, hinitial]
    rfl
  rw [w.ref_instantiate, hstore]
  exact he

end Construct

/-- The bag with the page that it includes, if it includes one. -/
def Bag.wired (page : Option String) (builder : Option PageBuilder) (b : Bag) : Bag :=
  match page, builder with
  | none, _ => b
  | some page, none => b.setPage page
  | some page, some builder => (b.setPage page).setBuilder builder

theorem Bag.items_wired (page : Option String) (builder : Option PageBuilder) (b : Bag) :
    (b.wired page builder).items = b.items := by
  cases page <;> cases builder <;> rfl

theorem Bag.Matches.wired {ρ : Nat → Nat} {b b' : Bag} (h : b.Matches ρ b') (page : Option String)
    (builder : Option PageBuilder) : (b.wired page builder).Matches ρ (b'.wired page builder) := by
  cases page with
  | none => exact h
  | some page =>
    have hpage : (b'.setPage page).inclusion = (b.setPage page).inclusion := congrArg (Option.map _) h.inclusion
    cases builder with
    | none => exact { h with inclusion := hpage }
    | some builder => exact { h with inclusion := congrArg (Option.map _) hpage }

namespace Context

variable {ctx : Context} {v : World} {i : Instance} {b : Bag}

theorem exists_run_of_isOk {α : Type} {p : Build α} {w : World} (h : (ctx.run p w).1.isOk) :
    ∃ a v, ctx.run p w = (.ok a, v) := by
  obtain ⟨a, ha⟩ := Outcome.exists_of_isOk h
  exact ⟨a, _, Prod.ext ha rfl⟩

/-- The world when the page is wired that a component includes, if it includes one. -/
def finished (ctx : Context) (d : Definition) (i : Instance) (v : World) : World :=
  match d.includedPage with
  | some page => (ctx.answer (.wirePage i page) v).2
  | none => v

theorem store_finished (d : Definition) (hb : v.store.get? i.ref = some (.bag b)) :
    (ctx.finished d i v).store.cells.size = v.store.cells.size ∧ ∀ r, (ctx.finished d i v).store.get? r =
      if i.ref = r then some (.bag (b.wired d.includedPage ctx.builder)) else v.store.get? r := by
  unfold finished
  -- nothing is done without a page, and with one the bag is the only component that changes
  cases d.includedPage with
  | none =>
    refine ⟨rfl, fun r => ?_⟩
    by_cases href : i.ref = r
    · rw [if_pos href, ← href]
      exact hb
    · rw [if_neg href]
  | some page =>
    have hanswer : (ctx.answer (.wirePage i page) v).2.store =
        v.store.set i.ref (.bag (b.wired (some page) ctx.builder)) := by
      unfold answer
      simp only [hb, Component.wirePage, Bag.wired]
      cases ctx.builder <;> rfl
    constructor
    · exact (congrArg (fun s : Store => s.cells.size) hanswer).trans (Store.size_set ..)
    · intro r
      exact (congrArg (Store.get? · r) hanswer).trans (Store.get?_set _ (Store.lt_size_of_get? hb) r)

/-- A component is constructed, then the setters are applied to it, and then its page is wired. -/
theorem run_instantiate_eq_ok {t : Template} {w : World} :
    ctx.run t.instantiate w = (.ok i, v) ↔ i = (w.instantiate t.definition).1 ∧
      ∃ u, ctx.run (Site.applyAll ⟨t.owner, i⟩ (t.setters.map Template.nestSetter)) (w.instantiate t.definition).2 =
        (.ok (), u) ∧ v = ctx.finished t.definition i u := by
  have hconstruct : ctx.run (Build.construct t.definition) w =
      (.ok (w.instantiate t.definition).1, (w.instantiate t.definition).2) := rfl
  rw [Template.instantiate_eq, Template.assemble, run_bind, hconstruct]
  dsimp only
  rw [run_bind]
  -- both ways the run is taken apart at the setters: what comes before cannot fail, and neither can what comes after
  constructor
  · intro h
    generalize hsite : Site.mk t.owner (w.instantiate t.definition).1 = site at h
    cases happlied : ctx.run (site.applyAll (t.setters.map Template.nestSetter)) (w.instantiate t.definition).2 with
    | mk result u =>
      rw [happlied] at h
      cases result with
      | error e => cases h
      | ok _ =>
        have hi : i = (w.instantiate t.definition).1 ∧
            v = ctx.finished t.definition (w.instantiate t.definition).1 u := by
          unfold finished
          cases hpage : t.definition.includedPage <;> rw [hpage] at h <;> cases h <;> exact ⟨rfl, rfl⟩
        obtain ⟨rfl, rfl⟩ := hi
        exact ⟨rfl, u, hsite ▸ happlied, rfl⟩
  · rintro ⟨rfl, u, happlied, rfl⟩
    rw [happlied]
    unfold finished
    cases t.definition.includedPage <;> rfl

end Context

/-! ## §3 Two orders of setters -/

section Orders

variable {ctx : Context} {s : Site} {n : Nat} {w v v' : World} {b d d' : Bag} {ρ : Nat → Nat}
  {xs xs' : List Application}

/-- What the application of a name has added. -/
def addedBy (xs : List Application) (name : String) : List (String × Value) :=
  match xs.find? fun x => x.name = name with
  | some x => x.added
  | none => []

theorem addedBy_name {x : Application} (hnodup : (xs.map Application.name).Nodup) (hx : x ∈ xs) :
    addedBy xs x.name = x.added := by
  induction xs with
  | nil => cases hx
  | cons first rest ih =>
    obtain ⟨hfirst, hrest⟩ := List.nodup_cons.mp hnodup
    unfold addedBy
    rw [List.find?_cons]
    -- names are different, so that the application that is found for a name is the one that has it
    rcases List.mem_cons.mp hx with rfl | hmem
    · simp
    · have hne : first.name ≠ x.name := fun heq => hfirst (heq ▸ List.mem_map_of_mem hmem)
      simpa [hne, addedBy] using ih hrest hmem

/-- The elements that some of the setters have added, by the names of the setters. -/
theorem flatMap_addedBy {done : List Application} (hnodup : (xs.map Application.name).Nodup)
    (hdone : ∀ x ∈ done, x ∈ xs) (f : String × Value → String × Value) :
    (done.map Application.setter).flatMap (fun setter => (addedBy xs setter.name).map f) =
      done.flatMap fun x => x.added.map f := by
  rw [List.flatMap_map]
  exact List.flatMap_congr fun x hx => by rw [← addedBy_name hnodup (hdone x hx)]; rfl

namespace Furnished

variable {site : Nat}

/-- Applied in two orders, setters do the same to a bag up to the renaming. -/
theorem entry_eq (h : Furnished id site xs w b v d) (h' : Furnished ρ site xs' w b v' d') (hperm : xs'.Perm xs)
    (hb : b.rename ρ = b) (name : String) : d'.entry name = (d.entry name).rename ρ := by
  by_cases hname : name ∈ xs.map Application.name
  · obtain ⟨x, hx, rfl⟩ := List.mem_map.mp hname
    rw [h'.entry x (hperm.mem_iff.mpr hx), h.entry x hx]
    exact congrArg _ (Bag.Entry.rename_id _).symm
  · rw [h.others name hname, h'.others name fun hmem => hname ((hperm.map _).mem_iff.mp hmem), ← Bag.entry_rename, hb]

theorem matched (h : Furnished id site xs w b v d) (h' : Furnished ρ site xs' w b v' d') (hperm : xs'.Perm xs)
    (hb : b.rename ρ = b) : d.Matches ρ d' := by
  have hentry := h.entry_eq h' hperm hb
  have hitems : b.items.map (renameElement ρ) = b.items := congrArg Bag.items hb
  -- the two bags hold the same under each name; their elements are those of the setters, in the orders of these
  refine ⟨h'.typeName.trans h.typeName.symm, h'.inclusion.trans h.inclusion.symm, ?_, fun name => ?_, fun name => ?_,
    fun name => ?_, ?_⟩
  · simpa [Bag.entry, Bag.Entry.rename] using congrArg Bag.Entry.id (hentry idName)
  · exact congrArg Bag.Entry.property (hentry name)
  · exact congrArg Bag.Entry.liveValue (hentry name)
  · exact congrArg Bag.Entry.callable (hentry name)
  · rw [h'.items, h.items, List.map_append, List.map_flatMap, hitems]
    refine List.Perm.append_left _ (hperm.flatMap fun x _ => ?_)
    rw [map_renameElement_id]

end Furnished

/-- A bag that only has objects at places that are taken. -/
def Bag.Settled (n : Nat) (b : Bag) : Prop :=
  ∀ ρ : Nat → Nat, Function.Injective ρ → (∀ r < n, ρ r = r) → b.rename ρ = b

/-- Setters have succeeded in two orders: what each of them has done, and how the places of the one order become those
of the other. -/
structure Reordered (ctx : Context) (s : Site) (w : World) (b : Bag) (ρ : Nat → Nat) (xs xs' : List Application)
    (v v' : World) (d d' : Bag) : Prop where
  bag : w.store.get? s.component.ref = some (.bag b)
  perm : xs'.Perm xs
  nodup : (xs.map Application.name).Nodup
  valid : ∀ x ∈ xs, x.Valid ctx s b
  injective : Function.Injective ρ
  old : ∀ r < w.size, ρ r = r
  fixed : b.rename ρ = b
  laid : Laid id (xs.map Application.block) w.size
  furnished : Furnished id s.component.ref xs w b v d
  laid' : Laid ρ (xs'.map Application.block) w.size
  furnished' : Furnished ρ s.component.ref xs' w b v' d'

/-- **Setters that succeed in one order succeed in every order.** -/
theorem exists_reordered (hctx : ctx.Knows n) {setters permuted : List (Setter Template)}
    (hready : ∀ setter ∈ setters, setter.Ready n) (hnodup : (setters.map Setter.name).Nodup)
    (hperm : permuted.Perm setters) (hb : w.store.get? s.component.ref = some (.bag b)) (hn : n ≤ w.size)
    (hsettled : b.Settled w.size) (hrun : ctx.run (s.applyAll (setters.map Template.nestSetter)) w = (.ok (), v)) :
    ∃ ρ xs xs' v' d d', xs.map Application.setter = setters ∧ xs'.map Application.setter = permuted ∧
      ctx.run (s.applyAll (permuted.map Template.nestSetter)) w = (.ok (), v') ∧
      Reordered ctx s w b ρ xs xs' v v' d d' := by
  obtain ⟨xs, rfl, hvalid, hlaid⟩ := exists_applications hctx hready hnodup hb (fun _ _ => rfl) hrun
  obtain ⟨xs', rfl, hxs⟩ : ∃ xs' : List Application, permuted = xs'.map Application.setter ∧ xs'.Perm xs :=
    (congrFun₂ (List.eq_map_comp_perm Application.setter) permuted xs).mpr hperm
  have hnames : (xs.map Application.name).Nodup := by rwa [List.map_map] at hnodup
  have hready : ∀ x ∈ xs, x.setter.Ready n := fun x hx => hready _ (List.mem_map_of_mem hx)
  have hentry : ∀ ρ : Nat → Nat, Function.Injective ρ → (∀ r < w.size, ρ r = r) →
      ∀ name, (b.entry name).rename ρ = b.entry name := by
    intro ρ hρ hold name
    rw [← Bag.entry_rename, hsettled ρ hρ hold]
  -- the blocks lie one after the other in the first order, and are laid so in the second one
  have hblocks := hxs.map Application.block
  have happart : (xs'.map Application.block).Pairwise Apart :=
    (hblocks.pairwise_iff fun h i hi j hj heq => h j hj i hi heq.symm).mpr (pairwise_apart_of_laid hlaid)
  let ρ := relocate (xs'.map Application.block) w.size
  have hinjective : Function.Injective ρ := injective_relocate hlaid hblocks
  have hold : ∀ r < w.size, ρ r = r := by
    intro r hr
    refine relocate_eq_self (fun e he i hi heq => ?_) w.size
    have hle := (hlaid.mem_range (hblocks.mem_iff.mp he) hi).1
    rw [id, heq] at hle
    exact Nat.not_le.mpr hr hle
  have hlaid' : Laid ρ (xs'.map Application.block) w.size := laid_relocate happart w.size
  obtain ⟨v₁, d, hrun₁, hfurnished⟩ := exists_furnished hctx hvalid hready hnames hb (fun _ _ => rfl)
    (hentry id Function.injective_id fun _ _ => rfl) Function.injective_id (fun _ _ => rfl) hlaid
  obtain rfl : v₁ = v := congrArg Prod.snd (hrun₁.symm.trans hrun)
  obtain ⟨v', d', hrun', hfurnished'⟩ := exists_furnished hctx (fun x hx => hvalid x (hxs.mem_iff.mp hx))
    (fun x hx => hready x (hxs.mem_iff.mp hx)) ((hxs.map _).nodup_iff.mpr hnames) hb (fun _ _ => rfl)
    (hentry ρ hinjective hold) hinjective (fun r hr => hold r (Nat.lt_of_lt_of_le hr hn)) hlaid'
  exact ⟨ρ, xs, xs', v', d, d', rfl, rfl, hrun', hb, hxs, hnames, hvalid, hinjective, hold,
    hsettled ρ hinjective hold, hlaid, hfurnished, hlaid', hfurnished'⟩

/-- Every setter adds what it has added before, behind what the setters before it add. -/
theorem addsInTurn (hctx : ctx.Knows n) {all : List Application} (hnames : (all.map Application.name).Nodup)
    (hxs : xs.Perm all) (hvalid : ∀ x ∈ xs, x.Valid ctx s b) (hready : ∀ x ∈ xs, x.setter.Ready n)
    (hb : w.store.get? s.component.ref = some (.bag b)) (hentry : ∀ name, (b.entry name).rename ρ = b.entry name)
    (hρ : Function.Injective ρ) (hold : ∀ r < n, ρ r = r) (hlaid : Laid ρ (xs.map Application.block) w.size) :
    ctx.AddsInTurn s w b.items (fun name => (addedBy all name).map (renameElement ρ)) (xs.map Application.setter) := by
  intro done hdone
  -- the setters that have been applied are those of the first applications
  obtain ⟨k, rfl⟩ : ∃ k, done = (xs.take k).map Application.setter :=
    ⟨done.length, by rw [List.map_take]; exact List.prefix_iff_eq_take.mp hdone⟩
  have hmem : ∀ x ∈ xs.take k, x ∈ xs := fun x hx => List.mem_of_mem_take hx
  have hnodup : ((xs.take k).map Application.name).Nodup :=
    ((hxs.map _).nodup_iff.mpr hnames).sublist ((List.take_sublist k xs).map _)
  have hlaid : Laid ρ ((xs.take k).map Application.block) w.size := by
    rw [List.map_take]
    exact hlaid.take k
  obtain ⟨v, d, hrun, hfurnished⟩ := exists_furnished hctx (fun x hx => hvalid x (hmem x hx))
    (fun x hx => hready x (hmem x hx)) hnodup hb (fun _ _ => rfl) hentry hρ hold hlaid
  refine ⟨v, d, hrun, hfurnished.bag, ?_⟩
  rw [hfurnished.items, flatMap_addedBy hnames fun x hx => hxs.mem_iff.mp (hmem x hx)]

namespace Reordered

theorem items_eq (h : Reordered ctx s w b ρ xs xs' v v' d d') :
    d.items = b.items ++ (xs.map Application.setter).flatMap (fun setter => addedBy xs setter.name) ∧
      d'.items = b.items ++
        (xs'.map Application.setter).flatMap fun setter => (addedBy xs setter.name).map (renameElement ρ) := by
  -- in both orders what a setter has added is looked up in the first order
  constructor
  · have hadded := flatMap_addedBy h.nodup (fun _ hx => hx) (renameElement id)
    rw [h.furnished.items, ← hadded]
    simp only [map_renameElement_id]
  · rw [h.furnished'.items, flatMap_addedBy h.nodup fun x hx => h.perm.mem_iff.mp hx]

theorem size_eq (h : Reordered ctx s w b ρ xs xs' v v' d d') :
    v.size = w.size + total (xs.map Application.block) ∧ v'.size = w.size + total (xs.map Application.block) := by
  refine ⟨h.furnished.size, ?_⟩
  rw [h.furnished'.size, total_perm (h.perm.map _)]

/-- What the setters have constructed is the same at other places. -/
theorem cells_eq (h : Reordered ctx s w b ρ xs xs' v v' d d') {r : Nat} (hle : w.size ≤ r) (hlt : r < v.size) :
    w.size ≤ ρ r ∧ v'.store.get? (ρ r) = (v.store.get? r).map (Component.rename ρ) := by
  rw [h.size_eq.1] at hlt
  -- the place is in the block of a setter, which has constructed the same components in the other order
  obtain ⟨block, hblock, i, hi, rfl⟩ := h.laid.surjective hle hlt
  obtain ⟨x, hx, rfl⟩ := List.mem_map.mp hblock
  have hx' : x ∈ xs' := h.perm.mem_iff.mpr hx
  refine ⟨(h.laid'.mem_range (List.mem_map_of_mem hx') hi).1, ?_⟩
  have hcell := h.furnished.cells x hx i hi
  rw [show Component.rename id = fun c => c from funext Component.rename_id, Option.map_id'] at hcell
  exact (h.furnished'.cells x hx' i hi).trans (congrArg _ hcell.symm)

/-- The worlds that two orders of the setters of a new component come to are the same up to the renaming. -/
theorem worlds {definition : Definition} {start : World} {i : Instance} (hi : i = (start.instantiate definition).1)
    (hbelow : definition.blueprint.Below start.size) {owner : Owner}
    (h : Reordered ctx ⟨owner, i⟩ (start.instantiate definition).2 b ρ xs xs' v v' d d') :
    start.Matches ρ i (ctx.finished definition i v) (ctx.finished definition i v') := by
  obtain ⟨hstayed, hnew⟩ := World.store_instantiate hbelow
  have hplace : i.ref = start.size := hi ▸ start.ref_instantiate definition
  have hwithin : i.ref < (start.instantiate definition).2.size := Store.lt_size_of_get? h.bag
  obtain ⟨hsize, hcell⟩ := ctx.store_finished definition h.furnished.bag
  obtain ⟨hsize', hcell'⟩ := ctx.store_finished definition h.furnished'.bag
  have hv : (ctx.finished definition i v).size = v.size := hsize
  have hv' : (ctx.finished definition i v').size = v'.size := hsize'
  -- places at which the component is not are as the setters have left them
  have hleft : ∀ r, r ≠ i.ref → (ctx.finished definition i v).store.get? r = v.store.get? r :=
    fun r hr => (hcell r).trans (if_neg (Ne.symm hr))
  have hright : ∀ r, r ≠ i.ref → (ctx.finished definition i v').store.get? r = v'.store.get? r :=
    fun r hr => (hcell' r).trans (if_neg (Ne.symm hr))
  -- places are old ones, those of what is constructed before the setters, or those of what the setters construct
  refine ⟨?_, h.old _ hwithin, fun r hr => ?_, fun r hr hle hne => ?_⟩
  · rw [hv, hv', h.size_eq.1, h.size_eq.2]
    exact h.laid.bijOn h.old h.laid' (h.perm.map _)
  · have hlt : r < (start.instantiate definition).2.size := by omega
    have hne : r ≠ i.ref := by omega
    refine ⟨h.old r hlt, ?_, ?_⟩
    · rw [hleft r hne, h.furnished.kept r hlt hne, hstayed r hr]
    · rw [hright r hne, h.furnished'.kept r hlt hne, hstayed r hr]
  · by_cases hlt : r < (start.instantiate definition).2.size
    · -- it has been constructed for the component itself
      rw [h.old r hlt, hright r hne, hleft r hne, h.furnished.kept r hlt hne, h.furnished'.kept r hlt hne]
      exact (hnew ρ h.injective h.old r hle).symm
    · obtain ⟨hbehind, heq⟩ := h.cells_eq (Nat.le_of_not_lt hlt) (hv ▸ hr)
      rw [hright _ (by omega), hleft r hne, heq]

end Reordered

end Orders

/-! ## §4 Templates -/

section Templates

variable {d : Definition} {memo : Nat} {t : Template} {setters permuted : List (Setter Template)}

/-- A setter is what comes of compiling whatever is given for some property, each factory being one of the property that
it is selected for. -/
def Setter.CompiledFor (t : Template) (setter : Setter Template) : Prop :=
  ∃ name raw events, (∀ e ∈ events, AnsweredByName e) ∧ Runs (t.compileSetter name raw) events (.ok setter)

theorem Setter.compiledFor_of_compileWith {name : String} {raw : Raw} {f : Factory} {setter : Setter Template}
    (hname : name ≠ loadedName) (hf : f.property = name ∧ f.Proper) (h : raw.compileWith t.tag name f = .ok setter) :
    setter.CompiledFor t := by
  refine ⟨name, raw, [⟨.select t.memo t.definition name, (.ok f : Except Error Factory)⟩], ?_, ?_⟩
  · refine List.forall_mem_singleton.mpr fun g hg => ?_
    cases hg
    exact hf
  · rw [Template.compileSetter_eq raw hname]
    exact .ask _ _ (h ▸ .done _)

theorem Setter.CompiledFor.consistent {setter : Setter Template} (h : setter.CompiledFor t) : setter.Consistent := by
  obtain ⟨name, raw, events, hknown, hruns⟩ := h
  rcases runs_compileSetter hruns with ⟨flag, rfl⟩ | ⟨f, hselected, hmade⟩
  · exact trivial
  · exact Raw.consistent_compileWith (hknown _ hselected f rfl) hmade

namespace Template

theorem replaceOrAdd_of_notMem {τ : Type} {s : Setter τ} {setters : List (Setter τ)}
    (h : s.name ∉ setters.map Setter.name) : replaceOrAdd s setters = setters ++ [s] := by
  induction setters with
  | nil => rfl
  | cons first rest ih =>
    obtain ⟨hfirst, hrest⟩ := not_or.mp fun hor => h (List.mem_cons.mpr hor)
    rw [replaceOrAdd, if_neg (Ne.symm hfirst), ih hrest, List.cons_append]

theorem definition_foldl_attach : (setters.foldl attach t).definition = t.definition := by
  induction setters generalizing t with
  | nil => rfl
  | cons s rest ih => rw [List.foldl_cons, ih, definition_attach]

theorem setters_attach_of_new {s : Setter Template} (hs : s.name ∉ t.setters.map Setter.name) :
    (t.attach s).setters = t.setters ++ listed [s] := by
  -- a condition is kept apart from the setters; any other setter is new among them, and comes last
  cases hcondition : s.condition? with
  | some flag =>
    have hlisted : listed [s] = [] := by simp [listed, hcondition]
    rw [hlisted, List.append_nil]
    cases s with
    | loaded flag => rfl
    | assign | loadTime | runTime => cases hcondition
  | none =>
    have hlisted : listed [s] = [s] := by simp [listed, hcondition]
    rw [attach_eq t hcondition, hlisted]
    exact replaceOrAdd_of_notMem hs

/-- Setters of different properties are attached behind each other. -/
theorem setters_foldl_attach (hnodup : (setters.map Setter.name).Nodup)
    (hnew : ∀ s ∈ setters, s.name ∉ t.setters.map Setter.name) :
    (setters.foldl attach t).setters = t.setters ++ listed setters := by
  induction setters generalizing t with
  | nil => exact (List.append_nil _).symm
  | cons s rest ih =>
    obtain ⟨hname, hnames⟩ := List.nodup_cons.mp hnodup
    obtain ⟨hs, hrest⟩ := List.forall_mem_cons.mp hnew
    have hattached := setters_attach_of_new hs
    -- the names of the others are still new when the first setter has been attached
    have hstillNew : ∀ x ∈ rest, x.name ∉ (t.attach s).setters.map Setter.name := by
      intro x hx hmem
      rw [hattached, List.map_append] at hmem
      rcases List.mem_append.mp hmem with hmem | hmem
      · exact hrest x hx hmem
      · obtain ⟨y, hy, heq⟩ := List.mem_map.mp hmem
        obtain rfl := List.mem_singleton.mp (List.mem_of_mem_filter hy)
        exact hname (heq ▸ List.mem_map_of_mem hx)
    rw [List.foldl_cons, ih hnames hstillNew, hattached, List.append_assoc]
    exact congrArg _ (List.filter_append [s] rest).symm

/-- Among setters of different properties the literal id does not depend on the order. -/
theorem idOf_perm {τ : Type} {setters permuted : List (Setter τ)} (hnodup : (setters.map Setter.name).Nodup)
    (hperm : permuted.Perm setters) : idOf permuted = idOf setters := by
  have hnodup' : (permuted.map Setter.name).Nodup := (hperm.map _).nodup_iff.mpr hnodup
  -- the id is that of the one setter for ids that there is, and this is there in both orders
  refine Option.ext fun text => ⟨fun h => ?_, fun h => ?_⟩
  · exact idOf_of_mem hnodup (hperm.mem_iff.mp (mem_of_idOf h))
  · exact idOf_of_mem hnodup' (hperm.mem_iff.mpr (mem_of_idOf h))

end Template

/-- What a template knows does not depend on the order of its setters. -/
theorem Template.Knows.perm {n : Nat} {t t' : Template} (h : t.Knows n) (hdefinition : t'.definition = t.definition)
    (hperm : t'.setters.Perm t.setters) : t'.Knows n := by
  intro u hu
  -- it is the template itself, or it is nested in one of the same templates as before
  rcases Relation.ReflTransGen.cases_head hu with rfl | ⟨held, hheld, hwithin⟩
  · obtain ⟨hblueprint, hsetters⟩ := h t (.refl t)
    exact ⟨hdefinition ▸ hblueprint, fun s hs => hsetters s (hperm.mem_iff.mp hs)⟩
  · have hnested : held ∈ t.nested := (hperm.flatMap fun _ _ => .refl _).mem_iff.mp hheld
    exact h u (Relation.ReflTransGen.head hnested hwithin)

theorem Template.knows_of_nested {n : Nat} {t : Template} (hblueprint : t.definition.blueprint.Below n)
    (hsetters : ∀ s ∈ t.setters, s.Below n) (hnested : ∀ u ∈ t.nested, u.Knows n) : t.Knows n := by
  intro u hu
  rcases Relation.ReflTransGen.cases_head hu with rfl | ⟨held, hheld, hwithin⟩
  · exact ⟨hblueprint, hsetters⟩
  · exact hnested held hheld u hwithin

theorem Template.Knows.ready {n : Nat} {t : Template} (h : t.Knows n) {s : Setter Template} (hs : s ∈ t.setters)
    (hconsistent : s.Consistent) : s.Ready n where
  consistent := hconsistent
  below := (h t (.refl t)).2 s hs
  nested _ hu v hv := h v (Relation.ReflTransGen.head (List.mem_flatMap.mpr ⟨s, hs, hu⟩) hv)

/-- A template of a bag whose setters can be applied in any order: each is of a property of its own and consistent, and
what it is given is in the store. -/
structure Template.Permutable (n : Nat) (t : Template) : Prop where
  bag : t.definition.ConstructsBag
  knows : t.Knows n
  consistent : ∀ s ∈ t.setters, s.Consistent
  nodup : (t.setters.map Setter.name).Nodup

/-- The same template with its setters in another order. -/
structure Template.Permutes (t' t : Template) : Prop where
  definition : t'.definition = t.definition
  setters : t'.setters.Perm t.setters

/-- A template and the same one with its setters in another order have been built in a world: their components are the
same up to a renaming of the places of new components, and but for the order of their elements. -/
structure Context.BuildsAlike (ctx : Context) (w : World) (t t' : Template) (i : Instance) (v v' : World)
    (ρ : Nat → Nat) (b b' : Bag) : Prop where
  worlds : w.Matches ρ i v v'
  bag : v.store.get? i.ref = some (.bag b)
  bag' : v'.store.get? i.ref = some (.bag b')
  bags : b.Matches ρ b'
  /-- In both orders each setter adds its elements behind those of the setters before it, and they are the same elements
  in the same order. -/
  added : ∃ first added, b.items = first ++ t.setters.flatMap (fun s => added s.name) ∧
    b'.items = first ++ t'.setters.flatMap (fun s => (added s.name).map (renameElement ρ)) ∧
    ctx.AddsInTurn ⟨t.owner, i⟩ (w.instantiate t.definition).2 first added t.setters ∧
    ctx.AddsInTurn ⟨t.owner, i⟩ (w.instantiate t.definition).2 first (fun name => (added name).map (renameElement ρ))
      t'.setters

namespace Template

variable {ctx : Context} {n : Nat} {w v : World} {i : Instance} {t' : Template}

theorem Permutes.symm (h : t'.Permutes t) : t.Permutes t' :=
  ⟨h.definition.symm, h.setters.symm⟩

theorem Permutable.perm (h : t.Permutable n) (hperm : t'.Permutes t) : t'.Permutable n where
  bag := hperm.definition ▸ h.bag
  knows := h.knows.perm hperm.definition hperm.setters
  consistent s hs := h.consistent s (hperm.setters.mem_iff.mp hs)
  nodup := (hperm.setters.map Setter.name).nodup_iff.mpr h.nodup

theorem Permutable.ready (h : t.Permutable n) {s : Setter Template} (hs : s ∈ t.setters) : s.Ready n :=
  h.knows.ready hs (h.consistent s hs)

theorem Permutable.owner_eq (h : t.Permutable n) (hperm : t'.Permutes t) : t'.owner = t.owner := by
  unfold owner tag id?
  rw [hperm.definition, idOf_perm h.nodup hperm.setters]

/-- A template that is built is built with its setters in any other order. -/
theorem exists_reordered (hctx : ctx.Knows w.size) (h : t.Permutable w.size) (hperm : t'.Permutes t)
    (hrun : ctx.run t.instantiate w = (.ok i, v)) :
    ∃ b ρ xs xs' u u' e e', v = ctx.finished t.definition i u ∧
      ctx.run t'.instantiate w = (.ok i, ctx.finished t.definition i u') ∧
      xs.map Application.setter = t.setters ∧ xs'.map Application.setter = t'.setters ∧
      Reordered ctx ⟨t.owner, i⟩ (w.instantiate t.definition).2 b ρ xs xs' u u' e e' := by
  have hbelow := (h.knows t (.refl t)).1
  obtain ⟨b, hb⟩ := World.bag_instantiate h.bag hbelow
  have hsettled : b.Settled (w.instantiate t.definition).2.size := by
    intro ρ hρ hold
    have hcell := (World.store_instantiate hbelow).2 ρ hρ hold _ (Nat.le_of_eq (w.ref_instantiate t.definition).symm)
    rw [hb] at hcell
    exact Component.bag.inj (Option.some.inj hcell)
  have hle : w.size ≤ (w.instantiate t.definition).2.size := Blueprint.size_le ⟨w.store, []⟩ t.definition.blueprint
  obtain ⟨rfl, u, happlied, rfl⟩ := ctx.run_instantiate_eq_ok.mp hrun
  obtain ⟨ρ, xs, xs', u', e, e', hxs, hxs', happlied', hreordered⟩ := PageTemplates.exists_reordered hctx
    (fun s hs => h.ready hs) h.nodup hperm.setters hb hle hsettled happlied
  refine ⟨b, ρ, xs, xs', u, u', e, e', rfl, ?_, hxs, hxs', hreordered⟩
  rw [ctx.run_instantiate_eq_ok, hperm.definition, h.owner_eq hperm]
  exact ⟨rfl, u', happlied', rfl⟩

theorem exists_buildsAlike (hctx : ctx.Knows w.size) (ht : t.Permutable w.size) (hperm : t'.Permutes t)
    (hrun : ctx.run t.instantiate w = (.ok i, v)) :
    ∃ v' ρ b b', ctx.run t'.instantiate w = (.ok i, v') ∧ ctx.BuildsAlike w t t' i v v' ρ b b' := by
  obtain ⟨b, ρ, xs, xs', u, u', e, e', rfl, hagain, hxs, hxs', h⟩ := exists_reordered hctx ht hperm hrun
  have hi := (ctx.run_instantiate_eq_ok.mp hrun).1
  have hbelow := (ht.knows t (.refl t)).1
  have hready : ∀ x ∈ xs, x.setter.Ready w.size := fun x hx => ht.ready (hxs ▸ List.mem_map_of_mem hx)
  have hle : w.size ≤ (w.instantiate t.definition).2.size := Blueprint.size_le ⟨w.store, []⟩ t.definition.blueprint
  have hold : ∀ r < w.size, ρ r = r := fun r hr => h.old r (Nat.lt_of_lt_of_le hr hle)
  have hentry : ∀ name, (b.entry name).rename ρ = b.entry name := fun name => by rw [← Bag.entry_rename, h.fixed]
  have hsame : ∀ name, (b.entry name).rename id = b.entry name := fun _ => Bag.Entry.rename_id _
  -- each order is compared with the first one, which is the first case with no renaming at all
  have hturn := addsInTurn hctx h.nodup (.refl xs) h.valid hready h.bag hsame Function.injective_id
    (fun _ _ => rfl) h.laid
  have hturn' := addsInTurn hctx h.nodup h.perm (fun x hx => h.valid x (h.perm.mem_iff.mp hx))
    (fun x hx => hready x (h.perm.mem_iff.mp hx)) h.bag hentry h.injective hold h.laid'
  have hitems := h.items_eq
  simp only [map_renameElement_id] at hturn
  rw [hxs] at hturn hitems
  rw [hxs'] at hturn' hitems
  exact ⟨_, ρ, e.wired t.definition.includedPage ctx.builder, e'.wired t.definition.includedPage ctx.builder, hagain,
    { worlds := h.worlds hi hbelow
      bag := ((ctx.store_finished t.definition h.furnished.bag).2 _).trans (if_pos rfl)
      bag' := ((ctx.store_finished t.definition h.furnished'.bag).2 _).trans (if_pos rfl)
      bags := (h.furnished.matched h.furnished' h.perm h.fixed).wired _ _
      added := ⟨b.items, addedBy xs, (Bag.items_wired ..).trans hitems.1, (Bag.items_wired ..).trans hitems.2, hturn,
        hturn'⟩ }⟩

theorem isOk_instantiate_of_permutes (hctx : ctx.Knows w.size) (ht : t.Permutable w.size) (hperm : t'.Permutes t)
    (h : (ctx.run t.instantiate w).1.isOk) : (ctx.run t'.instantiate w).1.isOk := by
  obtain ⟨i, v, hrun⟩ := ctx.exists_run_of_isOk h
  obtain ⟨_, _, _, _, hrun', -⟩ := exists_buildsAlike hctx ht hperm hrun
  rw [hrun']
  rfl

/-- Setters of different properties that have been attached to a template of a bag. -/
theorem permutable_foldl_attach (hbag : d.ConstructsBag) (hcompiled : ∀ s ∈ setters, s.CompiledFor (.empty d memo))
    (hnodup : (setters.map Setter.name).Nodup) (hknown : (setters.foldl attach (.empty d memo)).Knows n) :
    (setters.foldl attach (.empty d memo)).Permutable n := by
  have hsetters : (setters.foldl attach (.empty d memo)).setters = listed setters :=
    setters_foldl_attach hnodup fun _ _ => List.not_mem_nil
  refine ⟨?_, hknown, ?_, ?_⟩
  · rw [definition_foldl_attach]
    exact hbag
  · intro s hs
    rw [hsetters] at hs
    exact (hcompiled s (List.mem_of_mem_filter hs)).consistent
  · rw [hsetters]
    exact hnodup.sublist (List.filter_sublist.map _)

theorem permutes_foldl_attach (hnodup : (setters.map Setter.name).Nodup) (hperm : permuted.Perm setters) :
    (permuted.foldl attach (.empty d memo)).Permutes (setters.foldl attach (.empty d memo)) := by
  refine ⟨definition_foldl_attach.trans definition_foldl_attach.symm, ?_⟩
  rw [setters_foldl_attach hnodup fun _ _ => List.not_mem_nil,
    setters_foldl_attach ((hperm.map _).nodup_iff.mpr hnodup) fun _ _ => List.not_mem_nil]
  exact (hperm.filter _).append_left []

end Template

/-- **The order of the attributes does not matter.** Setters of different properties are attached to a template of a
bag in two orders. The gate is the permissive one or a policy. Callables are wired in whatever way, looking at the type
of the component alone (`Context.wiring`); nested components are of whatever conduct that sees no places
(`Conduct.Blind`). All objects that are known before the build are in the store: those of the template, and those that
expressions can have as values, which are the objects of the scope (`Expression.below_evaluate`). Then the one template
is built just if the other one is. If both are built, they have the same owner, which is what callables are wired to,
and what is built is the same but for the order of the elements of different setters (`Context.BuildsAlike`). -/
theorem attribute_order {ctx : Context} {d : Definition} {memo : Nat} {setters permuted : List (Setter Template)}
    {w : World} (hgate : ctx.gate = Gate.permissive ∨ ∃ p : Policy, ctx.gate = p.gate) (hbag : d.ConstructsBag)
    (hcompiled : ∀ s ∈ setters, s.CompiledFor (.empty d memo)) (hnodup : (setters.map Setter.name).Nodup)
    (hperm : permuted.Perm setters) (hknown : (setters.foldl Template.attach (.empty d memo)).Knows w.size)
    (hevaluated : ∀ e v, ctx.evaluator.evaluate e ctx.scope = .ok v → v.Below w.size) :
    let t := setters.foldl Template.attach (.empty d memo)
    let t' := permuted.foldl Template.attach (.empty d memo)
    ((ctx.run t.instantiate w).1.isOk ↔ (ctx.run t'.instantiate w).1.isOk) ∧
      ∀ i i' v v', ctx.run t.instantiate w = (.ok i, v) → ctx.run t'.instantiate w = (.ok i', v') →
        i' = i ∧ t'.owner = t.owner ∧ ∃ ρ b b', ctx.BuildsAlike w t t' i v v' ρ b b' := by
  intro t t'
  -- both kinds of gate judge a check without its component
  have hctx : ctx.Knows w.size := by
    refine ⟨?_, hevaluated⟩
    rcases hgate with hgate | ⟨p, hgate⟩ <;> rw [hgate]
    · exact Gate.impartial_permissive
    · exact p.impartial_gate
  have ht : t.Permutable w.size := Template.permutable_foldl_attach hbag hcompiled hnodup hknown
  have htt' : t'.Permutes t := Template.permutes_foldl_attach hnodup hperm
  constructor
  · constructor
    · exact Template.isOk_instantiate_of_permutes hctx ht htt'
    · exact Template.isOk_instantiate_of_permutes hctx (ht.perm htt') htt'.symm
  · intro i i' v v' hrun hrun'
    obtain ⟨v₁, ρ, b, b', hagain, halike⟩ := Template.exists_buildsAlike hctx ht htt' hrun
    cases hrun'.symm.trans hagain
    exact ⟨rfl, ht.owner_eq htt', ρ, b, b', halike⟩

end Templates

/-- A value is a constant, or the scope has it. -/
theorem Expression.below_evaluate {n : Nat} {scope : Scope} (h : ∀ name v, scope.get? name = some v → v.Below n)
    {e : String} {v : Value} (he : evaluate e scope = .ok v) : v.Below n := by
  -- a constant has no objects
  have hconstant : ∀ cs v, constant? cs = some v → v.Below n := by
    intro cs v hv
    unfold constant? at hv
    split at hv
    · cases hv
      trivial
    · dsimp only at hv
      split_ifs at hv
      · cases hv
        trivial
      · cases hv
        trivial
      · cases hv
        trivial
      · split at hv
        · cases hv
          trivial
        · obtain ⟨x, -, rfl⟩ := Option.map_eq_some_iff.mp hv
          trivial
  unfold evaluate at he
  split at he
  · cases he
  · rename_i cs _
    split at he
    · rename_i found hfound
      cases he
      rcases Option.or_eq_some_iff.mp hfound with hfound | ⟨-, hfound⟩
      · exact hconstant cs v hfound
      · exact h _ v hfound
    · cases he

/-- A table with columns, a footer and an action. -/
def tableDefinition : Definition :=
  ⟨0, "", "table", "Table", .ofList [("columns", .collection "columns" "addColumn" "Column"),
    ("footer", .complex "footer" "Column"), ("onSelect", .method "onSelect")], none, .mk .bag "Table" []⟩

def columnTemplate : Template := .empty ⟨1, "", "column", "Column", .empty, none, .mk .bag "Column" []⟩ 0

def tableSetters : List (Setter Template) :=
  [.assign (.method "onSelect" (.expression "#\x7bgo\x7d")),
    .assign (.collection "columns" "addColumn" [.object columnTemplate, .object columnTemplate]),
    .loadTime "rendered" "$\x7btrue\x7d" ⟨"rendered", "boolean", true, .rendered⟩,
    .assign (.object "footer" columnTemplate), .assign (.id "main")]

/-- A table with attributes in some order. -/
def tableTemplate (setters : List (Setter Template)) : Template :=
  setters.foldl Template.attach (.empty tableDefinition 0)

theorem compiledFor_tableSetters : ∀ s ∈ tableSetters, s.CompiledFor (.empty tableDefinition 0) := by
  have made : ∀ (name : String) (raw : Raw) {f : Factory} {s : Setter Template}, name ≠ loadedName →
      Factory.ofProperty tableDefinition name = .ok f → raw.compileWith "table" name f = .ok s →
        s.CompiledFor (.empty tableDefinition 0) :=
    fun _ _ _ _ hname hf hs => Setter.compiledFor_of_compileWith hname (Factory.ofProperty_spec hf) hs
  intro s hs
  simp only [tableSetters, List.mem_cons, List.not_mem_nil, or_false] at hs
  rcases hs with rfl | rfl | rfl | rfl | rfl
  · exact made "onSelect" (.text "#\x7bgo\x7d") (by decide) rfl rfl
  · exact made "columns" (.objects [columnTemplate, columnTemplate]) (by decide) rfl rfl
  · exact made "rendered" (.text "$\x7btrue\x7d") (by decide) rfl rfl
  · exact made "footer" (.objects [columnTemplate]) (by decide) rfl rfl
  · exact made "id" (.text "main") (by decide) rfl rfl

theorem nodup_tableSetters : (tableSetters.map Setter.name).Nodup := by decide

theorem knows_tableTemplate : (tableTemplate tableSetters).Knows 0 := by
  have hcolumn : columnTemplate.Knows 0 := Template.knows_of_nested ⟨trivial, trivial⟩ nofun nofun
  have hsetters : (tableTemplate tableSetters).setters = tableSetters :=
    Template.setters_foldl_attach nodup_tableSetters fun _ _ => List.not_mem_nil
  -- nothing is nested but columns, and no setter holds an object
  refine Template.knows_of_nested ⟨trivial, trivial⟩ ?_ ?_
  · rw [hsetters]
    simp [tableSetters, Setter.Below, Assignment.Below, Item.Below]
  · intro u hu
    rw [Template.nested, hsetters] at hu
    obtain rfl : u = columnTemplate := by
      simpa [tableSetters, Setter.nested, Assignment.nested, CallableSource.nested, Item.nested] using hu
    exact hcolumn

/-- The id stands behind the action, or before it: the action is wired to it in both orders. -/
theorem table_in_both_orders :
    let ctx := Context.bare .ofScope .empty
    let w := World.initial (.library .empty)
    ∃ i v v' ρ b b', ctx.run (tableTemplate tableSetters).instantiate w = (.ok i, v) ∧
      ctx.run (tableTemplate tableSetters.reverse).instantiate w = (.ok i, v') ∧
      ctx.BuildsAlike w (tableTemplate tableSetters) (tableTemplate tableSetters.reverse) i v v' ρ b b' ∧
      b.callables.find? "onSelect" = some ⟨.scoped, "#\x7bgo\x7d", some ⟨"table", some "main"⟩, some "Table"⟩ := by
  intro ctx w
  have hgate : ctx.gate = Gate.permissive ∨ ∃ p : Policy, ctx.gate = p.gate := .inl rfl
  have hknown : (tableSetters.foldl Template.attach (.empty tableDefinition 0)).Knows w.size := knows_tableTemplate
  have hevaluated : ∀ e v, ctx.evaluator.evaluate e ctx.scope = .ok v → v.Below w.size :=
    fun e v h => Expression.below_evaluate (fun _ _ hv => absurd hv.symm (Option.some_ne_none _)) h
  -- that one order succeeds is evaluated; that the other one does then is the theorem
  obtain ⟨hboth, hsame⟩ := attribute_order hgate ⟨"Table", [], .inl rfl⟩ compiledFor_tableSetters nodup_tableSetters
    (List.reverse_perm tableSetters) hknown hevaluated
  have hok : (ctx.run (tableTemplate tableSetters).instantiate w).1.isOk := by decide +kernel
  obtain ⟨i, v, hrun⟩ := ctx.exists_run_of_isOk hok
  obtain ⟨i', v', hrun'⟩ := ctx.exists_run_of_isOk (hboth.mp hok)
  obtain ⟨rfl, -, ρ, b, b', h⟩ := hsame i i' v v' hrun hrun'
  refine ⟨i', v, v', ρ, b, b', hrun, hrun', h, ?_⟩
  -- the bag is the first component of all
  have hcallable : ((ctx.run (tableTemplate tableSetters).instantiate w).2.bag? 0).bind
      (fun b => b.callables.find? "onSelect") =
        some ⟨.scoped, "#\x7bgo\x7d", some ⟨"table", some "main"⟩, some "Table"⟩ := by decide +kernel
  have hplace : i'.ref = 0 := (congrArg Instance.ref (ctx.run_instantiate_eq_ok.mp hrun).1).trans (w.ref_instantiate _)
  have hheld : v.bag? i'.ref = some b.recorded := World.bag?_eq_some.mpr ⟨b, h.bag, rfl⟩
  rw [hrun, ← hplace, hheld] at hcallable
  exact hcallable

end PageTemplates
