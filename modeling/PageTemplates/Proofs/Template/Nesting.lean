import PageTemplates.Build.Apply
import PageTemplates.Proofs.Program.Outcome
import Mathlib.Logic.Relation

/-!
# Templates inside templates

The setters of a template may hold templates: as the value of a property, as elements of a collection, as the
origin of a callable. This module lists the templates that are held directly (`Template.nested`), gives the induction
that goes with them (`Template.nested_induction`), and says which templates occur in one at any depth
(`Template.Within`).

Building replaces every nested template by the program that builds it; `nested_nestAssignment` and
`instantiate_eq` say so without the mutual recursion.
-/

namespace PageTemplates

/-! ## §1 What is held directly -/

section Held

variable {τ : Type}

/-- The object that an element of a collection is built from. -/
def Item.nested : Item τ → List τ
  | .value _ => []
  | .object t => [t]

/-- The object that a callable is built from. -/
def CallableSource.nested : CallableSource τ → List τ
  | .expression _ | .ready _ => []
  | .object t => [t]

/-- The objects that an assignment holds, in order. -/
def Assignment.nested : Assignment τ → List τ
  | .scalar .. | .id _ | .rendered _ => []
  | .object _ t => [t]
  | .collection _ _ items => items.flatMap Item.nested
  | .method _ source => source.nested

/-- The objects that a setter holds. What is found out while a component is built holds none. -/
def Setter.nested : Setter τ → List τ
  | .assign a => a.nested
  | .loadTime .. | .runTime .. | .loaded _ => []

end Held

namespace Template

/-- The templates that the setters of a template hold. -/
def nested (t : Template) : List Template := t.setters.flatMap Setter.nested

/-- A template occurs in another: it is that template, or one that is nested in it at some depth. -/
def Within (root t : Template) : Prop := Relation.ReflTransGen (fun a b => b ∈ a.nested) root t

theorem Within.refl (t : Template) : Within t t := Relation.ReflTransGen.refl

theorem Within.nested {root t u : Template} (h : Within root t) (hu : u ∈ t.nested) : Within root u :=
  Relation.ReflTransGen.tail h hu

/-! ## §2 Induction on nesting -/

private theorem sizeOf_lt_of_mem_item {item : Item Template} {u : Template} (h : u ∈ item.nested) :
    sizeOf u < sizeOf item := by
  cases item with
  | value v => cases h
  | object t =>
    obtain rfl := List.mem_singleton.mp h
    simp

private theorem sizeOf_lt_of_mem_assignment {a : Assignment Template} {u : Template} (h : u ∈ a.nested) :
    sizeOf u < sizeOf a := by
  cases a with
  | scalar name v type => cases h
  | id text => cases h
  | rendered flag => cases h
  | object name t =>
    obtain rfl := List.mem_singleton.mp h
    simp only [Assignment.object.sizeOf_spec]
    omega
  | collection name addMethod items =>
    obtain ⟨item, hitem, hu⟩ := List.mem_flatMap.mp h
    -- the template is smaller than its element, and the element than the list
    have h₁ := sizeOf_lt_of_mem_item hu
    have h₂ := List.sizeOf_lt_of_mem hitem
    simp only [Assignment.collection.sizeOf_spec]
    omega
  | method name source =>
    cases source with
    | expression text => cases h
    | ready c => cases h
    | object t =>
      obtain rfl := List.mem_singleton.mp h
      simp only [Assignment.method.sizeOf_spec, CallableSource.object.sizeOf_spec]
      omega

theorem sizeOf_lt_of_mem_nested {t u : Template} (h : u ∈ t.nested) : sizeOf u < sizeOf t := by
  obtain ⟨s, hs, hu⟩ := List.mem_flatMap.mp h
  have h₁ := List.sizeOf_lt_of_mem hs
  -- the setter is smaller than the list of setters, and this than the template
  have h₂ : sizeOf t.setters < sizeOf t := by
    cases t
    simp only [mk.sizeOf_spec]
    omega
  cases s with
  | assign a =>
    have h₃ := sizeOf_lt_of_mem_assignment hu
    simp only [Setter.assign.sizeOf_spec] at h₁
    omega
  | loadTime name e f => cases hu
  | runTime name e type => cases hu
  | loaded flag => cases hu

/-- What passes from the templates that a template holds to the template itself holds of every template. -/
@[elab_as_elim]
theorem nested_induction {motive : Template → Prop}
    (step : ∀ t : Template, (∀ u ∈ t.nested, motive u) → motive t) (t : Template) : motive t :=
  step t fun u _ => nested_induction step u
-- the recursion is well founded because what is held is smaller
termination_by sizeOf t
decreasing_by exact sizeOf_lt_of_mem_nested ‹_›

/-! ## §3 Nested templates as programs -/

/-- A template as an object that is still to be built. -/
def toNested (t : Template) : Nested := ⟨t.tag, t.instantiate⟩

theorem nestSetters_eq_map (setters : List (Setter Template)) : nestSetters setters = setters.map nestSetter := by
  induction setters with
  | nil => rfl
  | cons s rest ih => simp only [nestSetters, List.map_cons, ih]

theorem nestItems_eq_map (items : List (Item Template)) : nestItems items = items.map nestItem := by
  induction items with
  | nil => rfl
  | cons item rest ih => simp only [nestItems, List.map_cons, ih]

theorem nested_nestItem (item : Item Template) : (nestItem item).nested = item.nested.map toNested := by
  cases item with
  | value v => rfl
  | object t => rfl

theorem nested_nestAssignment (a : Assignment Template) :
    (nestAssignment a).nested = a.nested.map toNested := by
  cases a with
  | scalar name v type => rfl
  | id text => rfl
  | rendered flag => rfl
  | object name t => rfl
  -- elements that are values are left out on both sides
  | collection name addMethod items =>
    simp only [nestAssignment, Assignment.nested, nestItems_eq_map, List.flatMap_map, List.map_flatMap,
      nested_nestItem]
  | method name source => cases source <;> rfl

theorem instantiate_eq (t : Template) :
    t.instantiate = assemble t.definition t.owner (t.setters.map nestSetter) := by
  obtain ⟨d, memo, setters, loaded⟩ := t
  rw [instantiate, nestSetters_eq_map]
  rfl

end Template

/-! ## §4 What factories make of values -/

namespace Factory

variable {τ : Type} {f : Factory}

theorem nested_itemOf {type : Option ValueType} {v : Value} {item : Item τ} (h : f.itemOf type v = .ok item) :
    item.nested = [] := by
  unfold itemOf at h
  split at h
  · cases h
    rfl
  · obtain ⟨w, _, rfl⟩ := Outcome.map_eq_ok.mp h
    rfl
  · cases h

/-- An assignment made of a value holds no objects that are still to be built, and adds elements only for a property
that is a collection, by the operation of that collection. -/
theorem assignValue_spec {v : Value} {a : Assignment τ} (h : f.assignValue v = .ok a) :
    a.nested = [] ∧ ∀ name addMethod items, a = .collection name addMethod items →
      f.property = name ∧ ∃ type, f.kind = .collection addMethod type := by
  unfold assignValue at h
  cases hkind : f.kind with
  | collection addMethod type =>
    rw [hkind] at h
    obtain ⟨items, hitems, rfl⟩ := Outcome.map_eq_ok.mp h
    constructor
    · -- each element is made of a value
      refine List.flatMap_eq_nil_iff.mpr fun item hitem => ?_
      obtain ⟨w, _, hw⟩ := Outcome.mem_of_mapM_eq_ok hitems item hitem
      exact nested_itemOf hw
    · rintro name method others ⟨rfl, rfl, rfl⟩
      exact ⟨rfl, type, rfl⟩
  | scalar type =>
    rw [hkind] at h
    obtain ⟨w, _, rfl⟩ := Outcome.map_eq_ok.mp h
    exact ⟨rfl, nofun⟩
  | id =>
    rw [hkind] at h
    cases v <;> cases h <;> exact ⟨rfl, nofun⟩
  | rendered =>
    rw [hkind] at h
    dsimp only at h
    -- only a truth value says whether the component is shown
    split at h <;> cases h
    exact ⟨rfl, nofun⟩
  | complex =>
    rw [hkind] at h
    cases v <;> cases h
    exact ⟨rfl, nofun⟩
  | method =>
    rw [hkind] at h
    dsimp only at h
    split at h
    · cases h
      exact ⟨rfl, nofun⟩
    · split at h <;> cases h
      exact ⟨rfl, nofun⟩
    · cases h

end Factory

end PageTemplates
