import PageTemplates.Markup.Compile
import PageTemplates.Proofs.Program.Runs
import PageTemplates.Proofs.Template.Nesting

/-!
# How templates are made

A template begins empty, when it is created for a tag, and gets one setter after the other; the objects that a setter
holds have been made in the same way (`Template.Made`). So what is known of the answers that compiling gets is known of
every template that comes out, and of all templates inside it (`Made.within`).

Compiling an element makes a template in this way (`made_compileElement`).
-/

namespace PageTemplates

open Program (Event Runs infix_left infix_right)

/-! ## §1 Compiling one property -/

/-- The objects among what is given for a property. -/
def Raw.templates : Raw → List Template
  | .text _ | .value _ => []
  | .objects ts => ts

/-- Compiles what is given for a property with the factory of the property. -/
def Raw.compileWith (raw : Raw) (tag name : String) (f : Factory) : Except Error (Setter Template) :=
  match raw with
  | .text s => Template.compileText tag name s f
  | .value v => (f.assignValue v).map .assign
  | .objects ts => (f.assignObjects ts).map .assign

/-- A setter of a condition, which holds no objects. -/
def Setter.IsCondition (s : Setter Template) : Prop := ∃ flag, s = .loaded flag

theorem isCondition_of_compileCondition {text : String} {s : Setter Template}
    (h : Template.compileCondition text = .ok s) : s.IsCondition := by
  unfold Template.compileCondition at h
  split at h
  · cases h
    exact ⟨_, rfl⟩
  · cases h
  · obtain ⟨flag, _, rfl⟩ := Outcome.map_eq_ok.mp h
    exact ⟨_, rfl⟩

theorem isCondition_of_compileConditionValue {v : Value} {s : Setter Template}
    (h : Template.compileConditionValue v = .ok s) : s.IsCondition := by
  unfold Template.compileConditionValue at h
  split at h
  · cases h
    exact ⟨_, rfl⟩
  · exact isCondition_of_compileCondition h
  · cases h

/-- A setter is a condition, or is compiled with the factory that was selected for the property. -/
theorem runs_compileSetter {t : Template} {name : String} {raw : Raw} {events : List (Event CompileRequest.Answer)}
    {s : Setter Template} (h : Runs (t.compileSetter name raw) events (.ok s)) :
    s.IsCondition ∨ ∃ f, ⟨.select t.memo t.definition name, (.ok f : Except Error Factory)⟩ ∈ events ∧
      raw.compileWith t.tag name f = .ok s := by
  -- but for conditions, compiling asks for the factory and goes on with it alone
  have selected : ∀ {made : Factory → Except Error (Setter Template)},
      Runs (Compile.select t.memo t.definition name >>= fun f => Compile.ofExcept (made f) : Compile _) events (.ok s) →
        ∃ f, ⟨.select t.memo t.definition name, (.ok f : Except Error Factory)⟩ ∈ events ∧ made f = .ok s := by
    intro made h
    obtain ⟨f, first, second, rfl, hselect, hmade⟩ := Program.runs_bind_ok h
    obtain ⟨answer, rest, rfl, hrest⟩ := Program.runs_ask.mp hselect
    obtain ⟨rfl, rfl⟩ := Program.runs_done.mp hrest
    exact ⟨f, List.mem_cons_self, (Program.runs_done.mp hmade).2.symm⟩
  cases raw with
  | text text =>
    unfold Template.compileSetter Template.compileTextSetter at h
    dsimp only at h
    split at h
    · exact .inl (isCondition_of_compileCondition (Program.runs_done.mp h).2.symm)
    · exact .inr (selected h)
  | value v =>
    unfold Template.compileSetter at h
    dsimp only at h
    split at h
    · exact .inl (isCondition_of_compileConditionValue (Program.runs_done.mp h).2.symm)
    · exact .inr (selected h)
  | objects ts =>
    unfold Template.compileSetter at h
    dsimp only at h
    split at h
    · cases (Program.runs_done.mp h).2
    · exact .inr (selected h)

section Factories

variable {τ : Type} {f : Factory}

/-- A text holds no objects. -/
theorem Factory.nested_assignText {text : String} {a : Assignment τ} (h : f.assignText text = .ok a) :
    a.nested = [] := by
  unfold assignText at h
  split at h
  · cases h
    rfl
  · obtain ⟨b, _, rfl⟩ := Outcome.map_eq_ok.mp h
    rfl
  · obtain ⟨v, _, rfl⟩ := Outcome.map_eq_ok.mp h
    rfl
  · cases h
  · obtain ⟨v, _, rfl⟩ := Outcome.map_eq_ok.mp h
    rfl
  · cases h
  · cases h
    rfl

theorem Factory.single_eq_ok {ts : List τ} {t : τ} (h : f.single ts = .ok t) : ts = [t] := by
  unfold single at h
  split at h
  · cases h
    rfl
  · cases h

/-- Objects are held as they were given. -/
theorem Factory.nested_assignObjects {objects : List τ} {a : Assignment τ} (h : f.assignObjects objects = .ok a) :
    a.nested = objects := by
  unfold assignObjects at h
  split at h
  · obtain ⟨t, ht, rfl⟩ := Outcome.map_eq_ok.mp h
    exact (single_eq_ok ht).symm
  · obtain ⟨t, ht, rfl⟩ := Outcome.map_eq_ok.mp h
    exact (single_eq_ok ht).symm
  · cases h
    -- each object is an element of the collection
    rw [Assignment.nested, List.flatMap_map]
    exact List.flatMap_singleton' objects
  · obtain ⟨t, ht, rfl⟩ := Outcome.map_eq_ok.mp h
    exact (single_eq_ok ht).symm
  · cases h
  · cases h
  · cases h

end Factories

/-- Whatever a setter holds was given for its property. -/
theorem mem_templates_of_compileWith {raw : Raw} {tag name : String} {f : Factory} {s : Setter Template} {v : Template}
    (h : raw.compileWith tag name f = .ok s) (hv : v ∈ s.nested) : v ∈ raw.templates := by
  cases raw with
  | text text =>
    -- a text becomes an expression, or an assignment without objects
    unfold Raw.compileWith Template.compileText at h
    dsimp only at h
    split at h
    · cases h
      cases hv
    · obtain ⟨a, ha, rfl⟩ := Outcome.map_eq_ok.mp h
      rw [Setter.nested, Factory.nested_assignText ha] at hv
      cases hv
    · split at h
      · obtain ⟨a, ha, rfl⟩ := Outcome.map_eq_ok.mp h
        rw [Setter.nested, Factory.nested_assignText ha] at hv
        cases hv
      · split at h
        · cases h
          cases hv
        · cases h
  | value w =>
    obtain ⟨a, ha, rfl⟩ := Outcome.map_eq_ok.mp h
    rw [Setter.nested, (Factory.assignValue_spec ha).1] at hv
    cases hv
  | objects ts =>
    obtain ⟨a, ha, rfl⟩ := Outcome.map_eq_ok.mp h
    rwa [Setter.nested, Factory.nested_assignObjects ha] at hv

/-! ## §2 Attaching setters -/

namespace Template

theorem mem_replaceOrAdd {τ : Type} {s other : Setter τ} {setters : List (Setter τ)}
    (h : other ∈ replaceOrAdd s setters) : other = s ∨ other ∈ setters := by
  induction setters with
  | nil => exact .inl (List.mem_singleton.mp h)
  | cons first rest ih =>
    rw [replaceOrAdd] at h
    split at h
    · exact (List.mem_cons.mp h).imp_right (List.mem_cons_of_mem _)
    · rcases List.mem_cons.mp h with rfl | h
      · exact .inr List.mem_cons_self
      · exact (ih h).imp_right (List.mem_cons_of_mem _)

theorem mem_setters_attach {t : Template} {s other : Setter Template} (h : other ∈ (t.attach s).setters) :
    other = s ∨ other ∈ t.setters := by
  cases s with
  | loaded flag => exact .inr h
  | assign a => exact mem_replaceOrAdd h
  | loadTime name e f => exact mem_replaceOrAdd h
  | runTime name e type => exact mem_replaceOrAdd h

theorem definition_attach (t : Template) (s : Setter Template) : (t.attach s).definition = t.definition := by
  cases s <;> rfl

/-- A template is made from answers of which something is known: it begins empty, and whatever setter it gets was
compiled with such answers, of objects that have been made in the same way. -/
inductive Made (Known : Event CompileRequest.Answer → Prop) : Template → Prop where
  | empty {uri : Option PageUri} {namespaceUri tag : String} {d : Definition} {memo : Nat}
      (h : Known ⟨.create uri namespaceUri tag, (.ok (.empty d memo) : Except Error Template)⟩) :
      Made Known (.empty d memo)
  | attach {t u : Template} {name : String} {raw : Raw} {events : List (Event CompileRequest.Answer)}
      {s : Setter Template} (h : Made Known t) (hraw : ∀ v ∈ raw.templates, Made Known v)
      (hevents : ∀ e ∈ events, Known e) (hs : Runs (u.compileSetter name raw) events (.ok s)) : Made Known (t.attach s)

namespace Made

variable {Known : Event CompileRequest.Answer → Prop} {t u : Template}

theorem nested (h : t.Made Known) {v : Template} (hv : v ∈ t.nested) : v.Made Known := by
  -- by induction on the making: an object is held by the latest setter, or by an earlier one
  induction h with
  | empty _ => cases hv
  | @attach t u name raw events s _ hraw _ hs ih _ =>
    obtain ⟨other, hother, hheld⟩ := List.mem_flatMap.mp hv
    rcases mem_setters_attach hother with rfl | hother
    · rcases runs_compileSetter hs with ⟨flag, rfl⟩ | ⟨f, _, hmade⟩
      · cases hheld
      · exact hraw v (mem_templates_of_compileWith hmade hheld)
    · exact ih (List.mem_flatMap.mpr ⟨other, hother, hheld⟩)

/-- All templates inside one that was made were made in the same way. -/
theorem within (h : t.Made Known) (hu : t.Within u) : u.Made Known := by
  induction hu with
  | refl => exact h
  | tail _ hv ih => exact ih.nested hv

/-- The definition of a template came with the answer that it began with. -/
theorem exists_created (h : t.Made Known) : ∃ uri namespaceUri tag memo,
    Known ⟨.create uri namespaceUri tag, (.ok (.empty t.definition memo) : Except Error Template)⟩ := by
  induction h with
  | empty h => exact ⟨_, _, _, _, h⟩
  | attach _ _ _ _ ih _ =>
    rw [definition_attach]
    exact ih

end Made

end Template

/-! ## §3 Compiling elements -/

namespace Markup

variable {Known : Event CompileRequest.Answer → Prop} {s : Setting} {t t' : Template}
  {events : List (Event CompileRequest.Answer)}

/-- Every event is one of which something is known. -/
abbrev AllKnown (Known : Event CompileRequest.Answer → Prop) (events : List (Event CompileRequest.Answer)) : Prop :=
  ∀ e ∈ events, Known e

theorem made_add {name : String} {raw : Raw} (ht : t.Made Known) (hraw : ∀ v ∈ raw.templates, v.Made Known)
    (hevents : AllKnown Known events) (h : Runs (t.add name raw) events (.ok t')) : t'.Made Known := by
  obtain ⟨setter, first, second, rfl, hsetter, hdone⟩ := Program.runs_bind_ok h
  obtain ⟨rfl, hdone⟩ := Program.runs_pure_except.mp hdone
  cases hdone
  exact .attach ht hraw (List.forall_mem_append.mp hevents).1 hsetter

theorem made_addText {name text : String} (ht : t.Made Known) (hevents : AllKnown Known events)
    (h : Runs (t.addText name text) events (.ok t')) : t'.Made Known := by
  have hraw : ∀ v ∈ (Raw.text text).templates, v.Made Known := List.forall_mem_nil _
  exact made_add ht hraw hevents h

theorem made_compileAttributes {attributes : List Attribute} (ht : t.Made Known) (hevents : AllKnown Known events)
    (h : Runs (compileAttributes t attributes) events (.ok t')) : t'.Made Known := by
  -- by induction on the attributes, with the setters that have been attached so far
  induction attributes generalizing t events with
  | nil =>
    obtain ⟨-, h⟩ := Program.runs_pure_except.mp h
    cases h
    exact ht
  | cons a rest ih =>
    rw [compileAttributes] at h
    split at h
    · exact ih ht hevents h
    · obtain ⟨u, first, second, rfl, hadd, hrest⟩ := Program.runs_bind_ok h
      obtain ⟨hfirst, hsecond⟩ := List.forall_mem_append.mp hevents
      exact ih (made_addText ht hfirst hadd) hsecond hrest

/-- A template that is created is empty. -/
def BeginsEmpty (Known : Event CompileRequest.Answer → Prop) : Prop :=
  ∀ uri namespaceUri tag t,
    Known ⟨.create uri namespaceUri tag, (.ok t : Except Error Template)⟩ → ∃ d memo, t = .empty d memo

mutual

/-- The template of an element is made. -/
theorem made_compileElement (hempty : BeginsEmpty Known) : ∀ {e : Element} {events t}, AllKnown Known events →
    Runs (compileElement s e) events (.ok t) → t.Made Known
  | ⟨name, attributes, content, location⟩, events, t, hevents, h => by
    rw [compileElement] at h
    obtain ⟨created, first, rest, rfl, hcreate, hothers⟩ := Program.runs_bind_ok h
    obtain ⟨furnished, second, third, rfl, hattributes, hproperties⟩ := Program.runs_bind_ok hothers
    obtain ⟨hfirst, hlater⟩ := List.forall_mem_append.mp hevents
    obtain ⟨hsecond, hthird⟩ := List.forall_mem_append.mp hlater
    obtain ⟨answer, none, rfl, hdone⟩ := Program.runs_ask.mp hcreate
    obtain ⟨rfl, rfl⟩ := Program.runs_done.mp hdone
    -- it begins empty
    have hknown := hfirst _ List.mem_cons_self
    obtain ⟨d, memo, rfl⟩ := hempty _ _ _ _ hknown
    exact made_compileProperties hempty (made_compileAttributes (.empty hknown) hsecond hattributes) hthird hproperties

theorem made_compileProperties (hempty : BeginsEmpty Known) : ∀ {t : Template} {content : List (Piece Element)}
    {events t'}, t.Made Known → AllKnown Known events → Runs (compileProperties s t content) events (.ok t') →
      t'.Made Known
  | t, [], events, t', ht, hevents, h => by
    obtain ⟨-, h⟩ := Program.runs_pure_except.mp h
    cases h
    exact ht
  | t, .element ⟨name, attributes, content, location⟩ :: rest, events, t', ht, hevents, h => by
    rw [compileProperties] at h
    cases hname : propertyOf? name with
    | none =>
      rw [hname] at h
      exact made_compileProperties hempty ht hevents h
    | some given =>
      rw [hname] at h
      dsimp only at h
      split at h
      · exact made_compileProperties hempty ht hevents h
      · split at h
        · -- the objects are compiled first, and each of them is made
          obtain ⟨objects, first, others, rfl, hobjects, h⟩ := Program.runs_bind_ok h
          obtain ⟨furnished, second, third, rfl, hadd, h⟩ := Program.runs_bind_ok h
          obtain ⟨hfirst, hothers⟩ := List.forall_mem_append.mp hevents
          obtain ⟨hsecond, hthird⟩ := List.forall_mem_append.mp hothers
          have hraw : ∀ v ∈ (Raw.objects objects).templates, v.Made Known := made_compileObjects hempty hfirst hobjects
          exact made_compileProperties hempty (made_add ht hraw hsecond hadd) hthird h
        · obtain ⟨furnished, first, second, rfl, hadd, h⟩ := Program.runs_bind_ok h
          obtain ⟨hfirst, hsecond⟩ := List.forall_mem_append.mp hevents
          exact made_compileProperties hempty (made_addText ht hfirst hadd) hsecond h
  | t, .text _ :: rest, events, t', ht, hevents, h | t, .comment _ :: rest, events, t', ht, hevents, h
  | t, .instruction .. :: rest, events, t', ht, hevents, h => by
    rw [compileProperties] at h
    exact made_compileProperties hempty ht hevents h

theorem made_compileObjects (hempty : BeginsEmpty Known) : ∀ {property : Name} {content : List (Piece Element)}
    {events ts}, AllKnown Known events → Runs (compileObjects s property content) events (.ok ts) →
      ∀ t ∈ ts, t.Made Known
  | property, [], events, ts, hevents, h => by
    obtain ⟨-, h⟩ := Program.runs_pure_except.mp h
    cases h
    nofun
  | property, .element e :: rest, events, ts, hevents, h => by
    rw [compileObjects] at h
    obtain ⟨_, first, others, rfl, _, h⟩ := Program.runs_bind_ok h
    obtain ⟨t, second, others, rfl, helement, h⟩ := Program.runs_bind_ok h
    obtain ⟨more, third, last, rfl, hmore, hdone⟩ := Program.runs_bind_ok h
    obtain ⟨-, hdone⟩ := Program.runs_pure_except.mp hdone
    cases hdone
    obtain ⟨_, hothers⟩ := List.forall_mem_append.mp hevents
    obtain ⟨hsecond, hothers⟩ := List.forall_mem_append.mp hothers
    obtain ⟨hthird, _⟩ := List.forall_mem_append.mp hothers
    -- the first of the objects, and then the others
    have hfirst := made_compileElement hempty hsecond helement
    exact List.forall_mem_cons.mpr ⟨hfirst, made_compileObjects hempty hthird hmore⟩
  | property, .text _ :: rest, events, ts, hevents, h | property, .comment _ :: rest, events, ts, hevents, h
  | property, .instruction .. :: rest, events, ts, hevents, h => by
    rw [compileObjects] at h
    exact made_compileObjects hempty hevents h

end

end Markup

end PageTemplates
