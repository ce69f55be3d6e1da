import PageTemplates.Proofs.Template.Furnishing
import PageTemplates.Proofs.Template.TextSetters

/-!
# Elements of a collection

A list gives a collection its elements, and any other value is an element itself (`Value.Holds`). Whether an element is
accepted, and what becomes of it, depends on the element and on the type that the collection has for its elements
(`Value.Becomes`); where it stands among the others makes no difference.

All elements are looked at before the first of them is added. So one that is not accepted keeps all others out, and the
component is left alone; otherwise the elements are added in their order (`collection_all_or_nothing`). It is the same
with a value that is given when the page is compiled and with the value of an expression.

## Structure

- §1 says which elements are accepted, §2 how elements are added.
- §3 puts the two together, for both ways in which a value may come.
-/

namespace PageTemplates

open Program (Runs)

/-! ## §1 Elements -/

/-- The elements that a value stands for. -/
inductive Value.Holds : Value → List Value → Prop where
  | list (vs : List Value) : Holds (.list vs) vs
  | single {v : Value} (h : ∀ vs, v ≠ .list vs) : Holds v [v]

/-- What is added for an element, by the type that a collection has for its elements. Objects are added as they are;
where there is no type, nothing else is accepted. -/
inductive Value.Becomes : Option ValueType → Value → Value → Prop where
  | object (type : Option ValueType) (h : Handle) : Becomes type (.object h) (.object h)
  | any (v : Value) : Becomes (some .object) v v
  | read {type : ValueType} {text : String} {v : Value} (h : type.Writes text v) : Becomes (some type) (.text text) v
  | null : Becomes (some .string) .null .null
  | shownFlag (b : Bool) : Becomes (some .string) (.bool b) (.text (Value.bool b).display)
  | shownInt (i : Int64) : Becomes (some .string) (.int i) (.text (Value.int i).display)
  | shownDouble (d : Double) : Becomes (some .string) (.double d) (.text (Value.double d).display)
  | int {i : Int64} (low : -2147483648 ≤ i.toInt) (high : i.toInt ≤ 2147483647) : Becomes (some .int) (.int i) (.int i)
  | double (d : Double) : Becomes (some .double) (.double d) (.double d)
  | widened (i : Int64) : Becomes (some .double) (.int i) (.double (Double.ofInt i.toInt))
  | boolean (b : Bool) : Becomes (some .boolean) (.bool b) (.bool b)

/-- An element that is not accepted, while all those before it are. -/
structure Value.FirstRefused (itemType : Option ValueType) (vs : List Value) (u : Value) : Prop where
  refused : ∀ w, ¬ u.Becomes itemType w
  accepted : ∃ before after, vs = before ++ u :: after ∧ ∀ b ∈ before, ∃ w, b.Becomes itemType w

/-- What an element should have been, in words. -/
def ValueType.wantedItem : Option ValueType → String
  | some type => type.name
  | none => "a nested object"

/-- The elements that a factory looks at are those that the value stands for. -/
theorem Factory.elements_of_holds {v : Value} {vs : List Value} (h : v.Holds vs) : elements v = vs := by
  cases h with
  | list vs => rfl
  | single h =>
    cases v with
    | list vs => exact absurd rfl (h vs)
    | null | bool _ | int _ | double _ | text _ | object _ => rfl

theorem Coercion.isInt_iff {i : Int64} : isInt i = true ↔ -2147483648 ≤ i.toInt ∧ i.toInt ≤ 2147483647 := by
  unfold isInt intBounds
  rw [Bool.and_eq_true]
  exact and_congr decide_eq_true_iff decide_eq_true_iff

section Elements

variable {τ : Type} {f : Factory} {property : String} {type : ValueType} {itemType : Option ValueType} {v w : Value}

theorem Coercion.becomes_of_ofValue (h : ofValue property v type = .ok w) : v.Becomes (some type) w := by
  -- one case for each line of the coercion, in its order; only the texts and the bounds of integers need an argument
  unfold ofValue at h
  split at h
  case h_2 => exact .read (ofText_eq_ok_iff.mp h)
  case h_7 =>
    split at h <;> cases h
    obtain ⟨low, high⟩ := isInt_iff.mp ‹_›
    exact .int low high
  all_goals cases h
  case h_1 => exact .any v
  case h_3 => exact .null
  case h_4 => exact .shownFlag _
  case h_5 => exact .shownInt _
  case h_6 => exact .shownDouble _
  case h_8 => exact .double _
  case h_9 => exact .widened _
  case h_10 => exact .boolean _

/-- A coercion gives what becomes of an element, objects apart. -/
theorem Coercion.ofValue_eq_ok_iff (hv : ∀ h, v ≠ .object h) :
    ofValue property v type = .ok w ↔ v.Becomes (some type) w := by
  constructor
  · exact becomes_of_ofValue
  · intro h
    -- the other way, by how the element is accepted
    cases h with
    | object _ h => exact absurd rfl (hv h)
    | read h => rw [ofValue_text, ofText_eq_ok_iff.mpr h]
    | int low high => exact if_pos (isInt_iff.mpr ⟨low, high⟩)
    | any | null | shownFlag _ | shownInt _ | shownDouble _ | double _ | widened _ | boolean _ => rfl

/-- An element is accepted just if something becomes of it, and that is what the factory makes of it. -/
theorem Factory.itemOf_eq_ok_iff {item : Item τ} :
    f.itemOf itemType v = .ok item ↔ ∃ w, v.Becomes itemType w ∧ item = .value w := by
  -- an object, an element of some type, and an element of no type
  unfold itemOf
  split
  case h_1 h =>
    constructor
    · rintro ⟨⟩
      exact ⟨_, .object itemType h, rfl⟩
    · rintro ⟨w, hw, rfl⟩
      -- also among elements of any type an object stays the same
      cases hw <;> rfl
  case h_2 type hv =>
    rw [Outcome.map_eq_ok]
    constructor
    · rintro ⟨w, hw, rfl⟩
      exact ⟨w, (Coercion.ofValue_eq_ok_iff hv).mp hw, rfl⟩
    · rintro ⟨w, hw, rfl⟩
      exact ⟨w, (Coercion.ofValue_eq_ok_iff hv).mpr hw, rfl⟩
  case h_3 hv =>
    constructor
    · nofun
    · rintro ⟨w, hw, -⟩
      cases hw with
      | object _ h => exact absurd rfl (hv h)

/-- A value that a type does not have is refused with the value in words, and with the type. -/
theorem Coercion.eq_mismatch_of_ofValue {e : Error} (h : ofValue property v type = .error e) :
    e = mismatch property v.display type := by
  unfold ofValue at h
  split at h
  case h_2 => exact eq_mismatch_of_ofText h
  case h_7 =>
    split at h <;> cases h
    rfl
  all_goals cases h
  case h_11 => rfl

/-- An element that is refused is reported with itself in words, and with what it should have been. -/
theorem Factory.eq_typeCoercion_of_itemOf {e : Error} (h : (f.itemOf itemType v : Except Error (Item τ)) = .error e) :
    e = .typeCoercion f.property v.display (ValueType.wantedItem itemType) := by
  unfold itemOf at h
  split at h
  case h_1 => cases h
  case h_2 => exact Coercion.eq_mismatch_of_ofValue (Outcome.map_eq_error.mp h)
  case h_3 =>
    cases h
    rfl

/-- An element is refused just if nothing becomes of it. -/
theorem Factory.itemOf_eq_error_iff {e : Error} :
    (f.itemOf itemType v : Except Error (Item τ)) = .error e ↔
      (∀ w, ¬ v.Becomes itemType w) ∧ e = .typeCoercion f.property v.display (ValueType.wantedItem itemType) := by
  constructor
  · intro h
    refine ⟨fun w hw => ?_, eq_typeCoercion_of_itemOf h⟩
    rw [itemOf_eq_ok_iff.mpr ⟨w, hw, rfl⟩] at h
    cases h
  · rintro ⟨hnone, rfl⟩
    -- the factory decides either way, and not in favour of an element of which nothing becomes
    cases h : (f.itemOf itemType v : Except Error (Item τ)) with
    | ok item =>
      obtain ⟨w, hw, -⟩ := itemOf_eq_ok_iff.mp h
      exact absurd hw (hnone w)
    | error e => rw [eq_typeCoercion_of_itemOf h]

/-- The elements of a list are accepted together: each becomes something, and that is what will be added. -/
theorem Factory.mapM_itemOf_eq_ok_iff {vs : List Value} {items : List (Item τ)} :
    vs.mapM (f.itemOf itemType) = .ok items ↔
      ∃ ws, List.Forall₂ (Value.Becomes itemType) vs ws ∧ items = ws.map .value := by
  rw [Outcome.mapM_eq_ok_iff]
  constructor
  · intro h
    induction h with
    | nil => exact ⟨[], .nil, rfl⟩
    | cons hfirst _ ih =>
      obtain ⟨w, hw, rfl⟩ := itemOf_eq_ok_iff.mp hfirst
      obtain ⟨ws, hws, rfl⟩ := ih
      exact ⟨w :: ws, .cons hw hws, rfl⟩
  · rintro ⟨ws, hws, rfl⟩
    rw [List.forall₂_map_right_iff]
    exact hws.imp fun _ w hw => itemOf_eq_ok_iff.mpr ⟨w, hw, rfl⟩

theorem Factory.assignValue_of_holds {addMethod : String} {vs : List Value}
    (hkind : f.kind = .collection addMethod itemType) (hv : v.Holds vs) :
    (f.assignValue v : Except Error (Assignment τ)) =
      (vs.mapM (f.itemOf itemType)).map (.collection f.property addMethod) := by
  unfold assignValue
  rw [hkind, elements_of_holds hv]

/-- A value is accepted if all its elements are. -/
theorem Factory.assignValue_eq_ok_iff {addMethod : String} {vs : List Value} {a : Assignment τ}
    (hkind : f.kind = .collection addMethod itemType) (hv : v.Holds vs) :
    f.assignValue v = .ok a ↔
      ∃ ws, List.Forall₂ (Value.Becomes itemType) vs ws ∧ a = .collection f.property addMethod (ws.map .value) := by
  rw [assignValue_of_holds hkind hv, Outcome.map_eq_ok]
  constructor
  · rintro ⟨items, hitems, rfl⟩
    obtain ⟨ws, hws, rfl⟩ := mapM_itemOf_eq_ok_iff.mp hitems
    exact ⟨ws, hws, rfl⟩
  · rintro ⟨ws, hws, rfl⟩
    exact ⟨_, mapM_itemOf_eq_ok_iff.mpr ⟨ws, hws, rfl⟩, rfl⟩

/-- Of the elements that are not accepted the first one is reported. -/
theorem Factory.assignValue_eq_error_iff {addMethod : String} {vs : List Value} {e : Error}
    (hkind : f.kind = .collection addMethod itemType) (hv : v.Holds vs) :
    (f.assignValue v : Except Error (Assignment τ)) = .error e ↔
      ∃ u, Value.FirstRefused itemType vs u ∧
        e = .typeCoercion f.property u.display (ValueType.wantedItem itemType) := by
  rw [assignValue_of_holds hkind hv, Outcome.map_eq_error, Outcome.mapM_eq_error_iff]
  simp only [itemOf_eq_ok_iff, itemOf_eq_error_iff]
  constructor
  · rintro ⟨before, u, after, hvs, hbefore, hu, he⟩
    refine ⟨u, ⟨hu, before, after, hvs, fun b hb => ?_⟩, he⟩
    obtain ⟨_, w, hw, -⟩ := hbefore b hb
    exact ⟨w, hw⟩
  · rintro ⟨u, ⟨hu, before, after, hvs, hbefore⟩, he⟩
    refine ⟨before, u, after, hvs, fun b hb => ?_, hu, he⟩
    obtain ⟨w, hw⟩ := hbefore b hb
    exact ⟨_, w, hw, rfl⟩

/-- Wherever an element stands that is not accepted, there is a first one. -/
theorem Value.exists_firstRefused {vs : List Value} {x : Value} (hx : x ∈ vs)
    (hrefused : ∀ w, ¬ x.Becomes itemType w) : ∃ u, FirstRefused itemType vs u := by
  induction vs with
  | nil => cases hx
  | cons first rest ih =>
    by_cases hfirst : ∃ w, first.Becomes itemType w
    · -- then it is not the first one, and is looked for in the rest
      have hrest : x ∈ rest := by
        refine (List.mem_cons.mp hx).resolve_left ?_
        rintro rfl
        obtain ⟨w, hw⟩ := hfirst
        exact hrefused w hw
      obtain ⟨u, hu, before, after, rfl, hbefore⟩ := ih hrest
      exact ⟨u, hu, first :: before, after, rfl, List.forall_mem_cons.mpr ⟨hfirst, hbefore⟩⟩
    · exact ⟨first, not_exists.mp hfirst, [], rest, rfl, nofun⟩

end Elements

/-! ## §2 Adding -/

/-- A write that has failed. -/
def unwritten (i : Instance) (w : Write) (err : WriteError) : BuildEvent :=
  ⟨.write i w, (.error err : Except WriteError Unit)⟩

/-- How elements are added one after the other. Each is checked right before it is added, and the first refusal or
failure ends it. -/
inductive Site.Adds (s : Site) (name addMethod : String) :
    List Value → List BuildEvent → Except Error Unit → Prop where
  | done : Adds s name addMethod [] [] (.ok ())
  | vetoed (w : Value) (rest : List Value) (v : Violation) :
      Adds s name addMethod (w :: rest) [refused (.write s.target name w) v] (.error (.security v))
  | failed (w : Value) (rest : List Value) (err : WriteError) :
      Adds s name addMethod (w :: rest)
        [passed (.write s.target name w), unwritten s.component (.item addMethod w) err]
        (.error (.reflection name s.component.typeName err))
  | added (w : Value) {rest : List Value} {events : List BuildEvent} {result : Except Error Unit}
      (h : Adds s name addMethod rest events result) :
      Adds s name addMethod (w :: rest)
        (passed (.write s.target name w) :: written s.component (.item addMethod w) :: events) result

/-- No check is refused, and no write fails. -/
def Unhindered (events : List BuildEvent) : Prop :=
  ∀ e ∈ events, (∀ c v, e ≠ refused c v) ∧ ∀ i w err, e ≠ unwritten i w err

/-- Each element is added once, in order, by the operation of the collection. -/
def Site.additions (s : Site) (name addMethod : String) (ws : List Value) : List BuildEvent :=
  ws.flatMap fun w => [passed (.write s.target name w), written s.component (.item addMethod w)]

section Adding

variable {s : Site} {name addMethod : String} {ws : List Value} {events : List BuildEvent}
  {result : Except Error Unit}

/-- The runs of the program that adds elements are the courses of `Site.Adds`. -/
theorem runs_addItems_iff :
    Runs (s.addItems name addMethod (ws.map .value)) events result ↔ s.Adds name addMethod ws events result := by
  -- by induction on the elements that are still to be added
  induction ws generalizing events with
  | nil =>
    constructor
    · intro h
      obtain ⟨rfl, rfl⟩ := Program.runs_pure_except.mp h
      exact .done
    · intro h
      cases h
      exact .done _
  | cons w rest ih =>
    constructor
    · intro h
      -- the answer to the check, and then that to the write, say whether the run goes on
      obtain ⟨checked, others, rfl, hchecked⟩ := Program.runs_ask.mp h
      cases checked with
      | error v =>
        obtain ⟨rfl, rfl⟩ := Program.runs_done.mp hchecked
        exact .vetoed w rest v
      | ok _ =>
        obtain ⟨put, others, rfl, hput⟩ := Program.runs_ask.mp hchecked
        cases put with
        | error err =>
          obtain ⟨rfl, rfl⟩ := Program.runs_done.mp hput
          exact .failed w rest err
        | ok _ => exact .added w (ih.mp hput)
    · intro h
      cases h with
      | vetoed _ _ v => exact .ask _ _ (.done _)
      | failed _ _ err => exact .ask _ _ (.ask _ _ (.done _))
      | added _ h => exact .ask _ _ (.ask _ _ (ih.mpr h))

theorem Site.adds_additions (s : Site) (name addMethod : String) (ws : List Value) :
    s.Adds name addMethod ws (s.additions name addMethod ws) (.ok ()) := by
  induction ws with
  | nil => exact .done
  | cons w rest ih => exact .added w ih

theorem Site.unhindered_additions (s : Site) (name addMethod : String) (ws : List Value) :
    Unhindered (s.additions name addMethod ws) := by
  intro e he
  obtain ⟨w, -, he⟩ := List.mem_flatMap.mp he
  rcases List.mem_pair.mp he with rfl | rfl
  · exact ⟨fun _ _ h => (by cases h), fun _ _ _ h => by cases h⟩
  · exact ⟨fun _ _ h => (by cases h), fun _ _ _ h => by cases h⟩

/-- Without a refusal and without a failure there is one course of adding elements. -/
theorem Site.Adds.unhindered_iff :
    s.Adds name addMethod ws events result ∧ Unhindered events ↔
      events = s.additions name addMethod ws ∧ result = .ok () := by
  constructor
  · rintro ⟨hadds, hevents⟩
    induction hadds with
    | done => exact ⟨rfl, rfl⟩
    | vetoed w rest v => exact absurd rfl ((hevents _ List.mem_cons_self).1 _ v)
    | failed w rest err =>
      exact absurd rfl ((hevents _ (List.mem_cons_of_mem _ List.mem_cons_self)).2 _ _ err)
    | added w _ ih =>
      obtain ⟨rfl, rfl⟩ := ih fun e he => hevents e (List.mem_cons_of_mem _ (List.mem_cons_of_mem _ he))
      exact ⟨rfl, rfl⟩
  · rintro ⟨rfl, rfl⟩
    exact ⟨s.adds_additions name addMethod ws, s.unhindered_additions name addMethod ws⟩

end Adding

/-! ## §3 All or nothing -/

/-- A property that holds elements. Its name is none of those that mean the same in every definition. -/
structure Definition.Collects (d : Definition) (name addMethod : String) (itemType : Option ValueType) : Prop where
  described : d.Describes name (.collection addMethod itemType)
  notLoaded : name ≠ loadedName

/-- A setter is compiled of a value for a property, with a factory for that property. -/
def Template.CompilesValue (t : Template) (name : String) (v : Value) (f : Factory)
    (result : Except Error (Setter Template)) : Prop :=
  Runs (t.compileSetter name (.value v)) [⟨.select t.memo t.definition name, (.ok f : Except Error Factory)⟩] result

/-- A setter goes on after its expression has been evaluated to a value. -/
def Site.GoesOn (s : Site) (name : String) (f : Factory) (expression : String) (v : Value) (events : List BuildEvent)
    (result : Except Error Unit) : Prop :=
  Runs (s.apply (Template.nestSetter (.loadTime name expression f)))
    (passed (.loadTime s.target name expression) :: evaluatedAs expression (.ok v) :: events) result

/-- All elements of a value are added to a collection, as far as the surroundings of the build allow. -/
structure Template.AddsAll (t : Template) (name addMethod : String) (f : Factory) (v : Value) (ws : List Value) :
    Prop where
  /-- The value is compiled to a setter that holds what its elements become, -/
  compiled : ∀ result, t.CompilesValue name v f result ↔
    result = .ok (.assign (.collection name addMethod (ws.map .value)))
  /-- and this setter adds them. -/
  applied : ∀ (s : Site) events result,
    Runs (s.apply (Template.nestSetter (.assign (.collection name addMethod (ws.map .value))))) events result ↔
      s.Adds name addMethod ws events result
  /-- They are added also if the value is that of an expression. -/
  resolved : ∀ (s : Site) expression events result, s.GoesOn name f expression v events result ↔
    s.Adds name addMethod ws events result

/-- A text or a value in the place of something else, for a property. -/
def Error.IsCoercion (property : String) (e : Error) : Prop := ∃ literal expected, e = .typeCoercion property literal expected

/-- Nothing is added to a collection, and no check is made for it. -/
structure Template.AddsNone (t : Template) (name : String) (f : Factory) (v : Value) (err : Error) : Prop where
  coercion : err.IsCoercion name
  /-- There is no setter for the value. -/
  compiled : ∀ result, t.CompilesValue name v f result ↔ result = .error err
  /-- If the value is that of an expression, the setter fails without another request. -/
  resolved : ∀ (s : Site) expression events result, s.GoesOn name f expression v events result ↔
    events = [] ∧ result = .error (.bindingResolution name expression err.message)

section Setters

variable {t : Template} {name addMethod : String} {itemType : Option ValueType} {f : Factory} {v : Value}

/-- A setter is compiled of a value with one question for the factory, and what that makes of the value. -/
theorem Template.compilesValue_iff {result : Except Error (Setter Template)} (hname : name ≠ loadedName) :
    t.CompilesValue name v f result ↔ result = (f.assignValue v).map .assign := by
  unfold CompilesValue
  rw [compileSetter_eq _ hname]
  constructor
  · intro h
    obtain ⟨_, _, heq, h⟩ := Program.runs_ask.mp h
    cases heq
    exact (Program.runs_done.mp h).2
  · rintro rfl
    exact .ask _ _ (.done _)

theorem Site.goesOn_iff (s : Site) (expression : String) {events : List BuildEvent} {result : Except Error Unit} :
    s.GoesOn name f expression v events result ↔
      match (f.assignValue v : Except Error (Assignment Nested)) with
      | .ok a => Runs (s.assign a) events result
      | .error err => events = [] ∧ result = .error (.bindingResolution name expression err.message) :=
  runs_loadTime_iff s name expression f v events result

theorem Template.addsAll_of_becomes {vs ws : List Value} (hname : f.property ≠ loadedName)
    (hkind : f.kind = .collection addMethod itemType) (hv : v.Holds vs)
    (hws : List.Forall₂ (Value.Becomes itemType) vs ws) : t.AddsAll f.property addMethod f v ws := by
  -- what is made of the value is the same for templates and for what is built of them
  have hvalue : ∀ τ, (f.assignValue v : Except Error (Assignment τ)) =
      .ok (.collection f.property addMethod (ws.map .value)) :=
    fun τ => (Factory.assignValue_eq_ok_iff hkind hv).mpr ⟨ws, hws, rfl⟩
  refine ⟨fun result => ?_, fun s events result => ?_, fun s expression events result => ?_⟩
  · rw [compilesValue_iff hname, hvalue]
    rfl
  · rw [nestSetter, nestAssignment, nestItems_eq_map, List.map_map]
    exact runs_addItems_iff
  · rw [s.goesOn_iff, hvalue]
    exact runs_addItems_iff

theorem Template.addsNone_of_refused {literal expected : String} (hname : f.property ≠ loadedName)
    (hvalue : ∀ τ, (f.assignValue v : Except Error (Assignment τ)) =
      .error (.typeCoercion f.property literal expected)) :
    t.AddsNone f.property f v (.typeCoercion f.property literal expected) := by
  refine ⟨⟨literal, expected, rfl⟩, fun result => ?_, fun s expression events result => ?_⟩
  · rw [compilesValue_iff hname, hvalue]
    rfl
  · rw [s.goesOn_iff, hvalue]

end Setters

/-- **A collection takes all elements of a value or none.** There is a factory for every property that holds elements.
If each element of a value is accepted, they are added one after the other, each right after its check; where nothing
is refused and no write fails, each is added just once. If one of them is not accepted, the property is not set, and
the component is left alone: no check is made and nothing is added. -/
theorem collection_all_or_nothing {t : Template} {name addMethod : String} {itemType : Option ValueType}
    (hp : t.definition.Collects name addMethod itemType) {v : Value} {vs : List Value} (hv : v.Holds vs) :
    ∃ f, Factory.ofProperty t.definition name = .ok f ∧
      (∀ ws, List.Forall₂ (Value.Becomes itemType) vs ws →
        t.AddsAll name addMethod f v ws ∧
          ∀ (s : Site) events result, s.Adds name addMethod ws events result ∧ Unhindered events ↔
            events = s.additions name addMethod ws ∧ result = .ok ()) ∧
      ∀ x ∈ vs, (∀ w, ¬ x.Becomes itemType w) → ∃ u, Value.FirstRefused itemType vs u ∧
        t.AddsNone name f v (.typeCoercion name u.display (ValueType.wantedItem itemType)) := by
  obtain ⟨f, hf, hkind⟩ := Factory.exists_ofProperty hp.described
  obtain rfl : f.property = name := (Factory.ofProperty_spec hf).1
  refine ⟨f, hf, fun ws hws => ⟨Template.addsAll_of_becomes hp.notLoaded hkind hv hws, fun s events result =>
    Site.Adds.unhindered_iff⟩, ?_⟩
  intro x hx hrefused
  -- the element that is reported need not be the one in question, but there is a first one
  obtain ⟨u, hu⟩ := Value.exists_firstRefused hx hrefused
  exact ⟨u, hu, Template.addsNone_of_refused hp.notLoaded fun τ =>
    (Factory.assignValue_eq_error_iff hkind hv).mpr ⟨u, hu, rfl⟩⟩

/-- A tag with a collection of integers. -/
def numbersTag : Definition :=
  ⟨0, "", "a", "a", NameMap.empty.insert "values" (.collection "values" "addValue" "int"), none, default⟩

/-- Integers are added also if they are written as texts. A truth value at the end keeps out what stands before it. -/
theorem numbers_all_or_nothing :
    let t : Template := .empty numbersTag 0
    let f : Factory := ⟨"values", "java.util.List", false, .collection "addValue" (some .int)⟩
    let s : Site := ⟨⟨"a", none⟩, ⟨0, "a"⟩⟩
    let numbers : Value := .list [.int 1, .text "2"]
    let mixed : Value := .list [.int 1, .text "2", .bool true]
    Factory.ofProperty numbersTag "values" = .ok f ∧
      numbersTag.Collects "values" "addValue" (some .int) ∧
      t.AddsAll "values" "addValue" f numbers [.int 1, .int 2] ∧
      s.GoesOn "values" f "$\x7bx\x7d" numbers
        [passed (.write s.target "values" (.int 1)), written s.component (.item "addValue" (.int 1)),
          passed (.write s.target "values" (.int 2)), written s.component (.item "addValue" (.int 2))] (.ok ()) ∧
      t.AddsNone "values" f mixed (.typeCoercion "values" "true" "int") := by
  intro t f s numbers mixed
  have hf : Factory.ofProperty numbersTag "values" = .ok f := rfl
  have hcollects : numbersTag.Collects "values" "addValue" (some .int) :=
    ⟨Factory.describes_of_ofProperty hf, by decide⟩
  have htwo : (Value.text "2").Becomes (some .int) (.int 2) := .read (.int (i := 2) rfl (by decide) (by decide))
  have hone : (Value.int 1).Becomes (some .int) (.int 1) := .int (by decide) (by decide)
  obtain ⟨g, hg, hall, -⟩ := collection_all_or_nothing (t := t) hcollects (.list [.int 1, .text "2"])
  obtain ⟨g', hg', -, hnone⟩ := collection_all_or_nothing (t := t) hcollects (.list [.int 1, .text "2", .bool true])
  obtain rfl : f = g := Except.ok.inj (hf.symm.trans hg)
  obtain rfl : f = g' := Except.ok.inj (hf.symm.trans hg')
  obtain ⟨hadds, hcourse⟩ := hall [.int 1, .int 2] (.cons hone (.cons htwo .nil))
  refine ⟨hf, hcollects, hadds, ?_, ?_⟩
  · exact (hadds.resolved s _ _ _).mpr ((hcourse s _ _).mpr ⟨rfl, rfl⟩).1
  · -- the truth value is the only one that can be the first
    obtain ⟨u, ⟨hu, before, after, hvs, -⟩, hadds⟩ := hnone (.bool true) (by simp) nofun
    have hmem : u ∈ [Value.int 1, .text "2", .bool true] := hvs ▸ List.mem_append_right _ List.mem_cons_self
    rcases List.mem_cons.mp hmem with rfl | hmem
    · exact absurd hone (hu _)
    rcases List.mem_pair.mp hmem with rfl | rfl
    · exact absurd htwo (hu _)
    · exact hadds

end PageTemplates
