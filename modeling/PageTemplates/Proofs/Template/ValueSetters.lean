import PageTemplates.Proofs.Build.Collections

/-!
# What becomes of a value, or of objects

In place of a text a property may be given a value that has a type already, or objects that are still to be built. What
is assigned for a value depends on how the property is declared, and on what becomes of the value as one of a scalar type
(`FactoryKind.Makes`). For objects it depends on their number (`FactoryKind.Encloses`). All else is refused, with the
property, with what was given in words, and with what should have been given.

The value of an expression is treated like one that is given when the page is compiled. So the first section serves both,
and the second lists all outcomes of compiling what is given for a property, in whatever form (`compiledSetter_eq_iff`).
-/

namespace PageTemplates

open Program (Event Runs)

/-! ## §1 Factories -/

/-- What is assigned to a property of some kind if it is given a value. -/
inductive FactoryKind.Makes {τ : Type} (name : String) : FactoryKind → Value → Assignment τ → Prop where
  | id {v : Value} {text : String} (h : v.Becomes (some .string) (.text text)) : Makes name .id v (.id text)
  | rendered {v : Value} {flag : Bool} (h : v.Becomes (some .boolean) (.bool flag)) :
      Makes name .rendered v (.rendered flag)
  /-- An object is of no scalar type but that of all objects. -/
  | scalar {type : ValueType} {v w : Value} (hobject : ∀ h, v = .object h → type = .object)
      (h : v.Becomes (some type) w) : Makes name (.scalar type) v (.scalar name w type)
  | complex (h : Handle) : Makes name .complex (.object h) (.scalar name (.object h) .object)
  | collection {addMethod : String} {itemType : Option ValueType} {v : Value} {vs ws : List Value} (hv : v.Holds vs)
      (h : List.Forall₂ (Value.Becomes itemType) vs ws) :
      Makes name (.collection addMethod itemType) v (.collection name addMethod (ws.map .value))
  | expression (text : String) : Makes name .method (.text text) (.method name (.expression text))
  | ready {h : Handle} {c : Callable} (hyields : h.yields = some c) :
      Makes name .method (.object h) (.method name (.ready c))

/-- How a value is refused: what stands for it in words, and what should have been given. Of a collection this is about
the first element that is not accepted. -/
inductive FactoryKind.Blames : FactoryKind → Value → String → String → Prop where
  | id (v : Value) : Blames .id v v.display ValueType.string.name
  | rendered (v : Value) : Blames .rendered v v.display ValueType.boolean.name
  | scalar (type : ValueType) (v : Value) : Blames (.scalar type) v v.display type.name
  | complex (v : Value) : Blames .complex v v.display "a nested object"
  | element {addMethod : String} {itemType : Option ValueType} {v u : Value} {vs : List Value} (hv : v.Holds vs)
      (hu : Value.FirstRefused itemType vs u) :
      Blames (.collection addMethod itemType) v u.display (ValueType.wantedItem itemType)
  | method {v : Value} (h : ∀ handle, v ≠ .object handle) : Blames .method v v.display "a callable"
  /-- An object that stands for no callable is named by its type. -/
  | object (h : Handle) : Blames .method (.object h) h.typeName "a callable"

/-- What is assigned to a property of some kind if it is given objects. -/
inductive FactoryKind.Encloses {τ : Type} (name : String) : FactoryKind → List τ → Assignment τ → Prop where
  | complex (t : τ) : Encloses name .complex [t] (.object name t)
  | scalar (t : τ) : Encloses name (.scalar .object) [t] (.object name t)
  | collection (addMethod : String) (itemType : Option ValueType) (ts : List τ) :
      Encloses name (.collection addMethod itemType) ts (.collection name addMethod (ts.map .object))
  | method (t : τ) : Encloses name .method [t] (.method name (.object t))

/-- How objects are refused: there is not just one of them, or the property takes none. -/
inductive FactoryKind.BlamesObjects (count : Nat) : FactoryKind → String → String → Prop where
  | number {kind : FactoryKind} (hkind : kind = .complex ∨ kind = .scalar .object ∨ kind = .method) (h : count ≠ 1) :
      BlamesObjects count kind (Text.ofNatural count ++ " objects") "exactly one nested object"
  | id : BlamesObjects count .id "nested object" ValueType.string.name
  | rendered : BlamesObjects count .rendered "nested object" ValueType.boolean.name
  | scalar {type : ValueType} (h : type ≠ .object) : BlamesObjects count (.scalar type) "nested object" type.name

/-- An element that is refused cannot stand before the first one that is. -/
theorem Value.FirstRefused.unique {itemType : Option ValueType} {vs : List Value} {u x : Value}
    (hu : FirstRefused itemType vs u) (hx : FirstRefused itemType vs x) : u = x := by
  obtain ⟨hrefused, before, after, hvs, haccepted⟩ := hu
  obtain ⟨hrefused', before', after', hvs', haccepted'⟩ := hx
  -- one of the two stands before the other or at its place, and those before it are accepted
  rcases List.append_eq_append_iff.mp (hvs.symm.trans hvs') with ⟨mid, hbefore, hrest⟩ | ⟨mid, hbefore, hrest⟩
  · cases mid with
    | nil => exact (List.cons.inj hrest).1
    | cons y mid =>
      obtain rfl : u = y := (List.cons.inj hrest).1
      obtain ⟨w, hw⟩ := haccepted' u (by simp [hbefore])
      exact absurd hw (hrefused w)
  · cases mid with
    | nil => exact (List.cons.inj hrest).1.symm
    | cons y mid =>
      obtain rfl : x = y := (List.cons.inj hrest).1
      obtain ⟨w, hw⟩ := haccepted x (by simp [hbefore])
      exact absurd hw (hrefused' w)

/-- There is one way of refusing a value. -/
theorem FactoryKind.Blames.unique {kind : FactoryKind} {v : Value} {literal expected literal' expected' : String}
    (h : kind.Blames v literal expected) (h' : kind.Blames v literal' expected') :
    literal = literal' ∧ expected = expected' := by
  cases h with
  | element hv hu =>
    cases h' with
    | element hv' hu' =>
      obtain rfl := (Factory.elements_of_holds hv).symm.trans (Factory.elements_of_holds hv')
      obtain rfl := hu.unique hu'
      exact ⟨rfl, rfl⟩
  | method hv =>
    cases h' with
    | method _ => exact ⟨rfl, rfl⟩
    | object h => exact absurd rfl (hv h)
  | object h =>
    cases h' with
    | method hv => exact absurd rfl (hv h)
    | object _ => exact ⟨rfl, rfl⟩
  | id _ | rendered _ | scalar _ _ | complex _ =>
    cases h'
    exact ⟨rfl, rfl⟩

/-- Every value stands for some elements, if only for itself. -/
theorem Value.exists_holds (v : Value) : ∃ vs, v.Holds vs := by
  cases v with
  | list vs => exact ⟨vs, .list vs⟩
  | null | bool _ | int _ | double _ | text _ | object _ => exact ⟨_, .single nofun⟩

namespace Coercion

variable {property : String} {type : ValueType} {v w : Value}

/-- A coercion gives what becomes of the value, except that it leaves no object as it is for the sake of an element. -/
theorem ofValue_iff_becomes :
    ofValue property v type = .ok w ↔ (∀ h, v = .object h → type = .object) ∧ v.Becomes (some type) w := by
  by_cases hv : ∃ h, v = .object h
  · obtain ⟨h, rfl⟩ := hv
    constructor
    · intro hw
      cases type with
      | object => exact ⟨fun _ _ => rfl, becomes_of_ofValue hw⟩
      | string | int | double | boolean => cases hw
    · rintro ⟨htype, hw⟩
      obtain rfl := htype h rfl
      cases hw <;> rfl
  · have hother : ∀ h, v ≠ .object h := not_exists.mp hv
    rw [ofValue_eq_ok_iff hother]
    exact (and_iff_right fun h heq => absurd heq (hother h)).symm

/-- A coercion to a truth value is what becomes of the value, without exception. -/
theorem ofValue_boolean_iff {flag : Bool} :
    ofValue property v .boolean = .ok (.bool flag) ↔ v.Becomes (some .boolean) (.bool flag) := by
  rw [ofValue_iff_becomes]
  refine and_iff_right_of_imp fun hbecomes h hv => ?_
  -- an object would have stayed an object
  subst hv
  cases hbecomes

/-- A coercion to a truth value gives a truth value. -/
theorem exists_bool_of_ofValue (h : ofValue property v .boolean = .ok w) : ∃ flag, w = .bool flag := by
  obtain ⟨hobject, hbecomes⟩ := ofValue_iff_becomes.mp h
  cases hbecomes with
  | object _ handle => cases hobject handle rfl
  | read hwrites =>
    cases hwrites with
    | boolean flag _ => exact ⟨flag, rfl⟩
  | boolean flag => exact ⟨flag, rfl⟩

end Coercion

namespace Factory

variable {τ : Type} {f : Factory} {v : Value} {a : Assignment τ} {e : Error}

theorem makes_of_assignValue (h : f.assignValue v = .ok a) : f.kind.Makes f.property v a := by
  -- by the kind of the property; for a collection this is known element by element
  cases hkind : f.kind with
  | collection addMethod itemType =>
    obtain ⟨vs, hv⟩ := v.exists_holds
    obtain ⟨ws, hws, rfl⟩ := (assignValue_eq_ok_iff hkind hv).mp h
    exact .collection hv hws
  | id =>
    simp only [assignValue, hkind] at h
    -- a value that has a text becomes that text
    cases v with
    | text s =>
      cases h
      exact .id (.read .string)
    | int i =>
      cases h
      exact .id (.shownInt i)
    | double d =>
      cases h
      exact .id (.shownDouble d)
    | bool b =>
      cases h
      exact .id (.shownFlag b)
    | null | list _ | object _ => cases h
  | rendered =>
    simp only [assignValue, hkind] at h
    split at h
    · cases h
    · cases h
      exact .rendered (Coercion.ofValue_boolean_iff.mp ‹_›)
    · cases h
  | scalar type =>
    simp only [assignValue, hkind] at h
    obtain ⟨w, hw, rfl⟩ := Outcome.map_eq_ok.mp h
    obtain ⟨hobject, hbecomes⟩ := Coercion.ofValue_iff_becomes.mp hw
    exact .scalar hobject hbecomes
  | complex =>
    simp only [assignValue, hkind] at h
    split at h
    · cases h
      exact .complex _
    · cases h
  | method =>
    simp only [assignValue, hkind] at h
    -- a text is an expression to be bound later, and an object has to stand for a callable already
    split at h
    · cases h
      exact .expression _
    · split at h
      · cases h
        exact .ready ‹_›
      · cases h
    · cases h

theorem assignValue_of_makes (h : f.kind.Makes f.property v a) : f.assignValue v = .ok a := by
  -- the other way, by how the value is accepted for the kind
  generalize hkind : f.kind = kind at h
  cases h with
  | collection hv hws => exact (assignValue_eq_ok_iff hkind hv).mpr ⟨_, hws, rfl⟩
  | id hbecomes =>
    simp only [assignValue, hkind]
    cases hbecomes with
    | read hwrites =>
      cases hwrites
      rfl
    | shownFlag _ | shownInt _ | shownDouble _ => rfl
  | rendered hbecomes => simp only [assignValue, hkind, Coercion.ofValue_boolean_iff.mpr hbecomes]
  | scalar hobject hbecomes =>
    simp only [assignValue, hkind]
    exact Outcome.map_eq_ok.mpr ⟨_, Coercion.ofValue_iff_becomes.mpr ⟨hobject, hbecomes⟩, rfl⟩
  | complex handle => simp only [assignValue, hkind]
  | expression text => simp only [assignValue, hkind]
  | ready hyields => simp only [assignValue, hkind, hyields]

/-- Of a value a factory makes what its kind makes. -/
theorem assignValue_iff_makes : f.assignValue v = .ok a ↔ f.kind.Makes f.property v a :=
  ⟨makes_of_assignValue, assignValue_of_makes⟩

/-- A value that is refused is refused in the way that belongs to the kind of the property. -/
theorem blames_of_assignValue (h : (f.assignValue v : Except Error (Assignment τ)) = .error e) :
    ∃ literal expected, f.kind.Blames v literal expected ∧ e = .typeCoercion f.property literal expected := by
  cases hkind : f.kind with
  | collection addMethod itemType =>
    obtain ⟨vs, hv⟩ := v.exists_holds
    obtain ⟨u, hu, rfl⟩ := (assignValue_eq_error_iff hkind hv).mp h
    exact ⟨_, _, .element hv hu, rfl⟩
  | id =>
    simp only [assignValue, hkind] at h
    split at h <;> cases h
    exact ⟨_, _, .id v, rfl⟩
  | rendered =>
    simp only [assignValue, hkind] at h
    split at h
    · cases h
      exact ⟨_, _, .rendered v, Coercion.eq_mismatch_of_ofValue ‹_›⟩
    · cases h
    · -- there are no other values of this type
      rename_i w hother hw
      obtain ⟨flag, rfl⟩ := Coercion.exists_bool_of_ofValue hw
      exact absurd rfl (hother flag)
  | scalar type =>
    simp only [assignValue, hkind] at h
    exact ⟨_, _, .scalar type v, Coercion.eq_mismatch_of_ofValue (Outcome.map_eq_error.mp h)⟩
  | complex =>
    simp only [assignValue, hkind] at h
    split at h <;> cases h
    exact ⟨_, _, .complex v, rfl⟩
  | method =>
    simp only [assignValue, hkind] at h
    split at h
    · cases h
    · split at h <;> cases h
      exact ⟨_, _, .object _, rfl⟩
    · cases h
      exact ⟨_, _, .method ‹_›, rfl⟩

/-- A value is refused just if nothing is made of it, and then in the one way there is. -/
theorem assignValue_refused_iff :
    (f.assignValue v : Except Error (Assignment τ)) = .error e ↔
      (∀ a : Assignment τ, ¬ f.kind.Makes f.property v a) ∧
        ∃ literal expected, f.kind.Blames v literal expected ∧ e = .typeCoercion f.property literal expected := by
  constructor
  · intro h
    -- of what is made of a value the factory would have made it
    refine ⟨fun a ha => ?_, blames_of_assignValue h⟩
    rw [assignValue_of_makes ha] at h
    cases h
  · rintro ⟨hnone, literal, expected, hblames, rfl⟩
    cases h : (f.assignValue v : Except Error (Assignment τ)) with
    | ok a => exact absurd (makes_of_assignValue h) (hnone a)
    | error e =>
      obtain ⟨literal', expected', hblames', rfl⟩ := blames_of_assignValue h
      obtain ⟨rfl, rfl⟩ := hblames.unique hblames'
      rfl

/-- A property for one object takes a list of just one. -/
theorem single_eq_ok_iff {ts : List τ} {t : τ} : f.single ts = .ok t ↔ ts = [t] := by
  unfold single
  split
  · simp
  · rename_i hts
    exact iff_of_false nofun (hts t)

/-- Any other list is refused with its length. -/
theorem single_eq_error_iff {ts : List τ} :
    f.single ts = .error e ↔ ts.length ≠ 1 ∧
      e = .typeCoercion f.property (Text.ofNatural ts.length ++ " objects") "exactly one nested object" := by
  unfold single
  split
  · exact iff_of_false nofun fun h => h.1 rfl
  · rename_i hts
    have hlength : ts.length ≠ 1 := by
      intro hone
      obtain ⟨t, rfl⟩ := List.length_eq_one_iff.mp hone
      exact hts t rfl
    simp only [Except.error.injEq, unfit]
    exact ⟨fun h => ⟨hlength, h.symm⟩, fun h => h.2.symm⟩

/-- Of objects a factory makes what its kind encloses them in. -/
theorem assignObjects_iff_encloses {ts : List τ} :
    f.assignObjects ts = .ok a ↔ f.kind.Encloses f.property ts a := by
  unfold assignObjects
  constructor
  · intro h
    -- four kinds of properties take objects
    split at h
    case h_1 hkind =>
      obtain ⟨t, ht, rfl⟩ := Outcome.map_eq_ok.mp h
      rw [hkind, single_eq_ok_iff.mp ht]
      exact .complex t
    case h_2 hkind =>
      obtain ⟨t, ht, rfl⟩ := Outcome.map_eq_ok.mp h
      rw [hkind, single_eq_ok_iff.mp ht]
      exact .scalar t
    case h_3 hkind =>
      cases h
      rw [hkind]
      exact .collection _ _ ts
    case h_4 hkind =>
      obtain ⟨t, ht, rfl⟩ := Outcome.map_eq_ok.mp h
      rw [hkind, single_eq_ok_iff.mp ht]
      exact .method t
    all_goals cases h
  · intro h
    generalize hkind : f.kind = kind at h
    cases h <;> rfl

/-- Objects are refused for their number, or because the property takes none. -/
theorem assignObjects_refused_iff {ts : List τ} :
    f.assignObjects ts = .error e ↔ ∃ literal expected, f.kind.BlamesObjects ts.length literal expected ∧
      e = .typeCoercion f.property literal expected := by
  unfold assignObjects
  constructor
  · intro h
    split at h
    case h_1 hkind | h_2 hkind | h_4 hkind =>
      obtain ⟨hcount, rfl⟩ := single_eq_error_iff.mp (Outcome.map_eq_error.mp h)
      exact ⟨_, _, .number (by simp [hkind]) hcount, rfl⟩
    case h_3 => cases h
    case h_5 hkind =>
      cases h
      rw [expectedType, hkind]
      exact ⟨_, _, .id, rfl⟩
    case h_6 hkind =>
      cases h
      rw [expectedType, hkind]
      exact ⟨_, _, .rendered, rfl⟩
    case h_7 type htype hkind =>
      cases h
      rw [expectedType, hkind]
      refine ⟨_, _, .scalar ?_, rfl⟩
      rintro rfl
      exact htype rfl
  · rintro ⟨literal, expected, hblames, rfl⟩
    generalize hkind : f.kind = kind at hblames
    cases hblames with
    | number hkinds hcount =>
      have hsingle := (single_eq_error_iff (f := f)).mpr ⟨hcount, rfl⟩
      rcases hkinds with rfl | rfl | rfl <;> exact Outcome.map_eq_error.mpr hsingle
    | id | rendered =>
      dsimp only
      rw [expectedType, hkind]
      rfl
    | @scalar type htype =>
      rw [expectedType, hkind]
      cases type with
      | object => exact absurd rfl htype
      | string | int | double | boolean => rfl

end Factory

/-! ## §2 What is given for a property -/

/-- The outcomes of compiling what is given for a property, each with the conditions for it. -/
inductive Template.Settles (t : Template) (name : String) : Raw → Except Error (Setter Template) → Prop where
  /-- Only a text may be an expression. -/
  | text {text : String} {result : Except Error (Setter Template)} (h : t.Compiles name text result) :
      Settles t name (.text text) result
  /-- There has to be a factory for a value and for objects as well. -/
  | unwritable {raw : Raw} {e : Error} (hraw : ∀ text, raw ≠ .text text) (hname : name ≠ loadedName)
      (h : t.definition.Unwritable name e) : Settles t name raw (.error e)
  | value {kind : FactoryKind} {v : Value} {a : Assignment Template} (hname : name ≠ loadedName)
      (hkind : t.definition.Describes name kind) (h : kind.Makes name v a) : Settles t name (.value v) (.ok (.assign a))
  | unfit {kind : FactoryKind} {v : Value} {literal expected : String} (hname : name ≠ loadedName)
      (hkind : t.definition.Describes name kind) (hnone : ∀ a : Assignment Template, ¬ kind.Makes name v a)
      (h : kind.Blames v literal expected) :
      Settles t name (.value v) (.error (.typeCoercion name literal expected))
  | objects {kind : FactoryKind} {ts : List Template} {a : Assignment Template} (hname : name ≠ loadedName)
      (hkind : t.definition.Describes name kind) (h : kind.Encloses name ts a) :
      Settles t name (.objects ts) (.ok (.assign a))
  | unfitObjects {kind : FactoryKind} {ts : List Template} {literal expected : String} (hname : name ≠ loadedName)
      (hkind : t.definition.Describes name kind) (h : kind.BlamesObjects ts.length literal expected) :
      Settles t name (.objects ts) (.error (.typeCoercion name literal expected))
  /-- A text that says whether the node is built is looked at as an expression even if it comes as a value. -/
  | condition {text : String} {result : Except Error (Setter Template)} (hname : name = loadedName)
      (h : t.Compiles loadedName text result) : Settles t name (.value (.text text)) result
  | flag (b : Bool) (hname : name = loadedName) : Settles t name (.value (.bool b)) (.ok (.loaded (.literal b)))
  | unfitFlag {v : Value} (hname : name = loadedName) (htext : ∀ text, v ≠ .text text) (hbool : ∀ b, v ≠ .bool b) :
      Settles t name (.value v) (.error (.typeCoercion loadedName v.display ValueType.boolean.name))
  | unfitFlagObjects (ts : List Template) (hname : name = loadedName) :
      Settles t name (.objects ts) (.error (.typeCoercion loadedName "nested object" ValueType.boolean.name))

/-- Factories are selected by the declarations of the definition. -/
def AnsweredByDeclarations : Event CompileRequest.Answer → Prop
  | ⟨.create .., _⟩ => True
  | ⟨.select _ d property, answer⟩ => answer = Factory.ofProperty d property

namespace Template

variable {t : Template} {name : String} {raw : Raw} {result : Except Error (Setter Template)}

/-- What is compiled of whatever is given for a property, if the factory is the one that the definition has for the
property. -/
def compiledSetter (t : Template) (name : String) : Raw → Except Error (Setter Template)
  | .text text => t.compiledText name text
  | .value v => if name = loadedName then compileConditionValue v
    else Factory.ofProperty t.definition name >>= fun f => (f.assignValue v).map .assign
  | .objects ts => if name = loadedName then .error (.typeCoercion loadedName "nested object" "boolean")
    else Factory.ofProperty t.definition name >>= fun f => (f.assignObjects ts).map .assign

/-- With a factory, the outcome is what the factory makes. -/
theorem compiledSetter_of_factory {f : Factory} (hname : name ≠ loadedName)
    (hf : Factory.ofProperty t.definition name = .ok f) : t.compiledSetter name raw = raw.compileWith t.tag name f := by
  cases raw with
  | text text => exact compiledText_of_factory hname hf
  | value v | objects ts =>
    rw [compiledSetter, if_neg hname, hf]
    rfl

/-- Without one, the outcome is the failure to find it, in whatever form something is given. -/
theorem compiledSetter_of_unwritable {e : Error} (hname : name ≠ loadedName)
    (he : Factory.ofProperty t.definition name = .error e) : t.compiledSetter name raw = .error e := by
  cases raw with
  | text text => exact compiledText_eq_iff.mpr (.unwritable hname (Factory.ofProperty_eq_error_iff.mp he))
  | value v | objects ts =>
    rw [compiledSetter, if_neg hname, he]
    rfl

/-- What a factory makes is in the list of outcomes. -/
theorem settles_compileWith {f : Factory} (hname : name ≠ loadedName)
    (hf : Factory.ofProperty t.definition name = .ok f) : t.Settles name raw (raw.compileWith t.tag name f) := by
  have hdescribed := Factory.describes_of_ofProperty hf
  obtain ⟨rfl, -⟩ := Factory.ofProperty_spec hf
  cases raw with
  | text text => exact .text (compiles_compileText hname hf)
  | value v =>
    show t.Settles f.property (.value v) ((f.assignValue v).map .assign)
    cases hmade : (f.assignValue v : Except Error (Assignment Template)) with
    | ok a => exact .value hname hdescribed (Factory.assignValue_iff_makes.mp hmade)
    | error e =>
      obtain ⟨hnone, literal, expected, hblames, rfl⟩ := Factory.assignValue_refused_iff.mp hmade
      exact .unfit hname hdescribed hnone hblames
  | objects ts =>
    -- here it is the number of objects that decides, together with the kind
    show t.Settles f.property (.objects ts) ((f.assignObjects ts).map .assign)
    cases hmade : f.assignObjects ts with
    | ok a => exact .objects hname hdescribed (Factory.assignObjects_iff_encloses.mp hmade)
    | error e =>
      obtain ⟨literal, expected, hblames, rfl⟩ := Factory.assignObjects_refused_iff.mp hmade
      exact .unfitObjects hname hdescribed hblames

/-- So is what is made of a value that says whether the node is built. -/
theorem settles_compileConditionValue (t : Template) (v : Value) :
    t.Settles loadedName (.value v) (compileConditionValue v) := by
  unfold compileConditionValue
  split
  · exact .flag _ rfl
  · exact .condition rfl (compiles_compileCondition t _)
  · rename_i hbool htext
    exact .unfitFlag rfl htext hbool

/-- The outcome of compiling is always in the list. -/
theorem settles_compiledSetter (t : Template) (name : String) (raw : Raw) :
    t.Settles name raw (t.compiledSetter name raw) := by
  by_cases hname : name = loadedName
  · subst hname
    cases raw with
    | text text => exact .text (compiledText_eq_iff.mp rfl)
    | value v => exact settles_compileConditionValue t v
    | objects ts => exact .unfitFlagObjects ts rfl
  · cases hf : Factory.ofProperty t.definition name with
    | ok f =>
      rw [compiledSetter_of_factory hname hf]
      exact settles_compileWith hname hf
    | error e =>
      rw [compiledSetter_of_unwritable hname hf]
      have hunwritable := Factory.ofProperty_eq_error_iff.mp hf
      cases raw with
      | text text => exact .text (.unwritable hname hunwritable)
      | value v | objects ts => exact .unwritable nofun hname hunwritable

/-- Whatever is given for a property, the outcome is the one that it has in the list. -/
theorem compiledSetter_eq_iff : t.compiledSetter name raw = result ↔ t.Settles name raw result := by
  constructor
  · rintro rfl
    exact settles_compiledSetter t name raw
  · -- a property that is described has a factory of the kind that is described
    have made : ∀ {kind}, name ≠ loadedName → t.definition.Describes name kind →
        ∃ f : Factory, f.property = name ∧ f.kind = kind ∧
          ∀ raw, t.compiledSetter name raw = raw.compileWith t.tag name f := by
      intro kind hname hkind
      obtain ⟨f, hf, hkind⟩ := Factory.exists_ofProperty hkind
      exact ⟨f, (Factory.ofProperty_spec hf).1, hkind, fun _ => compiledSetter_of_factory hname hf⟩
    -- each outcome in the list is the one that is compiled, by the factory of the property
    intro h
    cases h with
    | text h => exact compiledText_eq_iff.mpr h
    | unwritable _ hname h => exact compiledSetter_of_unwritable hname (Factory.ofProperty_eq_error_iff.mpr h)
    | value hname hkind h =>
      obtain ⟨f, rfl, rfl, hcompiled⟩ := made hname hkind
      rw [hcompiled, Raw.compileWith, Factory.assignValue_iff_makes.mpr h]
      rfl
    | unfit hname hkind hnone h =>
      obtain ⟨f, rfl, rfl, hcompiled⟩ := made hname hkind
      rw [hcompiled, Raw.compileWith, Factory.assignValue_refused_iff.mpr ⟨hnone, _, _, h, rfl⟩]
      rfl
    | objects hname hkind h =>
      obtain ⟨f, rfl, rfl, hcompiled⟩ := made hname hkind
      rw [hcompiled, Raw.compileWith, Factory.assignObjects_iff_encloses.mpr h]
      rfl
    | unfitObjects hname hkind h =>
      obtain ⟨f, rfl, rfl, hcompiled⟩ := made hname hkind
      rw [hcompiled, Raw.compileWith, Factory.assignObjects_refused_iff.mpr ⟨_, _, h, rfl⟩]
      rfl
    | condition hname h =>
      subst hname
      exact compiledText_eq_iff.mpr h
    | flag b hname => exact if_pos hname
    | unfitFlag hname htext hbool =>
      refine (if_pos hname).trans ?_
      unfold compileConditionValue
      split
      · exact absurd rfl (hbool _)
      · exact absurd rfl (htext _)
      · rfl
    | unfitFlagObjects ts hname => exact if_pos hname

/-- A run of the compiler in which factories are selected by the declarations has the outcome in question. -/
theorem compiledSetter_of_runs {compiling : List (Event CompileRequest.Answer)}
    (hknown : ∀ e ∈ compiling, AnsweredByDeclarations e) (h : Runs (t.compileSetter name raw) compiling result) :
    t.compiledSetter name raw = result := by
  by_cases hname : name = loadedName
  · subst hname
    cases raw with
    | text text | value v | objects ts => exact (Program.runs_done.mp h).2.symm
  · -- the factory is asked for first, and nothing else is asked for
    rw [compileSetter_eq raw hname] at h
    rcases Program.runs_bind_except.mp h with ⟨e, rfl, hselect⟩ | ⟨f, first, second, rfl, hselect, hmade⟩
    · obtain ⟨answer, rest, rfl, hrest⟩ := Program.runs_ask.mp hselect
      obtain ⟨rfl, rfl⟩ := Program.runs_done.mp hrest
      exact compiledSetter_of_unwritable hname (hknown _ List.mem_cons_self).symm
    · obtain ⟨answer, rest, rfl, hrest⟩ := Program.runs_ask.mp hselect
      obtain ⟨rfl, rfl⟩ := Program.runs_done.mp hrest
      rw [compiledSetter_of_factory hname (hknown _ List.mem_cons_self).symm]
      exact (Program.runs_done.mp hmade).2.symm

end Template

end PageTemplates
