import PageTemplates.Proofs.Build.EvaluatedOnce
import PageTemplates.Proofs.Build.PolicySoundness

/-!
# A text, and an expression whose value is that text

A factory makes an assignment of a plain text, and of the value of an expression. Of a text it makes the same either
way (`Factory.sameOfText`), so that an expression whose value is a text does on a component what the text would have
done. What is left of the setter once its expression has a value is `runs_loadTime_iff`.
-/

namespace PageTemplates

open Program (Runs)

/-! ## §1 Factories -/

section Factories

variable {τ : Type}

/-- A text that is none of a type is refused with the text as it is, and with the name of that type. -/
theorem Coercion.eq_mismatch_of_ofText {property text : String} {type : ValueType} {e : Error}
    (h : ofText property text type = .error e) : e = mismatch property text type := by
  cases type with
  | object | string => cases h
  | int | double =>
    simp only [ofText] at h
    split at h <;> cases h
    rfl
  | boolean =>
    have htruth : ofTruthText property text = .error e := Outcome.map_eq_error.mp h
    unfold ofTruthText at htruth
    split at htruth
    · cases htruth
    · split at htruth <;> cases htruth
      rfl

/-- Two outcomes for one text: the same assignment, or two failures of coercion that name the property and the text.
The failures are worded alike, unless the property holds any number of objects. -/
inductive Factory.SameOfText (f : Factory) (name text : String) :
    Except Error (Assignment τ) → Except Error (Assignment τ) → Prop where
  | made (a : Assignment τ) : SameOfText f name text (.ok a) (.ok a)
  | refused (expected : String) :
      SameOfText f name text (.error (.typeCoercion name text expected)) (.error (.typeCoercion name text expected))
  | reworded {addMethod : String} (h : f.kind = .collection addMethod none) (expected other : String) :
      SameOfText f name text (.error (.typeCoercion name text expected)) (.error (.typeCoercion name text other))

/-- The assignments made of the results of one coercion are the same. -/
theorem Factory.sameOfText_map {f : Factory} {text : String} (type : ValueType) (made : Value → Assignment τ) :
    f.SameOfText f.property text ((Coercion.ofText f.property text type).map made)
      ((Coercion.ofText f.property text type).map made) := by
  cases h : Coercion.ofText f.property text type with
  | ok v => exact .made (made v)
  | error e =>
    obtain rfl := Coercion.eq_mismatch_of_ofText h
    exact .refused type.name

/-- Whatever a property is declared to hold, a text is treated alike as a literal and as a value. -/
theorem Factory.sameOfText (τ : Type) (f : Factory) (text : String) :
    f.SameOfText f.property text (f.assignText text : Except Error (Assignment τ)) (f.assignValue (.text text)) := by
  unfold assignText assignValue
  -- by the kind of the property; a shown flag and a collection need more than a coercion
  cases hkind : f.kind with
  | id => exact .made _
  | method => exact .made _
  | complex => exact .refused _
  | scalar type =>
    simp only [Coercion.ofValue_text]
    exact sameOfText_map type _
  | rendered =>
    simp only [Coercion.ofValue_text, Coercion.ofText]
    cases h : Coercion.ofTruthText f.property text with
    | ok flag => exact .made _
    | error e =>
      have htext : Coercion.ofText f.property text .boolean = .error e := Outcome.map_eq_error.mpr h
      obtain rfl := Coercion.eq_mismatch_of_ofText htext
      exact .refused _
  | collection addMethod itemType =>
    cases itemType with
    | none => exact .reworded hkind _ _
    | some type =>
      -- the text is the only element
      have hvalue : ([Value.text text].mapM (f.itemOf (some type))).map (.collection f.property addMethod) =
          (Coercion.ofText f.property text type).map fun v =>
            (.collection f.property addMethod [.value v] : Assignment τ) := by
        rw [List.mapM_cons]
        show ((Coercion.ofValue f.property (.text text) type).map Item.value >>= fun item => _).map _ = _
        rw [Coercion.ofValue_text]
        cases Coercion.ofText f.property text type <;> rfl
      show f.SameOfText f.property text _ (([Value.text text].mapM (f.itemOf (some type))).map _)
      rw [hvalue]
      exact sameOfText_map type _

/-- An assignment made of a text is the same whatever it may hold, since it holds no objects. -/
theorem Factory.assignText_nested (f : Factory) (text : String) :
    (f.assignText text : Except Error (Assignment Nested)) = (f.assignText text).map Template.nestAssignment := by
  unfold assignText
  -- no kind of property makes an assignment with an object of a text
  cases f.kind with
  | id | method | complex => rfl
  | rendered =>
    dsimp only
    cases Coercion.ofTruthText f.property text <;> rfl
  | scalar type =>
    dsimp only
    cases Coercion.ofText f.property text type <;> rfl
  | collection addMethod itemType =>
    cases itemType with
    | none => rfl
    | some type =>
      dsimp only
      cases Coercion.ofText f.property text type <;> rfl

end Factories

/-! ## §2 Setters -/

/-- Once the check has passed and the expression has a value, the factory decides how a load-time setter goes on. -/
theorem runs_loadTime_iff (s : Site) (name e : String) (f : Factory) (v : Value) (rest : List BuildEvent)
    (result : Except Error Unit) :
    Runs (s.apply (.loadTime name e f)) (passed (.loadTime s.target name e) :: evaluatedAs e (.ok v) :: rest) result ↔
      match (f.assignValue v : Except Error (Assignment Nested)) with
      | .ok a => Runs (s.assign a) rest result
      | .error err => rest = [] ∧ result = .error (.bindingResolution name e err.message) := by
  have hgoes : Runs (s.apply (.loadTime name e f))
      (passed (.loadTime s.target name e) :: evaluatedAs e (.ok v) :: rest) result ↔
        Runs (Site.resolved name e f v >>= s.assign : Build Unit) rest result := by
    constructor
    · intro h
      obtain ⟨_, _, heq, h⟩ := Program.runs_ask.mp h
      cases heq
      obtain ⟨_, _, heq, h⟩ := Program.runs_ask.mp h
      cases heq
      exact h
    · intro h
      exact .ask _ _ (.ask _ _ h)
  rw [hgoes, Site.resolved]
  cases (f.assignValue v : Except Error (Assignment Nested)) with
  | ok a => rfl
  | error err => exact Program.runs_done

/-- An assignment that is made of a text asks for something. -/
theorem asks_of_assignText {s : Site} {f : Factory} {text : String} {a : Assignment Nested} {events : List BuildEvent}
    {result : Except Error Unit} (ha : f.assignText text = .ok a)
    (h : Runs (s.assign a) events result) : events ≠ [] := by
  -- the first request is a check, or that for the callable
  have asked : ∀ {r : BuildRequest} {next : r.Answer → Program BuildRequest.Answer (Except Error Unit)},
      Runs (.ask r next) events result → events ≠ [] := by
    intro r next h
    obtain ⟨_, _, rfl, _⟩ := Program.runs_ask.mp h
    exact List.cons_ne_nil _ _
  unfold Factory.assignText at ha
  -- one case for each assignment that is made of a text
  split at ha
  case h_1 | h_7 =>
    cases ha
    exact asked h
  case h_2 | h_3 | h_5 =>
    obtain ⟨_, -, rfl⟩ := Outcome.map_eq_ok.mp ha
    exact asked h
  case h_4 | h_6 => cases ha

/-- What is left of a load-time setter whose expression has a text as its value, by what the text is as a literal. -/
theorem runs_loadTime_text_iff (f : Factory) (s : Site) (e text : String) :
    ∃ expected, ∀ rest result, Runs (s.apply (.loadTime f.property e f))
        (passed (.loadTime s.target f.property e) :: evaluatedAs e (.ok (.text text)) :: rest) result ↔
      match (f.assignText text : Except Error (Assignment Template)) with
      | .ok a => Runs (s.assign (Template.nestAssignment a)) rest result
      | .error _ => rest = [] ∧
        result = .error (.bindingResolution f.property e (Error.typeCoercion f.property text expected).message) := by
  -- the value is looked at with programs in the place of templates, which makes no difference to a text
  have hsame := f.sameOfText Nested text
  rw [Factory.assignText_nested] at hsame
  generalize hvalue : (f.assignValue (.text text) : Except Error (Assignment Nested)) = value at hsame
  have hgoes := runs_loadTime_iff s f.property e f (.text text)
  rw [hvalue] at hgoes
  cases hmade : (f.assignText text : Except Error (Assignment Template)) with
  | ok a =>
    rw [hmade] at hsame
    cases hsame with
    | made _ => exact ⟨"", hgoes⟩
  | error err =>
    rw [hmade] at hsame
    cases hsame with
    | refused expected => exact ⟨expected, hgoes⟩
    | reworded _ _ other => exact ⟨other, hgoes⟩

/-- **A text means the same as a literal and as a value.** For every property that a factory is known for, what the
factory makes of a text as a literal and as a value is the same. So a setter whose expression has the text as its value
goes on as the setter of the literal does; and it ends there, with a failure of its binding, just if the literal is
refused. -/
theorem text_as_literal_and_value {d : Definition} {name : String} {f : Factory}
    (hf : Factory.ofProperty d name = .ok f) (text : String) :
    f.SameOfText name text (f.assignText text : Except Error (Assignment Template)) (f.assignValue (.text text)) ∧
      ∀ (s : Site) (e : String),
        let goesOn rest result := Runs (s.apply (Template.nestSetter (.loadTime name e f)))
          (passed (.loadTime s.target name e) :: evaluatedAs e (.ok (.text text)) :: rest) result
        (∀ a, f.assignText text = .ok a →
          ∀ rest result, goesOn rest result ↔ Runs (s.apply (Template.nestSetter (.assign a))) rest result) ∧
        (∀ err, (f.assignText text : Except Error (Assignment Template)) = .error err →
          ∀ rest result, goesOn rest result → rest = [] ∧ ∃ expected,
            result = .error (.bindingResolution name e (Error.typeCoercion name text expected).message)) ∧
        ((∃ result, goesOn [] result) ↔
          ∃ err, (f.assignText text : Except Error (Assignment Template)) = .error err) := by
  obtain rfl : f.property = name := (Factory.ofProperty_spec hf).1
  refine ⟨f.sameOfText Template text, fun s e => ?_⟩
  -- the runs of the setter are known, so only the two outcomes of the literal are left
  obtain ⟨expected, hgoes⟩ := runs_loadTime_text_iff f s e text
  cases hmade : (f.assignText text : Except Error (Assignment Template)) with
  | ok a =>
    simp only [hmade] at hgoes
    have htext : (f.assignText text : Except Error (Assignment Nested)) = .ok (Template.nestAssignment a) := by
      rw [Factory.assignText_nested, hmade]
      rfl
    refine ⟨?_, nofun, ?_, nofun⟩
    · intro b hb rest result
      cases hb
      exact hgoes rest result
    · -- the setter of the literal asks for something
      rintro ⟨result, h⟩
      exact absurd rfl (asks_of_assignText htext ((hgoes [] result).mp h))
  | error err =>
    simp only [hmade] at hgoes
    refine ⟨nofun, ?_, fun _ => ⟨err, rfl⟩, fun _ => ⟨_, (hgoes [] _).mpr ⟨rfl, rfl⟩⟩⟩
    intro _ _ rest result h
    obtain ⟨hrest, hresult⟩ := (hgoes rest result).mp h
    exact ⟨hrest, expected, hresult⟩

/-- The property that says whether a component is shown takes two texts, as literals and as values. A text in capitals
is refused, and a setter whose expression has that value fails. -/
theorem rendered_texts :
    let f : Factory := ⟨"rendered", "boolean", true, .rendered⟩
    let s : Site := ⟨⟨"a", none⟩, ⟨0, "a"⟩⟩
    Factory.ofProperty ⟨0, "", "a", "a", .empty, none, default⟩ "rendered" = .ok f ∧
      (f.assignText "true" : Except Error (Assignment Template)) = .ok (.rendered true) ∧
      (∀ rest result, Runs (s.apply (Template.nestSetter (.loadTime "rendered" "$\x7bx\x7d" f)))
          (passed (.loadTime s.target "rendered" "$\x7bx\x7d") :: evaluatedAs "$\x7bx\x7d" (.ok (.text "true")) :: rest)
          result ↔ Runs (s.apply (Template.nestSetter (.assign (.rendered true)))) rest result) ∧
      ∃ result, Runs (s.apply (Template.nestSetter (.loadTime "rendered" "$\x7bx\x7d" f)))
        [passed (.loadTime s.target "rendered" "$\x7bx\x7d"), evaluatedAs "$\x7bx\x7d" (.ok (.text "TRUE"))] result := by
  intro f s
  have hf : Factory.ofProperty ⟨0, "", "a", "a", .empty, none, default⟩ "rendered" = .ok f := rfl
  have htrue := (text_as_literal_and_value hf "true").2 s "$\x7bx\x7d"
  have hcapitals := (text_as_literal_and_value hf "TRUE").2 s "$\x7bx\x7d"
  exact ⟨hf, rfl, htrue.1 _ rfl, hcapitals.2.2.mpr ⟨_, rfl⟩⟩

end PageTemplates
