import PageTemplates.Proofs.Build.PlainTexts
import PageTemplates.Proofs.Expression.Forms
import PageTemplates.Proofs.Template.DeclaredProperties
import PageTemplates.Proofs.Template.MemoHistory

/-!
# What becomes of the text of a property

What the text of a property is compiled to is decided by three things, one after the other: whether the definition has a
factory for the property, what kind of text it is, and only then what the text denotes. `Template.Compiles` lists the
outcomes with their conditions, in words that do not mention the compiler; and the outcomes are just those
(`compiles_iff`), whatever a memo has been asked for before. So an expression never becomes a literal, and the text of a
property that cannot be written is not looked at.

## Structure

- §1 says what a plain text denotes.
- §2 goes through the texts of a property whose factory is known, and through those of a condition.
- §3 adds the memo.
-/

namespace PageTemplates

open ExpressionKind (classify_eq_iff)

/-! ## §1 Plain texts -/

/-- The value of a scalar type that a text writes. -/
inductive ValueType.Writes (text : String) : ValueType → Value → Prop where
  | object : Writes text .object (.text text)
  | string : Writes text .string (.text text)
  | int {i : Int} (h : Text.integer? text.toList = some i) (low : -2147483648 ≤ i) (high : i ≤ 2147483647) :
      Writes text .int (.int (Int64.ofInt i))
  | double {d : Double} (h : Double.ofText? text = some d) : Writes text .double (.double d)
  | boolean (flag : Bool) (h : text = Value.boolText flag) : Writes text .boolean (.bool flag)

/-- The assignment to a property of some kind that a plain text denotes. Texts denote no objects. -/
inductive FactoryKind.Denotes {τ : Type} (name text : String) : FactoryKind → Assignment τ → Prop where
  | id : Denotes name text .id (.id text)
  | rendered (flag : Bool) (h : text = Value.boolText flag) : Denotes name text .rendered (.rendered flag)
  | scalar {type : ValueType} {v : Value} (h : type.Writes text v) :
      Denotes name text (.scalar type) (.scalar name v type)
  | item {addMethod : String} {type : ValueType} {v : Value} (h : type.Writes text v) :
      Denotes name text (.collection addMethod (some type)) (.collection name addMethod [.value v])
  | method : Denotes name text .method (.method name (.expression text))

/-- What a text should have been, in words. -/
def FactoryKind.wanted : FactoryKind → String
  | .id | .method => ValueType.string.name
  | .rendered => ValueType.boolean.name
  | .scalar type | .collection _ (some type) => type.name
  | .complex => "a nested object"
  | .collection _ none => "a list of nested objects"

namespace Coercion

variable {property text : String} {v : Value}

theorem ofTruthText_eq_ok_iff {flag : Bool} : ofTruthText property text = .ok flag ↔ text = Value.boolText flag := by
  unfold ofTruthText Value.boolText
  constructor
  · intro h
    split at h
    · cases h
      assumption
    · split at h
      · cases h
        assumption
      · cases h
  · rintro rfl
    cases flag <;> rfl

theorem integerIn?_eq_some_iff {low high i : Int} :
    Text.integerIn? low high text = some i ↔ Text.integer? text.toList = some i ∧ low ≤ i ∧ i ≤ high := by
  unfold Text.integerIn?
  cases Text.integer? text.toList with
  | none => simp
  | some j =>
    constructor
    · intro h
      obtain ⟨hbounds, hj⟩ := Option.ite_none_right_eq_some.mp h
      cases hj
      exact ⟨rfl, hbounds⟩
    · rintro ⟨hj, hbounds⟩
      cases hj
      exact if_pos hbounds

theorem ofText_eq_ok_iff {type : ValueType} : ofText property text type = .ok v ↔ type.Writes text v := by
  constructor
  · intro h
    cases type with
    | object =>
      cases h
      exact .object
    | string =>
      cases h
      exact .string
    | int =>
      simp only [ofText] at h
      split at h <;> cases h
      obtain ⟨hi, low, high⟩ := integerIn?_eq_some_iff.mp ‹_›
      exact .int hi low high
    | double =>
      simp only [ofText] at h
      split at h <;> cases h
      exact .double ‹_›
    | boolean =>
      obtain ⟨flag, hflag, rfl⟩ := Outcome.map_eq_ok.mp h
      exact .boolean flag (ofTruthText_eq_ok_iff.mp hflag)
  · intro h
    cases h with
    | object | string => rfl
    | @int i hi low high =>
      have hread : Text.integerIn? intBounds.1 intBounds.2 text = some i :=
        integerIn?_eq_some_iff.mpr ⟨hi, low, high⟩
      simp only [ofText, hread]
    | double hd => simp only [ofText, hd]
    | boolean flag hflag => exact Outcome.map_eq_ok.mpr ⟨flag, ofTruthText_eq_ok_iff.mpr hflag, rfl⟩

end Coercion

namespace Factory

variable {τ : Type} {f : Factory} {text : String} {a : Assignment τ}

theorem assignText_eq_ok_iff : f.assignText text = .ok a ↔ f.kind.Denotes f.property text a := by
  unfold assignText
  constructor
  · -- the cases of the definition are those of the relation, and two more in which nothing is made of a text
    intro h
    split at h
    case h_1 hkind =>
      cases h
      rw [hkind]
      exact .id
    case h_2 hkind =>
      obtain ⟨flag, hflag, rfl⟩ := Outcome.map_eq_ok.mp h
      rw [hkind]
      exact .rendered flag (Coercion.ofTruthText_eq_ok_iff.mp hflag)
    case h_3 hkind =>
      obtain ⟨v, hv, rfl⟩ := Outcome.map_eq_ok.mp h
      rw [hkind]
      exact .scalar (Coercion.ofText_eq_ok_iff.mp hv)
    case h_5 hkind =>
      obtain ⟨v, hv, rfl⟩ := Outcome.map_eq_ok.mp h
      rw [hkind]
      exact .item (Coercion.ofText_eq_ok_iff.mp hv)
    case h_7 hkind =>
      cases h
      rw [hkind]
      exact .method
    case h_4 | h_6 => cases h
  · intro h
    generalize hkind : f.kind = kind at h
    cases h with
    | id | method => rfl
    | rendered flag hflag =>
      exact Outcome.map_eq_ok.mpr ⟨flag, Coercion.ofTruthText_eq_ok_iff.mpr hflag, rfl⟩
    | scalar hv => exact Outcome.map_eq_ok.mpr ⟨_, Coercion.ofText_eq_ok_iff.mpr hv, rfl⟩
    | item hv => exact Outcome.map_eq_ok.mpr ⟨_, Coercion.ofText_eq_ok_iff.mpr hv, rfl⟩

/-- What is given for a method is what a callable is made of. -/
theorem assignText_method (hkind : f.kind = .method) (text : String) :
    (f.assignText text : Except Error (Assignment τ)) = .ok (.method f.property (.expression text)) :=
  assignText_eq_ok_iff.mpr (by rw [hkind]; exact .method)

/-- A text that denotes nothing is refused with the text as it is, and with what it should have been. -/
theorem eq_typeCoercion_of_assignText {e : Error}
    (h : (f.assignText text : Except Error (Assignment τ)) = .error e) :
    e = .typeCoercion f.property text f.kind.wanted := by
  unfold assignText at h
  split at h
  case h_1 | h_7 => cases h
  case h_2 hkind =>
    have htext : Coercion.ofText f.property text .boolean = .error e :=
      Outcome.map_eq_error.mpr (Outcome.map_eq_error.mp h)
    rw [hkind, Coercion.eq_mismatch_of_ofText htext]
    rfl
  case h_3 hkind | h_5 hkind =>
    rw [hkind, Coercion.eq_mismatch_of_ofText (Outcome.map_eq_error.mp h)]
    rfl
  case h_4 hkind | h_6 hkind =>
    cases h
    rw [hkind]
    rfl

theorem assignText_eq_error_iff {e : Error} :
    (f.assignText text : Except Error (Assignment τ)) = .error e ↔
      (∀ a : Assignment τ, ¬ f.kind.Denotes f.property text a) ∧ e = .typeCoercion f.property text f.kind.wanted := by
  constructor
  · intro h
    refine ⟨fun a ha => ?_, eq_typeCoercion_of_assignText h⟩
    rw [assignText_eq_ok_iff.mpr ha] at h
    cases h
  · rintro ⟨hnone, rfl⟩
    cases h : (f.assignText text : Except Error (Assignment τ)) with
    | ok a => exact absurd (assignText_eq_ok_iff.mp h) (hnone a)
    | error e => rw [eq_typeCoercion_of_assignText h]

end Factory

/-! ## §2 Texts of a property -/

namespace Template

variable {t : Template} {name text : String} {result : Except Error (Setter Template)}

/-- The outcomes of compiling the text of a property, each with the conditions for it. -/
inductive Compiles (t : Template) (name text : String) : Except Error (Setter Template) → Prop where
  /-- Whatever the text is, there has to be a factory. -/
  | unwritable {e : Error} (hname : name ≠ loadedName) (h : t.definition.Unwritable name e) :
      Compiles t name text (.error e)
  | loadTime {f : Factory} (hname : name ≠ loadedName) (hf : Factory.ofProperty t.definition name = .ok f)
      (h : ExpressionKind.loadTime.Fits text) : Compiles t name text (.ok (.loadTime name (Text.trim text) f))
  /-- A callable is made of a run-time expression. -/
  | callable (hname : name ≠ loadedName) (hkind : t.definition.Describes name .method)
      (h : ExpressionKind.runTime.Fits text) : Compiles t name text (.ok (.assign (.method name (.expression text))))
  | live {kind : FactoryKind} (hname : name ≠ loadedName) (hkind : t.definition.Describes name kind)
      (hmethod : kind ≠ .method) (hlive : t.definition.AllowsLive name) (h : ExpressionKind.runTime.Fits text) :
      Compiles t name text (.ok (.runTime name text kind.liveType))
  | notLive {kind : FactoryKind} (hname : name ≠ loadedName) (hkind : t.definition.Describes name kind)
      (hmethod : kind ≠ .method) (hlive : ¬ t.definition.AllowsLive name) (h : ExpressionKind.runTime.Fits text) :
      Compiles t name text (.error (.bindingResolution name text
        ("'" ++ name ++ "' on '" ++ t.tag ++ "' does not accept runtime bindings")))
  /-- A text that is no expression is taken for what it denotes. -/
  | literal {kind : FactoryKind} {a : Assignment Template} (hname : name ≠ loadedName)
      (hkind : t.definition.Describes name kind) (h : ExpressionKind.literal.Fits text)
      (ha : kind.Denotes name text a) : Compiles t name text (.ok (.assign a))
  | unfit {kind : FactoryKind} (hname : name ≠ loadedName) (hkind : t.definition.Describes name kind)
      (h : ExpressionKind.literal.Fits text) (hnone : ∀ a : Assignment Template, ¬ kind.Denotes name text a) :
      Compiles t name text (.error (.typeCoercion name text kind.wanted))
  /-- Whether the node is built may be left to an expression. -/
  | condition (hname : name = loadedName) (h : ExpressionKind.loadTime.Fits text) :
      Compiles t name text (.ok (.loaded (.expression (Text.trim text))))
  | liveCondition (hname : name = loadedName) (h : ExpressionKind.runTime.Fits text) :
      Compiles t name text (.error (.bindingResolution loadedName text
        "'loaded' only accepts literals or load-time expressions"))
  | flag (flag : Bool) (hname : name = loadedName) (h : text = Value.boolText flag) :
      Compiles t name text (.ok (.loaded (.literal flag)))
  | unfitCondition (hname : name = loadedName) (h : ExpressionKind.literal.Fits text)
      (hnone : ∀ flag, text ≠ Value.boolText flag) :
      Compiles t name text (.error (.typeCoercion loadedName text ValueType.boolean.name))

/-- What the text of a property is compiled to, if the factory is the one that the definition has for the property. -/
def compiledText (t : Template) (name text : String) : Except Error (Setter Template) :=
  if name = loadedName then compileCondition text
  else Factory.ofProperty t.definition name >>= compileText t.tag name text

theorem fits_boolText (flag : Bool) : ExpressionKind.literal.Fits (Value.boolText flag) := by
  -- neither of the two texts has a delimiter in it
  rw [← classify_eq_iff]
  cases flag <;> decide

theorem compiledText_of_factory {f : Factory} (hname : name ≠ loadedName)
    (hf : Factory.ofProperty t.definition name = .ok f) : t.compiledText name text = compileText t.tag name text f := by
  rw [compiledText, if_neg hname, hf]
  rfl

/-- The factory of a property that is described is of the kind that is described. -/
theorem compiledText_of_describes {kind : FactoryKind} (hname : name ≠ loadedName)
    (hkind : t.definition.Describes name kind) (text : String) :
    ∃ f : Factory, f.property = name ∧ f.kind = kind ∧ (f.allowsRunTime = true ↔ t.definition.AllowsLive name) ∧
      t.compiledText name text = compileText t.tag name text f := by
  obtain ⟨f, hf, hkind⟩ := Factory.exists_ofProperty hkind
  exact ⟨f, (Factory.ofProperty_spec hf).1, hkind, Factory.allowsRunTime_iff hf, compiledText_of_factory hname hf⟩

theorem compiles_compileCondition (t : Template) (text : String) :
    t.Compiles loadedName text (compileCondition text) := by
  unfold compileCondition
  cases hkind : ExpressionKind.classify text with
  | loadTime => exact .condition rfl (classify_eq_iff.mp hkind)
  | runTime => exact .liveCondition rfl (classify_eq_iff.mp hkind)
  | literal =>
    dsimp only
    cases htruth : Coercion.ofTruthText loadedName text with
    | ok flag => exact .flag flag rfl (Coercion.ofTruthText_eq_ok_iff.mp htruth)
    | error e =>
      -- the truth texts are those of a Boolean property, and so is the refusal
      have htext : Coercion.ofText loadedName text .boolean = .error e := Outcome.map_eq_error.mpr htruth
      rw [Coercion.eq_mismatch_of_ofText htext]
      refine .unfitCondition rfl (classify_eq_iff.mp hkind) fun flag hflag => ?_
      rw [Coercion.ofTruthText_eq_ok_iff.mpr hflag] at htruth
      cases htruth

theorem compiles_compileText {f : Factory} (hname : name ≠ loadedName)
    (hf : Factory.ofProperty t.definition name = .ok f) : t.Compiles name text (compileText t.tag name text f) := by
  have hdescribed := Factory.describes_of_ofProperty hf
  obtain ⟨rfl, -⟩ := Factory.ofProperty_spec hf
  unfold compileText
  cases hkind : ExpressionKind.classify text with
  | loadTime => exact .loadTime hname hf (classify_eq_iff.mp hkind)
  | runTime =>
    dsimp only
    split
    · -- the text is what the callable is made of
      rename_i hmethod
      rw [Factory.assignText_method hmethod]
      exact .callable hname (hmethod ▸ hdescribed) (classify_eq_iff.mp hkind)
    · rename_i hmethod
      split
      · rename_i hlive
        exact .live hname hdescribed hmethod ((Factory.allowsRunTime_iff hf).mp hlive) (classify_eq_iff.mp hkind)
      · rename_i hlive
        exact .notLive hname hdescribed hmethod (mt (Factory.allowsRunTime_iff hf).mpr hlive)
          (classify_eq_iff.mp hkind)
  | literal =>
    dsimp only
    cases ha : (f.assignText text : Except Error (Assignment Template)) with
    | ok a => exact .literal hname hdescribed (classify_eq_iff.mp hkind) (Factory.assignText_eq_ok_iff.mp ha)
    | error e =>
      obtain ⟨hnone, rfl⟩ := Factory.assignText_eq_error_iff.mp ha
      exact .unfit hname hdescribed (classify_eq_iff.mp hkind) hnone

/-- Each outcome comes about under its conditions, and no other does. -/
theorem compiledText_eq_iff : t.compiledText name text = result ↔ t.Compiles name text result := by
  constructor
  · rintro rfl
    by_cases hname : name = loadedName
    · subst hname
      exact compiles_compileCondition t text
    · -- a failure to select a factory comes before the text is classified
      cases hf : Factory.ofProperty t.definition name with
      | ok f =>
        rw [compiledText_of_factory hname hf]
        exact compiles_compileText hname hf
      | error e =>
        rw [compiledText, if_neg hname, hf]
        exact .unwritable hname (Factory.ofProperty_eq_error_iff.mp hf)
  · -- the conditions of an outcome lead the compiler down one branch
    intro h
    cases h with
    | unwritable hname h =>
      rw [compiledText, if_neg hname, Factory.ofProperty_eq_error_iff.mpr h]
      rfl
    | loadTime hname hf h => rw [compiledText_of_factory hname hf, compileText, classify_eq_iff.mpr h]
    | callable hname hkind h =>
      obtain ⟨f, rfl, hkind, -, hcompiled⟩ := compiledText_of_describes hname hkind text
      simp only [hcompiled, compileText, classify_eq_iff.mpr h, if_pos hkind, Factory.assignText_method hkind]
      rfl
    | live hname hkind hmethod hlive h =>
      obtain ⟨f, -, rfl, hallows, hcompiled⟩ := compiledText_of_describes hname hkind text
      simp only [hcompiled, compileText, classify_eq_iff.mpr h, if_neg hmethod, if_pos (hallows.mpr hlive),
        Factory.expectedType]
    | notLive hname hkind hmethod hlive h =>
      obtain ⟨f, -, rfl, hallows, hcompiled⟩ := compiledText_of_describes hname hkind text
      simp only [hcompiled, compileText, classify_eq_iff.mpr h, if_neg hmethod, if_neg (mt hallows.mp hlive)]
    | literal hname hkind h ha =>
      obtain ⟨f, rfl, rfl, -, hcompiled⟩ := compiledText_of_describes hname hkind text
      simp only [hcompiled, compileText, classify_eq_iff.mpr h, Factory.assignText_eq_ok_iff.mpr ha]
      rfl
    | unfit hname hkind h hnone =>
      obtain ⟨f, rfl, rfl, -, hcompiled⟩ := compiledText_of_describes hname hkind text
      simp only [hcompiled, compileText, classify_eq_iff.mpr h, Factory.assignText_eq_error_iff.mpr ⟨hnone, rfl⟩]
      rfl
    | condition hname h =>
      simp only [compiledText, if_pos hname, compileCondition, classify_eq_iff.mpr h]
    | liveCondition hname h =>
      simp only [compiledText, if_pos hname, compileCondition, classify_eq_iff.mpr h]
    | flag flag hname h =>
      subst h
      simp only [compiledText, if_pos hname, compileCondition, classify_eq_iff.mpr (fits_boolText flag),
        Coercion.ofTruthText_eq_ok_iff.mpr rfl]
      rfl
    | unfitCondition hname h hnone =>
      have herror : Coercion.ofTruthText loadedName text = .error (Coercion.mismatch loadedName text .boolean) := by
        have htrue : text ≠ "true" := hnone true
        have hfalse : text ≠ "false" := hnone false
        rw [Coercion.ofTruthText, if_neg htrue, if_neg hfalse]
      simp only [compiledText, if_pos hname, compileCondition, classify_eq_iff.mpr h, herror]
      rfl

end Template

/-! ## §3 Memos -/

/-- Whatever may happen, a memo answers with what the definition has for the property. -/
theorem Memory.History.obtainFactory_eq {m : Memory} {calls : List MemoCall} (h : History calls m) {r : Resident}
    (hr : r ∈ m.held) (property : String) :
    (m.memo.obtainFactory r.definition property).1 = Factory.ofProperty r.definition property := by
  obtain ⟨kept, -, htold⟩ := (h.ask hr property).exists_stands
  exact htold.answer _ List.mem_cons_self

theorem TemplateMaker.run_compileTextSetter (f : TemplateMaker) {t : Template} {name : String} {w : World}
    (hmemo : ((w.memos t.memo).obtainFactory t.definition name).1 = Factory.ofProperty t.definition name)
    (text : String) : (f.run (t.compileTextSetter name text) w).1 = t.compiledText name text := by
  unfold Template.compileTextSetter Template.compiledText
  split
  · rfl
  · show (Program.run f.answer (ExceptT.bindCont (fun g => Compile.ofExcept (Template.compileText t.tag name text g))
      ((w.memos t.memo).obtainFactory t.definition name).1)
      { w with memos := (w.memos.obtainFactory t.memo t.definition name).2 }).1 = _
    rw [hmemo]
    cases Factory.ofProperty t.definition name <;> rfl

/-- **What becomes of the text of a property.** Whatever definitions have been made, dropped and asked for, the outcome
of compiling a text for a property of a definition that somebody keeps is the one that the property, the kind of the
text and what it denotes have in the list of outcomes. -/
theorem compiles_iff {calls : List MemoCall} {m : Memory} (past : Memory.History calls m) {r : Resident}
    (hr : r ∈ m.held) {t : Template} (hdefinition : t.definition = r.definition) {w : World}
    (hmemo : w.memos t.memo = m.memo) (f : TemplateMaker) (name text : String)
    (result : Except Error (Setter Template)) :
    (f.run (t.compileTextSetter name text) w).1 = result ↔ t.Compiles name text result := by
  -- the history of the memo is all that the outcome could depend on besides
  have hanswer : ((w.memos t.memo).obtainFactory t.definition name).1 = Factory.ofProperty t.definition name := by
    rw [hmemo, hdefinition]
    exact past.obtainFactory_eq hr name
  rw [f.run_compileTextSetter hanswer, Template.compiledText_eq_iff]

/-- A property for an integer, whose factory has been asked for before: an expression is kept without the blanks around
it, though a number stands in it, and a text that is no number is refused. -/
theorem integer_property_compiled :
    let r : Resident := ⟨0, Memory.worded 0 "int"⟩
    let made : Memory := ⟨[r], .empty, 1⟩
    let asked : Memory := { made with memo := (made.memo.call r "value").after }
    let t : Template := .empty r.definition 0
    let w : World := { World.initial (.library .empty) with memos := fun _ => asked.memo }
    let f : TemplateMaker := ⟨0, Gate.permissive⟩
    (∃ calls, Memory.History calls asked ∧ asked.memo.size = 1) ∧
      (f.run (t.compileTextSetter "value" " $\x7b5\x7d ") w).1 =
        .ok (.loadTime "value" "$\x7b5\x7d" ⟨"value", "int", true, .scalar .int⟩) ∧
      (f.run (t.compileTextSetter "value" "5$") w).1 = .error (.typeCoercion "value" "5$" "int") := by
  intro r made asked t w f
  have past : Memory.History [made.memo.call r "value"] asked :=
    (Memory.History.start.make r.definition (by rintro (⟨_, h, -⟩ | ⟨_, h, -⟩) <;> cases h)).ask
      List.mem_cons_self "value"
  have hr : r ∈ asked.held := List.mem_cons_self
  have hdeclares : t.definition.Declares "value" (.simple "value" "int") := ⟨by decide, by decide, rfl⟩
  have hkind : t.definition.Describes "value" (.scalar .int) := .simple hdeclares rfl rfl
  refine ⟨⟨_, past, by decide +kernel⟩, ?_, ?_⟩
  · exact (compiles_iff past hr rfl rfl f "value" " $\x7b5\x7d " _).mpr
      (.loadTime (by decide) rfl (classify_eq_iff.mp (by decide)))
  · refine (compiles_iff past hr rfl rfl f "value" "5$" _).mpr
      (.unfit (by decide) hkind (classify_eq_iff.mp (by decide)) ?_)
    -- what would be denoted is an integer that the text writes
    intro a ha
    cases ha with
    | scalar hwrites =>
      cases hwrites with
      | int h _ _ => cases h

end PageTemplates
