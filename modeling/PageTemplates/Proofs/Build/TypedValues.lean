import PageTemplates.Proofs.Build.ScopeIndependence
import PageTemplates.Proofs.Template.Furnishing
import PageTemplates.Proofs.Template.TextSetters

/-!
# Typed values and expressions

A value that is given with its type should be taken as it is. Whatever text it holds, the setter that is compiled of it
holds no expression, puts no request for one when it is applied, and makes no difference to what is evaluated in a build
of the template that it is attached to (`Setter.Inert`). There is one exception: what says whether a node is built is
compiled of a text value as of an attribute. A load-time expression that is given there as a value is kept as an
expression, and is evaluated each time the node might be built (`typed_value_inert_iff`).

## Structure

- §1 says what it is for a setter to be inert, and shows it of assignments without objects and of known conditions.
- §2 says what typed values are compiled to.
-/

namespace PageTemplates

open Program (Asks Event Runs)

/-! ## §1 Inert setters -/

/-- An expression is kept in the setter, to be evaluated or made a live value of when a component is built. -/
def Setter.HoldsExpression {τ : Type} : Setter τ → Prop
  | .loadTime .. | .runTime .. | .loaded (.expression _) => True
  | .assign _ | .loaded (.literal _) => False

/-- A text is evaluated as an expression, or is made a live value, or a live value is installed. -/
def BuildRequest.TakesExpression : BuildRequest → Prop
  | .evaluate _ | .bindValue .. | .write _ (.liveValue ..) => True
  | _ => False

/-- No part of the setter is ever looked at as an expression for a value. -/
structure Setter.Inert (s : Setter Template) : Prop where
  plain : ¬ s.HoldsExpression
  /-- Nothing is evaluated or bound on any component that the setter is applied to. -/
  applied : ∀ site : Site, Asks (fun r => ¬ r.TakesExpression) (site.apply (Template.nestSetter s))
  /-- A template evaluates nothing else for having the setter. -/
  built : ∀ t : Template, Evaluates t.Involves (t.attach s).component?

section Inert

variable {t : Template} {s : Setter Template}

/-- What is involved after a setter has been attached was involved before, if the setter holds nothing that is. -/
theorem Template.involves_of_attach {e : String} (hplain : ¬ s.HoldsExpression) (hnested : s.nested = [])
    (h : (t.attach s).Involves e) : t.Involves e := by
  obtain ⟨u, hwithin, hmentions⟩ := h
  rcases Relation.ReflTransGen.cases_head hwithin with rfl | ⟨v, hv, hwithin⟩
  · -- the template itself mentions the expression
    refine ⟨t, .refl t, ?_⟩
    rcases hmentions with hloaded | ⟨name, f, hmem⟩
    · cases s with
      | loaded flag =>
        cases hloaded
        exact absurd trivial hplain
      | assign | loadTime | runTime => exact .inl hloaded
    · rcases mem_setters_attach hmem with rfl | hmem
      · exact absurd trivial hplain
      · exact .inr ⟨name, f, hmem⟩
  · -- a template inside it does, and that is one of those that were inside before
    obtain ⟨other, hother, hheld⟩ := List.mem_flatMap.mp hv
    rcases mem_setters_attach hother with rfl | hother
    · rw [hnested] at hheld
      cases hheld
    · exact ⟨u, .head (List.mem_flatMap.mpr ⟨other, hother, hheld⟩) hwithin, hmentions⟩

/-- A setter without an expression and without objects makes no difference to what may be evaluated. -/
theorem Template.evaluates_attach (hplain : ¬ s.HoldsExpression) (hnested : s.nested = []) (t : Template) :
    Evaluates t.Involves (t.attach s).component? :=
  evaluates_mono (evaluates_component _) fun _ => Template.involves_of_attach hplain hnested

/-- No request of an assignment takes an expression, apart from what is in the objects that it holds. -/
theorem Site.not_takesExpression_of_puts {site : Site} {a : Assignment Nested} {r : BuildRequest} (h : site.Puts a r) :
    ¬ r.TakesExpression := by
  cases h with
  | write hw => cases hw <;> exact id
  | _ => exact id

/-- An assignment without objects holds no expression, so it is inert. -/
theorem inert_assign {a : Assignment Template} (hnested : a.nested = []) : (Setter.assign a).Inert where
  plain := id
  applied site := by
    have hfollows := site.follows_assign (Template.nestAssignment a)
    rw [Template.nested_nestAssignment, hnested] at hfollows
    exact hfollows.asks (fun _ => Site.not_takesExpression_of_puts) (List.forall_mem_nil _)
  built := Template.evaluates_attach id hnested

/-- A condition that is known is inert. -/
theorem inert_literal (flag : Bool) : (Setter.loaded (.literal flag) : Setter Template).Inert where
  plain := id
  applied _ := Asks.done _
  built := Template.evaluates_attach id rfl

/-- An expression that says whether the node is built is evaluated to the answer. -/
theorem evaluatedAs_mem_of_isLoaded {e : String} {events : List BuildEvent} {flag : Bool}
    (h : Runs (t.attach (.loaded (.expression e))).isLoaded events (.ok flag)) :
    evaluatedAs e (.ok (.bool flag)) ∈ events := by
  obtain ⟨_, first, rest, rfl, hcheck, h⟩ := Program.runs_bind_ok h
  obtain ⟨v, second, third, rfl, hevaluate, hdone⟩ := Program.runs_bind_ok h
  have hvalue : v = .bool flag := by
    cases v with
    | bool b =>
      cases (Program.runs_pure_except.mp hdone).2
      rfl
    | null | int _ | double _ | text _ | list _ | object _ => cases (Program.runs_done.mp hdone).2
  rw [runs_askOr_ok hevaluate, hvalue]
  exact List.mem_append_right _ List.mem_cons_self

end Inert

/-! ## §2 Typed values -/

section Values

variable {t : Template} {name : String} {v : Value} {s : Setter Template}

/-- A typed value that is kept as an expression: a load-time expression that is to say whether the node is built. -/
def Value.IsKeptAsExpression (name : String) (v : Value) : Prop :=
  name = loadedName ∧ ∃ text, v = .text text ∧ ExpressionKind.loadTime.Fits text

/-- The setters that typed values are compiled to. -/
inductive Value.CompiledTo (name : String) (v : Value) : Setter Template → Prop where
  | assigned {a : Assignment Template} (hname : name ≠ loadedName) (hnested : a.nested = []) :
      CompiledTo name v (.assign a)
  | flag (flag : Bool) (h : v = .bool flag ∨ v = .text (Value.boolText flag)) :
      CompiledTo name v (.loaded (.literal flag))
  | expression {text : String} (hname : name = loadedName) (hv : v = .text text)
      (h : ExpressionKind.loadTime.Fits text) : CompiledTo name v (.loaded (.expression (Text.trim text)))

/-- What says whether a node is built is compiled of a value to a condition. -/
theorem compiledTo_of_compileConditionValue (h : Template.compileConditionValue v = .ok s) :
    v.CompiledTo loadedName s := by
  unfold Template.compileConditionValue at h
  split at h
  · cases h
    exact .flag _ (.inl rfl)
  · rename_i text
    -- from here on a text is what it would be as an attribute
    have hcompiles := Template.compiles_compileCondition (.empty ⟨0, "", "", "", .empty, none, default⟩ 0) text
    rw [h] at hcompiles
    cases hcompiles with
    | condition _ hfits => exact .expression rfl rfl hfits
    | flag flag _ htext => exact .flag flag (.inr (htext ▸ rfl))
    | loadTime hname | callable hname | live hname | literal hname => exact absurd rfl hname
  · cases h

/-- What a typed value is compiled to, for any property and with any factory. -/
theorem compiledTo_of_runs {events : List (Event CompileRequest.Answer)}
    (h : Runs (t.compileSetter name (.value v)) events (.ok s)) : v.CompiledTo name s := by
  by_cases hname : name = loadedName
  · subst hname
    exact compiledTo_of_compileConditionValue (Program.runs_done.mp h).2.symm
  · -- the factory makes an assignment of the value, and it holds no objects
    rw [Template.compileSetter_eq _ hname] at h
    obtain ⟨f, first, second, rfl, -, hmade⟩ := Program.runs_bind_ok h
    obtain ⟨a, ha, rfl⟩ := Outcome.map_eq_ok.mp (Program.runs_done.mp hmade).2.symm
    exact .assigned hname (Factory.assignValue_spec ha).1

/-- **Typed values and expressions.** Whatever factories are selected, the setter that is compiled of a typed value is
inert, unless the value is a load-time expression that is to say whether the node is built. Such a value is kept as an
expression without the blanks around it, and whether a node with that setter is built is what it evaluates to. -/
theorem typed_value_inert_iff {events : List (Event CompileRequest.Answer)}
    (h : Runs (t.compileSetter name (.value v)) events (.ok s)) :
    (s.Inert ↔ ¬ v.IsKeptAsExpression name) ∧
      ∀ text, name = loadedName → v = .text text → ExpressionKind.loadTime.Fits text →
        s = .loaded (.expression (Text.trim text)) ∧
          ∀ (u : Template) (built : List BuildEvent) (flag : Bool), Runs (u.attach s).isLoaded built (.ok flag) →
            evaluatedAs (Text.trim text) (.ok (.bool flag)) ∈ built := by
  cases compiledTo_of_runs h with
  | assigned hname hnested =>
    have hkept : ¬ v.IsKeptAsExpression name := fun hkept => hname hkept.1
    exact ⟨iff_of_true (inert_assign hnested) hkept, fun _ hloaded => absurd hloaded hname⟩
  | flag flag hv =>
    -- neither a truth value nor the text of one is a load-time expression
    have hother : ∀ text, v = .text text → ¬ ExpressionKind.loadTime.Fits text := by
      rintro text htext hfits
      rcases hv with rfl | rfl <;> cases htext
      exact (Template.fits_boolText flag).1 hfits
    have hkept : ¬ v.IsKeptAsExpression name := fun ⟨_, text, htext, hfits⟩ => hother text htext hfits
    exact ⟨iff_of_true (inert_literal flag) hkept, fun text _ htext hfits => absurd hfits (hother text htext)⟩
  | @expression kept hname hv hfits =>
    refine ⟨iff_of_false (fun hinert => hinert.plain trivial) (not_not.mpr ⟨hname, kept, hv, hfits⟩), ?_⟩
    rintro text - htext -
    cases hv.symm.trans htext
    exact ⟨rfl, fun u built flag => evaluatedAs_mem_of_isLoaded⟩

/-- An id that looks like an expression is an id. -/
theorem id_value_inert : ∃ events,
    Runs ((plainTemplate "text").compileSetter "id" (.value (.text "$\x7bx\x7d"))) events
      (.ok (.assign (.id "$\x7bx\x7d"))) ∧
      (Setter.assign (.id "$\x7bx\x7d") : Setter Template).Inert := by
  let f : Factory := ⟨"id", "java.lang.String", false, .id⟩
  have h : Runs ((plainTemplate "text").compileSetter "id" (.value (.text "$\x7bx\x7d")))
      [⟨.select 0 (plainTemplate "text").definition "id", (.ok f : Except Error Factory)⟩]
      (.ok (.assign (.id "$\x7bx\x7d"))) := .ask _ _ (.done _)
  exact ⟨_, h, (typed_value_inert_iff h).1.mpr fun hkept => absurd hkept.1 (by decide)⟩

/-- The same text is evaluated if it is to say whether the node is built, instead of being refused for being no truth
value; where it evaluates to `false` the node is not built. -/
theorem loaded_value_evaluated :
    let t := plainTemplate "text"
    let s : Setter Template := .loaded (.expression "$\x7bx\x7d")
    Runs (t.compileSetter "loaded" (.value (.text "$\x7bx\x7d"))) [] (.ok s) ∧ s.HoldsExpression ∧ ¬ s.Inert ∧
      Program.trace (valueHost (.bool false)) (t.attach s).component? () =
        (.ok none, [passed (.loadTime ⟨"text", none⟩ "loaded" "$\x7bx\x7d"),
          evaluatedAs "$\x7bx\x7d" (.ok (.bool false))]) :=
  ⟨.done _, trivial, fun hinert => hinert.plain trivial, rfl⟩

end Values

end PageTemplates
