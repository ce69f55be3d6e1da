import PageTemplates.Proofs.Build.Course
import PageTemplates.Proofs.Build.Pruning

/-!
# Load-time expressions are evaluated once

The requests of a successful build that have to do with expressions are listed in order (`expressionUses`), and so are
the setters of a template, each followed by those of the objects that it holds (`Template.allSetters`). The two lists
fit together: each setter is the cause of uses of its own (`Setter.Causes`), and there are no others
(`expressions_evaluated_once`).

So a load-time expression is evaluated once for each time that its template is built, and what comes back is not looked
at as an expression again: a text is assigned as a plain text is, even if it looks like an expression.

## Structure

- §1 lists the uses of expressions, and §2 the setters.
- §3 gives the uses of an assignment, §4 those of a setter, §5 those of a build.
-/

namespace PageTemplates

open Program (Runs)

/-! ## §1 Uses of expressions -/

/-- What a build does with an expression. -/
inductive ExpressionUse where
  | evaluated (expression : String) (answer : Except EvaluationError Value)
  /-- A live value is made of it. -/
  | bound (expression : String) (type : ValueType)
  /-- A live value is installed under a property name. -/
  | installed (name : String)
  /-- A callable is made of it. -/
  | called (expression : String)

def ExpressionUse.of? : BuildEvent → Option ExpressionUse
  | ⟨.evaluate e, answer⟩ => some (.evaluated e answer)
  | ⟨.bindValue e type, _⟩ => some (.bound e type)
  | ⟨.write _ (.liveValue name _), _⟩ => some (.installed name)
  | ⟨.bindCallable e, _⟩ => some (.called e)
  | _ => none

def expressionUses (events : List BuildEvent) : List ExpressionUse := events.filterMap ExpressionUse.of?

/-- The expression, if it is evaluated. -/
def ExpressionUse.evaluation? : ExpressionUse → Option String
  | .evaluated e _ => some e
  | .bound .. | .installed _ | .called _ => none

/-- The expressions that are evaluated, in order. -/
def evaluations (events : List BuildEvent) : List String :=
  (expressionUses events).filterMap ExpressionUse.evaluation?

@[simp] theorem expressionUses_append (first second : List BuildEvent) :
    expressionUses (first ++ second) = expressionUses first ++ expressionUses second := List.filterMap_append

theorem expressionUses_cons (e : BuildEvent) (rest : List BuildEvent) :
    expressionUses (e :: rest) = (ExpressionUse.of? e).toList ++ expressionUses rest := by
  unfold expressionUses
  cases h : ExpressionUse.of? e <;> simp [h]

theorem expressionUses_flatten (parts : List (List BuildEvent)) :
    expressionUses parts.flatten = (parts.map expressionUses).flatten := by
  rw [expressionUses, List.filterMap_flatten]
  rfl

/-- The request has nothing to do with expressions. -/
def BuildRequest.IsSilent (r : BuildRequest) : Prop := ∀ answer, ExpressionUse.of? ⟨r, answer⟩ = none

/-- In a course whose own requests are silent, all uses are those of the objects that are built. -/
theorem Course.expressionUses_eq {α : Type} {own : BuildRequest → Prop} {objects : List Nested} {a : α}
    {events : List BuildEvent} (h : Course own objects (.ok a) events) (hown : ∀ r, own r → r.IsSilent) :
    ∃ builds, expressionUses events = (builds.map expressionUses).flatten ∧
      List.Forall₂ (fun n built => ∃ i, Runs n.build built (.ok i)) objects builds := by
  -- a success has not broken off, so that each object has been built
  generalize hresult : (Except.ok a : Except Error α) = result at h
  induction h with
  | done _ => exact ⟨[], rfl, .nil⟩
  -- what the course asks for itself is silent
  | @own _ _ e rest h _ ih =>
    obtain ⟨builds, huses, hbuilds⟩ := ih hresult
    refine ⟨builds, ?_, hbuilds⟩
    rw [expressionUses_cons, show ExpressionUse.of? e = none from hown _ h e.answer]
    exact huses
  | @built _ _ _ _ first _ h _ ih =>
    obtain ⟨builds, huses, hbuilds⟩ := ih hresult
    exact ⟨first :: builds, by simp [huses], .cons ⟨_, h⟩ hbuilds⟩
  | failed | broken => cases hresult

/-! ## §2 The setters of a build -/

/-- The setters of a template, each followed by those of the objects that it holds. -/
def Template.allSetters (t : Template) : List (Setter Template) :=
  t.setters.attach.flatMap fun s => s.1 :: s.1.nested.attach.flatMap fun u => allSetters u.1
termination_by sizeOf t
decreasing_by exact sizeOf_lt_of_mem_nested (List.mem_flatMap.mpr ⟨s.1, s.2, u.2⟩)

theorem Template.allSetters_eq (t : Template) :
    t.allSetters = t.setters.flatMap fun s => s :: s.nested.flatMap allSetters := by
  rw [allSetters]
  simp

def Setter.loadTimeExpression? : Setter Template → Option String
  | .loadTime _ e _ => some e
  | .assign _ | .runTime .. | .loaded _ => none

/-- The load-time expressions of a template and of the templates inside it, in the order of the setters. -/
def Template.loadTimeExpressions (t : Template) : List String := t.allSetters.filterMap Setter.loadTimeExpression?

/-- The expressions that an assignment makes a callable of. -/
def Assignment.called {τ : Type} : Assignment τ → List String
  | .method _ (.expression e) => [e]
  | _ => []

/-- The expressions that are taken from a value to make a callable of. -/
def Factory.called (f : Factory) (v : Value) : List String := if f.kind = .method then v.asText?.toList else []

/-- The uses of expressions that a setter is the cause of, apart from those in the objects that it holds. -/
inductive Setter.Causes : Setter Template → List ExpressionUse → Prop where
  | assign (a : Assignment Template) : Causes (.assign a) (a.called.map .called)
  | loadTime (name e : String) (f : Factory) (v : Value) :
      Causes (.loadTime name e f) (.evaluated e (.ok v) :: (f.called v).map .called)
  | runTime (name e : String) (type : ValueType) : Causes (.runTime name e type) [.bound e type, .installed name]
  | loaded (flag : BuildCondition) : Causes (.loaded flag) []

/-- Setters account for uses of expressions: each causes its own, in order, and there are no others. -/
def Accounts (setters : List (Setter Template)) (uses : List ExpressionUse) : Prop :=
  ∃ parts, uses = parts.flatten ∧ List.Forall₂ Setter.Causes setters parts

namespace Accounts

variable {setters more : List (Setter Template)} {uses others : List ExpressionUse}

theorem nil : Accounts [] [] := ⟨[], rfl, .nil⟩

/-- Setters one after the other account for their uses one after the other. -/
theorem append (h : Accounts setters uses) (hmore : Accounts more others) :
    Accounts (setters ++ more) (uses ++ others) := by
  obtain ⟨parts, rfl, hparts⟩ := h
  obtain ⟨rest, rfl, hrest⟩ := hmore
  exact ⟨parts ++ rest, by simp, List.rel_append hparts hrest⟩

theorem cons {s : Setter Template} {own : List ExpressionUse} (hs : s.Causes own) (h : Accounts setters uses) :
    Accounts (s :: setters) (own ++ uses) := by
  obtain ⟨parts, rfl, hparts⟩ := h
  exact ⟨own :: parts, rfl, .cons hs hparts⟩

/-- Only load-time setters cause evaluations, and each causes that of its own expression. -/
theorem evaluations_eq (h : Accounts setters uses) :
    uses.filterMap ExpressionUse.evaluation? = setters.filterMap Setter.loadTimeExpression? := by
  obtain ⟨parts, rfl, hparts⟩ := h
  induction hparts with
  | nil => rfl
  | @cons s own _ _ hs _ ih =>
    -- a callable is not an evaluation, even if it is made of a value that came back
    have hown : own.filterMap ExpressionUse.evaluation? = s.loadTimeExpression?.toList := by
      cases hs <;> simp [ExpressionUse.evaluation?, Setter.loadTimeExpression?, List.filterMap_eq_nil_iff]
    rw [List.flatten_cons, List.filterMap_append, hown, ih]
    cases h : s.loadTimeExpression? <;> simp [h]

end Accounts

/-! ## §3 Assignments -/

section Assignments

variable {s : Site} {a : Assignment Nested} {name : String} {events : List BuildEvent}

/-- An assignment has to do with an expression only where a callable is made of one. -/
theorem isSilent_of_puts {r : BuildRequest} (h : s.Puts a r) (ha : a.called = []) : r.IsSilent := by
  intro answer
  cases h with
  | bindCallable heq =>
    subst heq
    cases ha
  | write h => cases h <;> rfl
  | _ => rfl

/-- A callable is made of the expression once, and then only wired and installed. -/
theorem expressionUses_installCallable {e : String}
    (h : Runs (s.installCallable name (.expression e)) events (.ok ())) : expressionUses events = [.called e] := by
  obtain ⟨c, first, others, rfl, hbind, h⟩ := Program.runs_bind_ok h
  obtain ⟨c₁, second, others, rfl, howner, h⟩ := Program.runs_bind_ok h
  obtain ⟨c₂, third, others, rfl, hcomponent, h⟩ := Program.runs_bind_ok h
  obtain ⟨_, fourth, fifth, rfl, hcheck, hwrite⟩ := Program.runs_bind_ok h
  obtain ⟨_, rfl, -⟩ := (runs_askOr (h := rfl)).mp hbind
  obtain ⟨_, rfl, -⟩ := runs_wireOwner howner
  obtain ⟨_, rfl, -⟩ := runs_wireComponent hcomponent
  obtain ⟨_, rfl, -⟩ := runs_askOr.mp hcheck
  obtain ⟨_, rfl, -⟩ := runs_askOr.mp hwrite
  rfl

/-- The uses of an assignment are its callable, if it makes one, and those of the objects that it holds. -/
theorem expressionUses_assign (h : Runs (s.assign a) events (.ok ())) :
    ∃ builds, expressionUses events = a.called.map .called ++ (builds.map expressionUses).flatten ∧
      List.Forall₂ (fun n built => ∃ i, Runs n.build built (.ok i)) a.nested builds := by
  -- a course does not say how often a request is put, so the one assignment that makes a callable is taken apart
  by_cases ha : a.called = []
  · obtain ⟨builds, huses, hbuilds⟩ := (s.follows_assign a _ _ h).expressionUses_eq fun r hr => isSilent_of_puts hr ha
    exact ⟨builds, by simp [ha, huses], hbuilds⟩
  · -- this is the only assignment that makes one
    obtain ⟨name, e, rfl⟩ : ∃ name e, a = .method name (.expression e) := by
      cases a with
      | method name source => cases source <;> simp_all [Assignment.called]
      | _ => exact absurd rfl ha
    exact ⟨[], by simp [expressionUses_installCallable h, Assignment.called], .nil⟩

theorem called_nestAssignment (a : Assignment Template) : (Template.nestAssignment a).called = a.called := by
  cases a with
  | method name source => cases source <;> rfl
  | _ => rfl

end Assignments

/-! ## §4 Setters -/

section Values

variable {τ : Type} {f : Factory} {v : Value} {a : Assignment τ}

/-- Only a text that is given to a method becomes the expression of a callable. -/
theorem Factory.called_of_assignValue (h : f.assignValue v = .ok a) : a.called = f.called v := by
  -- by the kind of the property, and within that by the value
  unfold assignValue at h
  unfold called
  cases hkind : f.kind with
  | id =>
    rw [hkind] at h
    cases v <;> cases h <;> rfl
  | rendered =>
    rw [hkind] at h
    dsimp only at h
    split at h <;> cases h
    rfl
  | scalar type | collection addMethod type =>
    rw [hkind] at h
    obtain ⟨w, _, rfl⟩ := Outcome.map_eq_ok.mp h
    rfl
  | complex =>
    rw [hkind] at h
    cases v <;> cases h
    rfl
  | method =>
    rw [hkind] at h
    dsimp only at h
    split at h
    · cases h
      rfl
    · split at h <;> cases h
      rfl
    · cases h

theorem Coercion.ofValue_text (property text : String) (type : ValueType) :
    ofValue property (.text text) type = ofText property text type := by
  cases type <;> rfl

/-- A text is assigned as a plain text is, whatever it looks like. -/
theorem Factory.assignText_of_assignValue {text : String} (h : f.assignValue (.text text) = .ok a) :
    f.assignText text = .ok a := by
  unfold assignValue at h
  unfold assignText
  cases hkind : f.kind with
  | id | method | complex =>
    rw [hkind] at h
    exact h
  | rendered =>
    simp only [hkind, Coercion.ofValue_text, Coercion.ofText] at h
    cases hflag : Coercion.ofTruthText f.property text with
    | error e =>
      rw [hflag] at h
      cases h
    | ok flag =>
      rw [hflag] at h
      exact h
  | scalar type =>
    simp only [hkind, Coercion.ofValue_text] at h
    exact h
  | collection addMethod type =>
    simp only [hkind] at h
    obtain ⟨items, hitems, rfl⟩ := Outcome.map_eq_ok.mp h
    -- the text is the only element
    change [Value.text text].mapM (f.itemOf type) = .ok items at hitems
    rw [List.mapM_cons] at hitems
    obtain ⟨item, hitem, hrest⟩ := Outcome.bind_eq_ok.mp hitems
    cases hrest
    cases type with
    | none => cases hitem
    | some type =>
      obtain ⟨w, hw, rfl⟩ := Outcome.map_eq_ok.mp hitem
      rw [Coercion.ofValue_text] at hw
      simp only [hw]
      rfl

end Values

/-- A load-time setter has evaluated its expression and has assigned the value, as a plain text if it is a text. -/
def Site.AssignsOnce (s : Site) (name e : String) (f : Factory) (part : List BuildEvent) : Prop :=
  ∃ v a rest, part = passed (.loadTime s.target name e) :: evaluatedAs e (.ok v) :: rest ∧ f.assignValue v = .ok a ∧
    (∀ text, v = .text text → f.assignText text = .ok a) ∧ Runs (s.assign a) rest (.ok ())

section Setters

variable {s : Site} {name e : String} {f : Factory} {setter : Setter Template} {part : List BuildEvent}

theorem assignsOnce_of_runs (h : Runs (s.apply (.loadTime name e f)) part (.ok ())) : s.AssignsOnce name e f part := by
  cases Site.resolves_of_runs h with
  | assigned hvalue hrun =>
    refine ⟨_, _, _, rfl, hvalue, ?_, hrun⟩
    rintro text rfl
    exact Factory.assignText_of_assignValue hvalue

theorem Site.AssignsOnce.expressionUses_eq (h : s.AssignsOnce name e f part) :
    ∃ v, expressionUses part = .evaluated e (.ok v) :: (f.called v).map .called := by
  obtain ⟨v, a, rest, rfl, hvalue, -, hrun⟩ := h
  obtain ⟨builds, huses, hbuilds⟩ := expressionUses_assign hrun
  -- a value holds nothing that is still to be built
  rw [(Factory.assignValue_spec hvalue).1] at hbuilds
  cases hbuilds
  refine ⟨v, ?_⟩
  rw [expressionUses_cons, expressionUses_cons, huses, Factory.called_of_assignValue hvalue]
  simp [ExpressionUse.of?, passed, evaluatedAs]

theorem expressionUses_runTime {type : ValueType} (h : Runs (s.apply (.runTime name e type)) part (.ok ())) :
    expressionUses part = [.bound e type, .installed name] := by
  obtain ⟨b, first, others, rfl, hbind, h⟩ := Program.runs_bind_ok h
  obtain ⟨_, second, third, rfl, hcheck, hwrite⟩ := Program.runs_bind_ok h
  obtain ⟨_, rfl, -⟩ := (runs_askOr (h := rfl)).mp hbind
  obtain ⟨_, rfl, -⟩ := runs_askOr.mp hcheck
  obtain ⟨_, rfl, -⟩ := runs_askOr.mp hwrite
  rfl

/-- A setter causes uses of its own, and builds the objects that it holds. -/
theorem causes_apply (h : Runs (s.apply (Template.nestSetter setter)) part (.ok ())) :
    ∃ own builds, setter.Causes own ∧ expressionUses part = own ++ (builds.map expressionUses).flatten ∧
      List.Forall₂ (fun u built => ∃ i, Runs (Template.instantiate u) built (.ok i)) setter.nested builds := by
  cases setter with
  | assign a =>
    obtain ⟨builds, huses, hbuilds⟩ := expressionUses_assign h
    rw [called_nestAssignment] at huses
    rw [Template.nested_nestAssignment, List.forall₂_map_left_iff] at hbuilds
    exact ⟨_, builds, .assign a, huses, hbuilds⟩
  | loadTime name e f =>
    obtain ⟨v, huses⟩ := (assignsOnce_of_runs h).expressionUses_eq
    exact ⟨_, [], .loadTime name e f v, by simp [huses], .nil⟩
  | runTime name e type => exact ⟨_, [], .runTime name e type, by simp [expressionUses_runTime h], .nil⟩
  | loaded flag =>
    obtain ⟨rfl, -⟩ := Program.runs_pure_except.mp h
    exact ⟨_, [], .loaded flag, rfl, .nil⟩

end Setters

/-! ## §5 Builds -/

section Builds

/-- Whatever is built of the template, its setters account for the uses of expressions. -/
def Template.Accounted (t : Template) : Prop :=
  ∀ events i, Runs t.instantiate events (.ok i) → Accounts t.allSetters (expressionUses events)

theorem accounts_objects {ts : List Template} {builds : List (List BuildEvent)}
    (h : List.Forall₂ (fun u built => ∃ i, Runs (Template.instantiate u) built (.ok i)) ts builds)
    (hts : ∀ u ∈ ts, u.Accounted) : Accounts (ts.flatMap Template.allSetters) (builds.map expressionUses).flatten := by
  -- by induction on the objects, each of which has its own build
  induction h with
  | nil => exact .nil
  | cons hbuilt _ ih =>
    obtain ⟨i, hrun⟩ := hbuilt
    obtain ⟨ht, hrest⟩ := List.forall_mem_cons.mp hts
    rw [List.flatMap_cons, List.map_cons, List.flatten_cons]
    exact (ht _ i hrun).append (ih hrest)

theorem accounts_setters {s : Site} {setters : List (Setter Template)} {parts : List (List BuildEvent)}
    (h : List.Forall₂ (fun setter part => Runs (s.apply (Template.nestSetter setter)) part (.ok ())) setters parts)
    (hn : ∀ u ∈ setters.flatMap Setter.nested, u.Accounted) :
    Accounts (setters.flatMap fun s => s :: s.nested.flatMap Template.allSetters)
      (parts.map expressionUses).flatten := by
  -- by induction on the setters: the uses of each come first, then those of its objects
  induction h with
  | nil => exact .nil
  | cons hpart _ ih =>
    obtain ⟨own, builds, hcauses, huses, hbuilds⟩ := causes_apply hpart
    rw [List.flatMap_cons, List.forall_mem_append] at hn
    rw [List.flatMap_cons, List.map_cons, List.flatten_cons, huses]
    exact (Accounts.cons hcauses (accounts_objects hbuilds hn.1)).append (ih hn.2)

/-- The setters of a template account for the uses of expressions in every build of it. -/
theorem accounted_instantiate (t : Template) : t.Accounted := by
  -- by induction over nested templates, so that what holds of the objects of a setter is there when its turn comes
  induction t using Template.nested_induction with
  | step t ih =>
    intro events i h
    obtain ⟨parts, wiring, rfl, hparts, hwiring⟩ := runs_instantiate h
    -- neither constructing a component nor wiring its page has to do with expressions
    have hquiet : expressionUses wiring = [] := by
      refine List.filterMap_eq_nil_iff.mpr fun e he => ?_
      have hwired := hwiring e he
      obtain ⟨r, answer⟩ := e
      cases r with
      | wirePage _ _ => rfl
      | _ => exact hwired.elim
    rw [expressionUses_cons, expressionUses_append, hquiet, expressionUses_flatten, List.append_nil, t.allSetters_eq]
    exact accounts_setters hparts ih

/-- A build of a template in which each load-time setter of its own assigns its value, and does so once. -/
def Template.AssignsOnce (t : Template) (i : Instance) (events : List BuildEvent) : Prop :=
  ∃ parts wiring, events = constructed t.definition i :: (parts.flatten ++ wiring) ∧
    List.Forall₂ (fun setter part => ∀ name e f, setter = .loadTime name e f →
      Site.AssignsOnce ⟨t.owner, i⟩ name e f part) t.setters parts

theorem assignsOnce_of_instantiate {t : Template} {i : Instance} {events : List BuildEvent}
    (h : Runs t.instantiate events (.ok i)) : t.AssignsOnce i events := by
  obtain ⟨parts, wiring, heq, hparts, -⟩ := runs_instantiate h
  refine ⟨parts, wiring, heq, hparts.imp fun setter part hpart => ?_⟩
  rintro name e f rfl
  exact assignsOnce_of_runs hpart

end Builds

/-- **A load-time expression is evaluated once**: in a successful build the expressions that are evaluated are the
load-time expressions of the template and of those inside it, in the order of their setters. The setters account for
all uses of expressions. A load-time setter of the template, or of one inside it, assigns the value that it got, as a
plain text if it is a text. -/
theorem expressions_evaluated_once {t : Template} {i : Instance} {events : List BuildEvent}
    (h : Runs t.instantiate events (.ok i)) :
    evaluations events = t.loadTimeExpressions ∧ Accounts t.allSetters (expressionUses events) ∧
      t.AssignsOnce i events ∧ ∀ u, t.Within u → ∃ built j, built <:+: events ∧ u.AssignsOnce j built := by
  have haccounts := accounted_instantiate t events i h
  refine ⟨haccounts.evaluations_eq, haccounts, assignsOnce_of_instantiate h, fun u hu => ?_⟩
  -- a template inside has a build of its own within this one
  obtain ⟨built, j, hbuilt, hrun⟩ := exists_built_of_within hu h
  exact ⟨built, j, hbuilt, assignsOnce_of_instantiate hrun⟩

/-- A panel with a title, and inside it a button with an action, both given by load-time expressions. -/
def panelTemplate : Template :=
  let button := { plainTemplate "button" with
    setters := [.loadTime "action" "$\x7by\x7d" ⟨"action", "javax.faces.el.MethodBinding", false, .method⟩] }
  { plainTemplate "panel" with
    setters := [.loadTime "title" "$\x7bx\x7d" ⟨"title", "String", true, .scalar .string⟩,
      .assign (.object "button" button)] }

/-- Each of the two expressions is evaluated once, though what comes back is an expression itself. -/
theorem panel_evaluated_once :
    let run := Program.trace (valueHost (.text "$\x7bz\x7d")) panelTemplate.instantiate ()
    ∃ i, run.1 = .ok i ∧ panelTemplate.loadTimeExpressions = ["$\x7bx\x7d", "$\x7by\x7d"] ∧
      evaluations run.2 = panelTemplate.loadTimeExpressions ∧
      Accounts panelTemplate.allSetters (expressionUses run.2) ∧
      written i (.property "title" (.text "$\x7bz\x7d")) ∈ run.2 := by
  intro run
  have hruns : Runs panelTemplate.instantiate run.2 run.1 := Program.runs_trace _ _ _
  obtain ⟨i, hi⟩ : ∃ i, run.1 = .ok i := ⟨⟨0, "panel"⟩, rfl⟩
  obtain ⟨hevaluations, haccounts, -⟩ := expressions_evaluated_once (hi ▸ hruns)
  have hcomputed : evaluations run.2 = ["$\x7bx\x7d", "$\x7by\x7d"] := rfl
  refine ⟨i, hi, hevaluations.symm.trans hcomputed, hevaluations, haccounts, ?_⟩
  cases hi
  exact List.mem_cons_of_mem _ (List.mem_cons_of_mem _ (List.mem_cons_of_mem _ (List.mem_cons_of_mem _
    List.mem_cons_self)))

end PageTemplates
