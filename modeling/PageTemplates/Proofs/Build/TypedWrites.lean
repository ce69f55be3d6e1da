import PageTemplates.Proofs.Program.Answers
import PageTemplates.Proofs.Template.ValueSetters

/-!
# What is written has the declared type

A property is declared to hold a scalar of some type, an object, elements, or a callable (`Definition.Describes`), and
this says which writes it takes (`FactoryKind.Takes`). What a text denotes, what is made of a value, and what objects are
enclosed in, makes only such writes.

So it is with a setter, however it was compiled (`compiled_setter_typed`): what is given for a property and does not suit
its declaration is refused at once, and a value of an expression that does not suit it ends the build, in both cases
before anything has been written. What does suit it is written as the value that it stands for.

## Structure

- §1 says which writes a property takes, and that nothing else is made of a text, of a value or of objects.
- §2 says what kinds of setters there are for a property.
- §3 follows a setter while it is applied.
-/

namespace PageTemplates

open Program (Event Runs)

/-! ## §1 Types of values -/

/-- A value of a scalar type. Anything is an object. -/
inductive Value.Fits : ValueType → Value → Prop where
  | object (v : Value) : Fits .object v
  | text (s : String) : Fits .string (.text s)
  | null : Fits .string .null
  | int {i : Int64} (low : -2147483648 ≤ i.toInt) (high : i.toInt ≤ 2147483647) : Fits .int (.int i)
  | double (d : Double) : Fits .double (.double d)
  | boolean (b : Bool) : Fits .boolean (.bool b)

/-- An element of a collection, which may have a scalar type for its elements. -/
inductive Value.FitsItem : Option ValueType → Value → Prop where
  | object (type : Option ValueType) (h : Handle) : FitsItem type (.object h)
  | scalar {type : ValueType} {v : Value} (h : v.Fits type) : FitsItem (some type) v

/-- A write that suits a property, by its kind. -/
inductive FactoryKind.Takes (name : String) : FactoryKind → Write → Prop where
  | id (text : String) : Takes name .id (.id text)
  | rendered (flag : Bool) : Takes name .rendered (.rendered flag)
  | scalar {type : ValueType} {v : Value} (h : v.Fits type) : Takes name (.scalar type) (.property name v)
  | complex (h : Handle) : Takes name .complex (.property name (.object h))
  | item {addMethod : String} {type : Option ValueType} {v : Value} (h : v.FitsItem type) :
      Takes name (.collection addMethod type) (.item addMethod v)
  | callable (c : Callable) : Takes name .method (.callable name c)

/-- A write that suits the declaration of a property. -/
def Definition.Takes (d : Definition) (name : String) (w : Write) : Prop :=
  ∃ kind, d.Describes name kind ∧ FactoryKind.Takes name kind w

section Types

variable {τ : Type} {name text : String} {kind : FactoryKind} {a : Assignment τ} {write : Write}

/-- The value that a text writes is of the type that it is written for. -/
theorem ValueType.Writes.fits {type : ValueType} {v : Value} (h : type.Writes text v) : v.Fits type := by
  cases h with
  | object => exact .object _
  | string => exact .text text
  | @int i _ low high =>
    -- the bounds are those of the type, and within them nothing is lost
    have hexact : (Int64.ofInt i).toInt = i := Int64.toInt_ofInt_of_le (by omega) (by omega)
    exact .int (hexact.symm ▸ low) (hexact.symm ▸ high)
  | double _ => exact .double _
  | boolean flag _ => exact .boolean flag

/-- What becomes of an element suits the collection. -/
theorem Value.Becomes.fitsItem {itemType : Option ValueType} {v w : Value} (h : v.Becomes itemType w) :
    w.FitsItem itemType := by
  cases h with
  | object _ handle => exact .object _ handle
  | any v => exact .scalar (.object v)
  | read hwrites => exact .scalar hwrites.fits
  | null => exact .scalar .null
  | shownFlag _ | shownInt _ | shownDouble _ => exact .scalar (.text _)
  | int low high => exact .scalar (.int low high)
  | double d => exact .scalar (.double d)
  | widened _ => exact .scalar (.double _)
  | boolean b => exact .scalar (.boolean b)

/-- All that is added to a collection suits it. -/
theorem Value.fitsItem_of_becomes {itemType : Option ValueType} {vs ws : List Value}
    (h : List.Forall₂ (Value.Becomes itemType) vs ws) : ∀ w ∈ ws, w.FitsItem itemType := by
  induction h with
  | nil => exact List.forall_mem_nil _
  | cons hfirst _ ih => exact List.forall_mem_cons.mpr ⟨hfirst.fitsItem, ih⟩

/-- What becomes of a value is of the type, because no object is let through. -/
theorem Value.Becomes.fits {type : ValueType} {v w : Value} (hobject : ∀ h, v = .object h → type = .object)
    (h : v.Becomes (some type) w) : w.Fits type := by
  -- an object suits any collection, so it is here that objects have to be excluded
  cases h.fitsItem with
  | scalar hfits => exact hfits
  | object _ handle =>
    cases h with
    | object _ _ =>
      obtain rfl := hobject handle rfl
      exact .object _
    | any _ => exact .object _
    | read hwrites => exact hwrites.fits

/-- What a text denotes for a property suits it. -/
theorem FactoryKind.Denotes.takes (h : kind.Denotes name text a) (hw : a.Writes write) : kind.Takes name write := by
  cases h with
  | id =>
    cases hw
    exact .id text
  | rendered flag _ =>
    cases hw
    exact .rendered flag
  | scalar hwrites =>
    cases hw
    exact .scalar hwrites.fits
  | item hwrites =>
    cases hw with
    | item hitem =>
      cases List.mem_singleton.mp hitem
      exact .item (.scalar hwrites.fits)
    | builtItem hitem _ => cases List.mem_singleton.mp hitem
  | method =>
    cases hw
    exact .callable _

/-- What is made of a value for a property suits it. -/
theorem FactoryKind.Makes.takes {v : Value} (h : kind.Makes name v a) (hw : a.Writes write) :
    kind.Takes name write := by
  cases h with
  | id _ =>
    cases hw
    exact .id _
  | rendered _ =>
    cases hw
    exact .rendered _
  | scalar hobject hbecomes =>
    cases hw
    exact .scalar (hbecomes.fits hobject)
  | complex handle =>
    cases hw
    exact .complex handle
  | collection _ hws =>
    -- what is added is one of the values that the elements have become
    cases hw with
    | item hitem =>
      obtain ⟨w, hw, heq⟩ := List.mem_map.mp hitem
      cases heq
      exact .item (Value.fitsItem_of_becomes hws _ hw)
    | builtItem hitem _ =>
      obtain ⟨w, _, heq⟩ := List.mem_map.mp hitem
      cases heq
  | expression _ | ready _ =>
    cases hw
    exact .callable _

/-- What objects are enclosed in for a property suits it. -/
theorem FactoryKind.Encloses.takes {ts : List τ} (h : kind.Encloses name ts a) (hw : a.Writes write) :
    kind.Takes name write := by
  cases h with
  | complex t =>
    cases hw
    exact .complex _
  | scalar t =>
    cases hw
    exact .scalar (.object _)
  | collection addMethod itemType ts =>
    -- an element is an object once it has been built
    cases hw with
    | item hitem =>
      obtain ⟨t, _, heq⟩ := List.mem_map.mp hitem
      cases heq
    | builtItem _ handle => exact .item (.object itemType handle)
  | method t =>
    cases hw
    exact .callable _

end Types

/-! ## §2 Compiling a property -/

/-- A memo that remembers what it should selects factories by the declarations. -/
theorem answeredByDeclarations_of_sound (f : TemplateMaker) {w : World} (hr : w.registry.Distinct)
    (hmemos : w.memos.Sound w.registry) {t : Template} (ht : t.definition ∈ w.registry.definitions) (name : String)
    (raw : Raw) : ∀ e ∈ (Program.trace f.answer (t.compileSetter name raw) w).2, AnsweredByDeclarations e := by
  have selected : ∀ made : Factory → Except Error (Setter Template), ∀ e ∈ (Program.trace f.answer
      (Compile.select t.memo t.definition name >>= fun g => Compile.ofExcept (made g) : Compile _) w).2,
        AnsweredByDeclarations e := by
    intro made e he
    rcases List.mem_cons.mp he with rfl | he
    · exact (hmemos.obtainFactory hr t.memo ht name).1
    · -- nothing else is asked for
      have hrest : ∀ answer : Except Error Factory, ∀ v : World, (Program.trace f.answer (ExceptT.bindCont
          (fun g => (Compile.ofExcept (made g) : Compile (Setter Template))) answer) v).2 = [] := by
        intro answer v
        cases answer <;> rfl
      exact absurd (hrest _ _ ▸ he) List.not_mem_nil
  cases raw with
  | text text =>
    unfold Template.compileSetter Template.compileTextSetter
    dsimp only
    split
    · exact fun e he => absurd he List.not_mem_nil
    · exact selected _
  | value v | objects ts =>
    unfold Template.compileSetter
    dsimp only
    split
    · exact fun e he => absurd he List.not_mem_nil
    · exact selected _

/-- A setter for a property of a definition. What it assigns suits the declaration, and what it makes assignments with is
the factory that the definition has for the property. -/
inductive Setter.Suits (d : Definition) (name : String) : Setter Template → Prop where
  | assign {a : Assignment Template} (h : ∀ w, a.Writes w → d.Takes name w) : Suits d name (.assign a)
  | loadTime (expression : String) {f : Factory} (hf : Factory.ofProperty d name = .ok f) :
      Suits d name (.loadTime name expression f)
  | runTime (expression : String) (type : ValueType) : Suits d name (.runTime name expression type)
  | loaded (condition : BuildCondition) : Suits d name (.loaded condition)

section Compiling

variable {t : Template} {name text : String} {raw : Raw} {s : Setter Template}

theorem Template.Compiles.suits (h : t.Compiles name text (.ok s)) : s.Suits t.definition name := by
  cases h with
  | loadTime _ hf _ => exact .loadTime _ hf
  | callable _ hkind _ =>
    refine .assign fun w hw => ⟨.method, hkind, ?_⟩
    cases hw
    exact .callable _
  | live _ _ _ _ _ => exact .runTime _ _
  | literal _ hkind _ ha => exact .assign fun w hw => ⟨_, hkind, ha.takes hw⟩
  | condition _ _ => exact .loaded _
  | flag _ _ _ => exact .loaded _

theorem Template.Settles.suits (h : t.Settles name raw (.ok s)) : s.Suits t.definition name := by
  cases h with
  | text h => exact h.suits
  | value _ hkind h => exact .assign fun w hw => ⟨_, hkind, h.takes hw⟩
  | objects _ hkind h => exact .assign fun w hw => ⟨_, hkind, h.takes hw⟩
  | condition hname h => exact hname ▸ h.suits
  | flag _ _ => exact .loaded _

end Compiling

/-! ## §3 Applying a setter -/

/-- A write of a setter on its component. -/
inductive Setter.Gives (d : Definition) (name : String) (events : List BuildEvent) : Setter Template → Write → Prop where
  /-- It belongs to what has been assigned when the page was compiled. -/
  | assigned {a : Assignment Template} {w : Write} (hw : a.Writes w) (htype : d.Takes name w) :
      Gives d name events (.assign a) w
  /-- It belongs to what is made of the value that the expression has. -/
  | resolved {expression : String} {f : Factory} {kind : FactoryKind} {v : Value} {a : Assignment Nested} {w : Write}
      (hevaluated : evaluatedAs expression (.ok v) ∈ events) (hkind : d.Describes name kind) (ha : kind.Makes name v a)
      (hw : a.Writes w) (htype : kind.Takes name w) : Gives d name events (.loadTime name expression f) w
  | live (expression : String) (type : ValueType) (b : LiveValue) :
      Gives d name events (.runTime name expression type) (.liveValue name b)

/-- What a setter of a property may do at a site. -/
structure TypedRun (d : Definition) (name : String) (s : Setter Template) (site : Site) (events : List BuildEvent)
    (result : Except Error Unit) : Prop where
  /-- What is written on the component is given by the setter, and suits the declaration unless it is a live value. All
  else is written on objects that are built meanwhile. -/
  written : ∀ e ∈ events, ∀ i w, e.request = .write i w →
    (i = site.component ∧ s.Gives d name events w) ∨ ∃ u, constructed u i ∈ events
  /-- A value that suits the declaration is assigned. -/
  fit : ∀ expression f v kind (a : Assignment Nested), s = .loadTime name expression f →
    evaluatedAs expression (.ok v) ∈ events → d.Describes name kind → kind.Makes name v a →
      ∃ rest, events = passed (.loadTime site.target name expression) :: evaluatedAs expression (.ok v) :: rest ∧
        Runs (site.assign a) rest result
  /-- A value that does not suit it ends the build, and nothing has been written. -/
  unfit : ∀ expression f v kind, s = .loadTime name expression f → evaluatedAs expression (.ok v) ∈ events →
    d.Describes name kind → (∀ a : Assignment Nested, ¬ kind.Makes name v a) →
      (∃ literal expected, kind.Blames v literal expected ∧
        result = .error (.bindingResolution name expression (Error.typeCoercion name literal expected).message)) ∧
        ∀ e ∈ events, ∀ i w, e.request ≠ .write i w

/-- A setter without a load-time expression has only its writes to answer for. -/
theorem TypedRun.of_written {d : Definition} {name : String} {s : Setter Template} {site : Site}
    {events : List BuildEvent} {result : Except Error Unit} (hs : ∀ expression f, s ≠ .loadTime name expression f)
    (h : ∀ e ∈ events, ∀ i w, e.request = .write i w →
      (i = site.component ∧ s.Gives d name events w) ∨ ∃ u, constructed u i ∈ events) :
    TypedRun d name s site events result :=
  ⟨h, fun expression f _ _ _ heq => absurd heq (hs expression f),
    fun expression f _ _ heq => absurd heq (hs expression f)⟩

/-- A write in a course is one of its own, or it is on something that is constructed meanwhile. -/
theorem Course.written {α : Type} {own : BuildRequest → Prop} {objects : List Nested} {result : Except Error α}
    {events : List BuildEvent} (h : Course own objects result events)
    (hobjects : ∀ n ∈ objects, ∀ built r, Runs n.build built r → Contained [] built) :
    ∀ e ∈ events, ∀ i w, e.request = .write i w → own (.write i w) ∨ ∃ u, constructed u i ∈ events := by
  -- by induction on the course: what it asks for itself, and what is asked for in the builds of its objects
  induction h with
  | done _ => simp
  | failed _ _ => simp
  | own h _ ih =>
    intro e he i w hw
    rcases List.mem_cons.mp he with rfl | he
    · exact .inl (hw ▸ h)
    · exact (ih hobjects e he i w hw).imp_right fun ⟨u, hu⟩ => ⟨u, List.mem_cons_of_mem _ hu⟩
  | built h _ ih =>
    obtain ⟨hfirst, hrest⟩ := List.forall_mem_cons.mp hobjects
    intro e he i w hw
    rcases List.mem_append.mp he with he | he
    · obtain ⟨u, hu⟩ := (hfirst _ _ h e he i w hw).resolve_left List.not_mem_nil
      exact .inr ⟨u, List.mem_append_left _ hu⟩
    · exact (ih hrest e he i w hw).imp_right fun ⟨u, hu⟩ => ⟨u, List.mem_append_right _ hu⟩
  | broken h =>
    intro e he i w hw
    exact .inr (((List.forall_mem_cons.mp hobjects).1 _ _ h e he i w hw).resolve_left List.not_mem_nil)

section Applying

variable {d : Definition} {name expression : String} {f : Factory} {site : Site} {events : List BuildEvent}
  {result : Except Error Unit}

/-- The programs of templates write only to what they have constructed, also if they fail. -/
theorem contained_toNested (ts : List Template) :
    ∀ n ∈ ts.map Template.toNested, ∀ built r, Runs n.build built r → Contained [] built := by
  intro n hn built r h
  obtain ⟨u, _, rfl⟩ := List.mem_map.mp hn
  exact (guarded_instantiate u (Template.Within.refl u) []).contained h

/-- An assignment that suits the declaration writes only what it holds. -/
theorem typedRun_assign {a : Assignment Template} (ha : ∀ w, a.Writes w → d.Takes name w)
    (h : Runs (site.apply (Template.nestSetter (.assign a))) events result) :
    TypedRun d name (.assign a) site events result := by
  refine TypedRun.of_written (fun _ _ heq => by cases heq) ?_
  have hcourse := Site.follows_assign site _ _ _ h
  rw [Template.nested_nestAssignment] at hcourse
  intro e he i w hw
  refine (hcourse.written (contained_toNested _) e he i w hw).imp_left fun hputs => ?_
  cases hputs with
  | write hwrites =>
    have hassigned := writes_of_nestAssignment hwrites
    exact ⟨rfl, .assigned hassigned (ha w hassigned)⟩

/-- The value of the expression is the only one that is evaluated, right after the check. -/
theorem Site.Resolves.exists_rest {v : Value} (h : site.Resolves name expression f events result)
    (hv : evaluatedAs expression (.ok v) ∈ events) :
    ∃ rest, events = passed (.loadTime site.target name expression) :: evaluatedAs expression (.ok v) :: rest := by
  cases h with
  | refused | failed => simp at hv
  | unfit _ =>
    obtain rfl : v = _ := by simpa using hv
    exact ⟨_, rfl⟩
  | assigned hvalue hrun =>
    rcases List.mem_cons.mp hv with heq | hv
    · cases heq
    rcases List.mem_cons.mp hv with heq | hv
    · cases heq
      exact ⟨_, rfl⟩
    · -- an assignment of a value evaluates nothing
      cases Site.puts_of_assignValue hvalue hrun _ hv

/-- A load-time setter has the factory of its property, which decides about the value in the same way as when the page
is compiled. -/
theorem typedRun_loadTime (hf : Factory.ofProperty d name = .ok f)
    (h : Runs (site.apply (Template.nestSetter (.loadTime name expression f))) events result) :
    TypedRun d name (.loadTime name expression f) site events result := by
  obtain ⟨rfl, -⟩ := Factory.ofProperty_spec hf
  have hresolves := Site.resolves_of_runs h
  -- the kind that is described is the kind of the factory
  have described : ∀ {kind}, d.Describes f.property kind → f.kind = kind := by
    intro kind hkind
    obtain ⟨g, hg, rfl⟩ := Factory.exists_ofProperty hkind
    rw [Except.ok.inj (hf.symm.trans hg)]
  refine ⟨?_, ?_, ?_⟩
  · intro e he i w hw
    cases hresolves with
    | refused | failed | unfit =>
      simp only [List.mem_cons, List.not_mem_nil, or_false] at he
      rcases he with rfl | rfl <;> cases hw
    | assigned hvalue hrun =>
      rcases List.mem_cons.mp he with rfl | he
      · cases hw
      rcases List.mem_cons.mp he with rfl | he
      · cases hw
      have hputs := Site.puts_of_assignValue hvalue hrun e he
      rw [hw] at hputs
      cases hputs with
      | write hwrites =>
        have hmakes := Factory.assignValue_iff_makes.mp hvalue
        exact .inl ⟨rfl, .resolved (List.mem_cons_of_mem _ List.mem_cons_self) (Factory.describes_of_ofProperty hf)
          hmakes hwrites (hmakes.takes hwrites)⟩
  · -- a value of which something is made is assigned, and the rest of the run is that of the assignment
    intro expression' f' v kind a heq hevaluated hkind ha
    cases heq
    obtain rfl := described hkind
    obtain ⟨rest, rfl⟩ := hresolves.exists_rest hevaluated
    have hrest := (runs_loadTime_iff site f.property expression f v rest result).mp h
    rw [Factory.assignValue_iff_makes.mpr ha] at hrest
    exact ⟨rest, rfl, hrest⟩
  · -- of any other value nothing is made, so the run ends here
    intro expression' f' v kind heq hevaluated hkind hnone
    cases heq
    obtain rfl := described hkind
    obtain ⟨rest, rfl⟩ := hresolves.exists_rest hevaluated
    have hrest := (runs_loadTime_iff site f.property expression f v rest result).mp h
    cases hmade : (f.assignValue v : Except Error (Assignment Nested)) with
    | ok a => exact absurd (Factory.assignValue_iff_makes.mp hmade) (hnone a)
    | error err =>
      rw [hmade] at hrest
      obtain ⟨rfl, rfl⟩ := hrest
      obtain ⟨-, literal, expected, hblames, rfl⟩ := Factory.assignValue_refused_iff.mp hmade
      exact ⟨⟨literal, expected, hblames, rfl⟩, by simp [passed, evaluatedAs]⟩

/-- A live value is written by the setter that has made it. -/
theorem typedRun_runTime {type : ValueType}
    (h : Runs (site.apply (Template.nestSetter (.runTime name expression type))) events result) :
    TypedRun d name (.runTime name expression type) site events result := by
  refine TypedRun.of_written (fun _ _ heq => by cases heq) ?_
  intro e he i w hw
  have hbinds := (Site.follows_runTime site name expression type _ _ h).forall_request (fun _ hr => hr) (by simp) e he
  rw [hw] at hbinds
  cases hbinds with
  | write b => exact .inl ⟨rfl, .live expression type b⟩

/-- Each setter that suits the declaration runs accordingly. -/
theorem typedRun_of_suits {s : Setter Template} (hs : s.Suits d name)
    (h : Runs (site.apply (Template.nestSetter s)) events result) : TypedRun d name s site events result := by
  cases hs with
  | assign ha => exact typedRun_assign ha h
  | loadTime expression hf => exact typedRun_loadTime hf h
  | runTime expression type => exact typedRun_runTime h
  | loaded condition =>
    -- a condition is not applied to the component
    obtain ⟨rfl, -⟩ := Program.runs_pure_except.mp h
    exact TypedRun.of_written (fun _ _ heq => by cases heq) (by simp)

end Applying

/-- **Writes have the declared type.** The outcome of compiling what is given for a property, in whatever form, is the one
that it has in the list of outcomes: a setter if it suits the declaration, and otherwise a failure, which is one of
coercion if only the type is wrong. A setter writes on the component only what has been given or what the value of its
expression becomes, and that suits the declaration, whatever the surroundings answer. A value that does not suit it ends
the build as a failure of the binding, before anything has been written. -/
theorem compiled_setter_typed {t : Template} {name : String} {raw : Raw} {compiling : List (Event CompileRequest.Answer)}
    {compiled : Except Error (Setter Template)} (hknown : ∀ e ∈ compiling, AnsweredByDeclarations e)
    (h : Runs (t.compileSetter name raw) compiling compiled) :
    (∀ result, compiled = result ↔ t.Settles name raw result) ∧
      ∀ s, compiled = .ok s → ∀ site events result, Runs (Site.apply site (Template.nestSetter s)) events result →
        TypedRun t.definition name s site events result := by
  have hcompiled : t.compiledSetter name raw = compiled := Template.compiledSetter_of_runs hknown h
  have hsettles : ∀ result, compiled = result ↔ t.Settles name raw result := fun result =>
    hcompiled ▸ Template.compiledSetter_eq_iff
  refine ⟨hsettles, fun s hs site events result hrun => ?_⟩
  exact typedRun_of_suits ((hsettles (.ok s)).mp hs).suits hrun

/-- A tag with an integer property. -/
def countedTag : Definition := ⟨0, "", "a", "a", NameMap.empty.insert "n" (.simple "n" "int"), none, default⟩

/-- A text that writes no integer is refused at once. If the property is given by an expression, its value may be an
integer, and a truth value ends the build, before anything is written. -/
theorem counted_setter_typed :
    let t : Template := .empty countedTag 0
    let f : Factory := ⟨"n", "int", true, .scalar .int⟩
    let s : Setter Template := .loadTime "n" "$\x7bx\x7d" f
    let site : Site := ⟨⟨"a", none⟩, ⟨0, "a"⟩⟩
    let run (v : Value) := Program.trace (valueHost v) (site.apply (Template.nestSetter s)) ()
    let selected : Event CompileRequest.Answer := ⟨.select 0 countedTag "n", (.ok f : Except Error Factory)⟩
    Runs (t.compileSetter "n" (.text "4x")) [selected] (.error (.typeCoercion "n" "4x" "int")) ∧
      t.Settles "n" (.text "4x") (.error (.typeCoercion "n" "4x" "int")) ∧
      Runs (t.compileSetter "n" (.text "$\x7bx\x7d")) [selected] (.ok s) ∧
      (∀ v, TypedRun countedTag "n" s site (run v).2 (run v).1) ∧
      written ⟨0, "a"⟩ (.property "n" (.int 7)) ∈ (run (.int 7)).2 ∧
      (run (.bool true)).1.isOk = false ∧ ∀ e ∈ (run (.bool true)).2, ∀ i w, e.request ≠ .write i w := by
  intro t f s site run selected
  have hknown : ∀ e ∈ [selected], AnsweredByDeclarations e := List.forall_mem_singleton.mpr rfl
  have hrefused : Runs (t.compileSetter "n" (.text "4x")) [selected] (.error (.typeCoercion "n" "4x" "int")) :=
    .ask _ _ (.done _)
  have hcompiled : Runs (t.compileSetter "n" (.text "$\x7bx\x7d")) [selected] (.ok s) := .ask _ _ (.done _)
  have hsettles := ((compiled_setter_typed hknown hrefused).1 _).mp rfl
  have htyped : ∀ v, TypedRun countedTag "n" s site (run v).2 (run v).1 := fun v =>
    (compiled_setter_typed hknown hcompiled).2 s rfl site _ _ (Program.runs_trace (valueHost v) _ ())
  have hwritten : written ⟨0, "a"⟩ (.property "n" (.int 7)) ∈ (run (.int 7)).2 :=
    List.mem_cons_of_mem _ (List.mem_cons_of_mem _ (List.mem_cons_of_mem _ List.mem_cons_self))
  refine ⟨hrefused, hsettles, hcompiled, htyped, hwritten, rfl, ?_⟩
  -- nothing becomes of a truth value as an integer
  have hkind : countedTag.Describes "n" (.scalar .int) := Factory.describes_of_ofProperty (f := f) rfl
  have hnone : ∀ a : Assignment Nested, ¬ (FactoryKind.scalar .int).Makes "n" (.bool true) a := by
    intro a ha
    cases ha with
    | scalar _ hbecomes => cases hbecomes
  exact ((htyped (.bool true)).unfit _ _ _ _ rfl (List.mem_cons_of_mem _ List.mem_cons_self) hkind hnone).2

end PageTemplates
