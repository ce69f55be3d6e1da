import PageTemplates.Proofs.Build.PolicySoundness
import PageTemplates.Proofs.Template.Recall

/-!
# The setters of a template

A template gets its setters one after the other; a setter takes the place of the one that was there for the same
property. So the list of setters is determined by what has been attached (`Template.Reflects`): its names are those that
have been attached, in the order of their first appearance, and under each name stands the setter that came last. What
decides whether the node is built is kept apart, and there too the last word counts.

A setter that is compiled for a property is one of that property, because a memo remembers a factory under the name of
the property that it is for (`Memos.Derived`).

## Structure

- §1 is about the list of setters, and what attaching one more does to it.
- §2 is about the names of compiled setters.
- §3 follows a template through any calls.
-/

namespace PageTemplates

open Program (Event Runs)

/-! ## §1 Attaching -/

/-- The condition on the node, if a setter is one. -/
def Setter.condition? {τ : Type} : Setter τ → Option BuildCondition
  | .loaded flag => some flag
  | .assign _ | .loadTime .. | .runTime .. => none

namespace Template

section Lists

variable {τ : Type} {s x : Setter τ} {setters : List (Setter τ)}

theorem map_name_replaceOrAdd (s : Setter τ) (setters : List (Setter τ)) :
    (replaceOrAdd s setters).map Setter.name =
      if s.name ∈ setters.map Setter.name then setters.map Setter.name else setters.map Setter.name ++ [s.name] := by
  induction setters with
  | nil => rfl
  | cons first rest ih =>
    rw [replaceOrAdd]
    by_cases hfirst : first.name = s.name
    · simp [hfirst]
    · have hother : s.name ≠ first.name := Ne.symm hfirst
      by_cases hrest : s.name ∈ rest.map Setter.name <;> simp_all

theorem of_mem_replaceOrAdd (hnodup : (setters.map Setter.name).Nodup) (h : x ∈ replaceOrAdd s setters) :
    x = s ∨ x ∈ setters ∧ x.name ≠ s.name := by
  induction setters with
  | nil => exact .inl (List.mem_singleton.mp h)
  | cons first rest ih =>
    obtain ⟨hfirst, hrest⟩ := List.nodup_cons.mp hnodup
    rw [replaceOrAdd] at h
    split at h
    · rename_i hname
      refine (List.mem_cons.mp h).imp_right fun hx => ⟨List.mem_cons_of_mem _ hx, fun heq => hfirst ?_⟩
      exact hname ▸ heq ▸ List.mem_map_of_mem hx
    · rename_i hname
      rcases List.mem_cons.mp h with rfl | h
      · exact .inr ⟨List.mem_cons_self, hname⟩
      · exact (ih hrest h).imp_right (And.imp_left (List.mem_cons_of_mem _))

/-- The literal id is one that is assigned. -/
theorem mem_of_idOf {text : String} (h : idOf setters = some text) : .assign (.id text) ∈ setters := by
  fun_induction idOf setters with
  | case1 => cases h
  | case2 other rest =>
    cases h
    exact List.mem_cons_self
  | case3 first rest _ ih => exact List.mem_cons_of_mem _ (ih h)

/-- Among setters of different names, the id that is assigned is the literal id. -/
theorem idOf_of_mem {text : String} (hnodup : (setters.map Setter.name).Nodup)
    (h : .assign (.id text) ∈ setters) : idOf setters = some text := by
  fun_induction idOf setters with
  | case1 => cases h
  | case2 other rest =>
    rcases List.mem_cons.mp h with heq | h
    · cases heq
      rfl
    · -- the names are those of the id, both times
      exact absurd (List.mem_map_of_mem h) (List.nodup_cons.mp hnodup).1
  | case3 first rest hfirst ih =>
    rcases List.mem_cons.mp h with heq | h
    · exact absurd heq.symm (hfirst text)
    · exact ih (List.nodup_cons.mp hnodup).2 h

end Lists

/-- What was attached, apart from the conditions on the node. -/
def listed (attached : List (Setter Template)) : List (Setter Template) :=
  attached.filter fun s => s.condition?.isNone

/-- The setter that was attached last under a name. -/
def latest? (attached : List (Setter Template)) (name : String) : Option (Setter Template) :=
  (listed attached).reverse.find? fun s => s.name = name

section Attached

variable {t : Template} {attached : List (Setter Template)} {s : Setter Template} {name : String}

theorem listed_append_condition {flag : BuildCondition} (hs : s.condition? = some flag) :
    listed (attached ++ [s]) = listed attached := by
  simp [listed, hs]

theorem listed_append (hs : s.condition? = none) : listed (attached ++ [s]) = listed attached ++ [s] := by
  simp [listed, hs]

theorem latest?_append (hs : s.condition? = none) :
    latest? (attached ++ [s]) name = if s.name = name then some s else latest? attached name := by
  unfold latest?
  rw [listed_append hs, List.reverse_append, List.reverse_singleton, List.singleton_append, List.find?_cons]
  by_cases h : s.name = name <;> simp [h]

theorem mem_listed_of_latest? (h : latest? attached name = some s) : s ∈ listed attached ∧ s.name = name :=
  ⟨List.mem_reverse.mp (List.mem_of_find?_eq_some h), by simpa using List.find?_some h⟩

theorem attach_eq (t : Template) (hs : s.condition? = none) :
    t.attach s = { t with setters := replaceOrAdd s t.setters } := by
  cases s with
  | loaded flag => cases hs
  | _ => rfl

/-- A template has the setters that have been attached to it. -/
structure Reflects (t : Template) (attached : List (Setter Template)) : Prop where
  nodup : (t.setters.map Setter.name).Nodup
  /-- The names stand in the order in which they were first given. -/
  names : t.setters.map Setter.name = ((listed attached).map Setter.name).eraseDups
  /-- Under each name stands what came last. -/
  latest : ∀ s ∈ t.setters, latest? attached s.name = some s
  loaded : t.loaded = (attached.filterMap Setter.condition?).getLast?

theorem reflects_empty (d : Definition) (memo : Nat) : (Template.empty d memo).Reflects [] :=
  ⟨List.nodup_nil, rfl, List.forall_mem_nil _, rfl⟩

/-- One more setter changes what it should. -/
theorem Reflects.attach (h : t.Reflects attached) (s : Setter Template) : (t.attach s).Reflects (attached ++ [s]) := by
  cases hs : s.condition? with
  | some flag =>
    obtain rfl : s = .loaded flag := by
      cases s with
      | loaded other =>
        cases hs
        rfl
      | assign | loadTime | runTime => cases hs
    refine ⟨h.nodup, ?_, fun s hmem => ?_, ?_⟩
    · rw [listed_append_condition hs]
      exact h.names
    · unfold latest?
      rw [listed_append_condition hs]
      exact h.latest s hmem
    · rw [List.filterMap_append, List.getLast?_append]
      rfl
  | none =>
    rw [attach_eq t hs]
    refine ⟨?_, ?_, fun x hmem => ?_, ?_⟩
    · dsimp only
      rw [map_name_replaceOrAdd]
      split
      · exact h.nodup
      · rename_i hnew
        exact List.nodup_append.mpr ⟨h.nodup, List.nodup_singleton _, by
          rintro name hname _ hmem rfl
          exact hnew (List.mem_singleton.mp hmem ▸ hname)⟩
    · dsimp only
      rw [map_name_replaceOrAdd, listed_append hs, List.map_append, List.eraseDups_append, ← h.names]
      -- a name is new to the setters just if it has not been attached before
      have hnew : s.name ∈ t.setters.map Setter.name ↔ s.name ∈ (listed attached).map Setter.name := by
        rw [h.names, List.mem_eraseDups]
      by_cases hname : s.name ∈ (listed attached).map Setter.name
      · rw [if_pos (hnew.mpr hname), List.map_singleton, List.removeAll, List.filter_singleton]
        simp [hname]
      · rw [if_neg (hname ∘ hnew.mp), List.map_singleton, List.removeAll, List.filter_singleton]
        simp [hname, List.eraseDups_cons]
    · rw [latest?_append hs]
      rcases of_mem_replaceOrAdd h.nodup hmem with rfl | ⟨hx, hne⟩
      · rw [if_pos rfl]
      · rw [if_neg (Ne.symm hne)]
        exact h.latest x hx
    · rw [List.filterMap_append, List.filterMap_cons, hs]
      simpa using h.loaded

theorem Reflects.mem_setters_iff (h : t.Reflects attached) : s ∈ t.setters ↔ latest? attached s.name = some s := by
  constructor
  · exact h.latest s
  · intro hlatest
    -- some setter of the name is there, and it is the last one
    have hname : s.name ∈ t.setters.map Setter.name := by
      rw [h.names, List.mem_eraseDups]
      exact List.mem_map_of_mem (mem_listed_of_latest? hlatest).1
    obtain ⟨x, hx, heq⟩ := List.mem_map.mp hname
    have hsame := h.latest x hx
    rw [heq, hlatest] at hsame
    cases hsame
    exact hx

theorem Reflects.id?_eq_some_iff (h : t.Reflects attached) {text : String} :
    t.id? = some text ↔ latest? attached idName = some (.assign (.id text)) := by
  have hmem := h.mem_setters_iff (s := .assign (.id text))
  exact ⟨fun hid => hmem.mp (mem_of_idOf hid), fun hlatest => idOf_of_mem h.nodup (hmem.mpr hlatest)⟩

theorem Reflects.condition?_eq_none (h : t.Reflects attached) (hs : s ∈ t.setters) : s.condition? = none := by
  have hlisted := (mem_listed_of_latest? (h.latest s hs)).1
  simpa using (List.mem_filter.mp hlisted).2

end Attached

end Template

/-! ## §2 The name of a compiled setter -/

section Names

variable {τ : Type} {f : Factory} {a : Assignment τ}

theorem Factory.Proper.name_assignText (hf : f.Proper) {text : String} (h : f.assignText text = .ok a) :
    a.name = f.property := by
  unfold assignText at h
  split at h
  case h_1 =>
    cases h
    exact (hf.id ‹_›).symm
  case h_2 =>
    obtain ⟨_, _, rfl⟩ := Outcome.map_eq_ok.mp h
    exact (hf.rendered ‹_›).symm
  case h_3 | h_5 =>
    obtain ⟨_, _, rfl⟩ := Outcome.map_eq_ok.mp h
    rfl
  case h_4 | h_6 => cases h
  case h_7 =>
    cases h
    rfl

theorem Factory.name_assignObjects {objects : List τ} (h : f.assignObjects objects = .ok a) : a.name = f.property := by
  unfold assignObjects at h
  split at h
  case h_1 | h_2 | h_4 =>
    obtain ⟨_, _, rfl⟩ := Outcome.map_eq_ok.mp h
    rfl
  case h_3 =>
    cases h
    rfl
  all_goals cases h

theorem Raw.name_of_compileWith {raw : Raw} {tag name : String} {s : Setter Template} (hname : f.property = name)
    (hf : f.Proper) (h : raw.compileWith tag name f = .ok s) : s.name = name := by
  subst hname
  cases raw with
  | text text =>
    -- a text that is assigned gives the assignment the name of the property
    have made : ∀ {s : Setter Template}, (f.assignText text).map .assign = .ok s → s.name = f.property := by
      intro s hs
      obtain ⟨a, ha, rfl⟩ := Outcome.map_eq_ok.mp hs
      exact hf.name_assignText ha
    unfold compileWith Template.compileText at h
    dsimp only at h
    split at h
    · cases h
      rfl
    · exact made h
    · split at h
      · exact made h
      · split at h
        · cases h
          rfl
        · cases h
  | value v =>
    obtain ⟨a, ha, rfl⟩ := Outcome.map_eq_ok.mp h
    exact hf.name_assignValue ha
  | objects ts =>
    obtain ⟨a, ha, rfl⟩ := Outcome.map_eq_ok.mp h
    exact Factory.name_assignObjects ha

/-- Whatever factory is selected for a property is one of that property. -/
def AnsweredByName : Event CompileRequest.Answer → Prop
  | ⟨.create .., _⟩ => True
  | ⟨.select _ _ property, answer⟩ =>
    ∀ f, answer = (.ok f : Except Error Factory) → f.property = property ∧ f.Proper

/-- Only the condition on the node is compiled without a factory. -/
theorem Template.compileSetter_eq {t : Template} {name : String} (raw : Raw) (h : name ≠ loadedName) :
    t.compileSetter name raw = (Compile.select t.memo t.definition name >>= fun f =>
      Compile.ofExcept (raw.compileWith t.tag name f) : Compile (Setter Template)) := by
  cases raw <;> simp only [compileSetter, compileTextSetter, if_neg h] <;> rfl

theorem isCondition_of_runs_loaded {t : Template} {raw : Raw} {events : List (Event CompileRequest.Answer)}
    {s : Setter Template} (h : Runs (t.compileSetter loadedName raw) events (.ok s)) : s.IsCondition := by
  cases raw with
  | text text => exact isCondition_of_compileCondition (Program.runs_done.mp h).2.symm
  | value v => exact isCondition_of_compileConditionValue (Program.runs_done.mp h).2.symm
  | objects ts => cases (Program.runs_done.mp h).2

/-- A setter that is compiled for a name has that name. -/
theorem name_of_runs_compileSetter {t : Template} {name : String} {raw : Raw}
    {events : List (Event CompileRequest.Answer)} {s : Setter Template} (hknown : ∀ e ∈ events, AnsweredByName e)
    (h : Runs (t.compileSetter name raw) events (.ok s)) : s.name = name := by
  -- a condition has a name of its own, and all else has that of its factory
  by_cases hloaded : name = loadedName
  · subst hloaded
    obtain ⟨flag, rfl⟩ := isCondition_of_runs_loaded h
    rfl
  · rw [Template.compileSetter_eq raw hloaded] at h
    obtain ⟨f, first, second, rfl, hselect, hmade⟩ := Program.runs_bind_ok h
    obtain ⟨answer, rest, rfl, hrest⟩ := Program.runs_ask.mp hselect
    obtain ⟨rfl, rfl⟩ := Program.runs_done.mp hrest
    obtain ⟨hproperty, hproper⟩ := hknown _ List.mem_cons_self f rfl
    exact Raw.name_of_compileWith hproperty hproper (Program.runs_done.mp hmade).2.symm

end Names

section Derived

/-- Every remembered factory is one of the property that it is remembered for, by some definition. -/
def Memos.Derived (ms : Memos) : Prop :=
  ∀ i, ∀ e ∈ (ms i).entries, Factory.ofProperty e.definition e.property = .ok e.factory

theorem Memos.derived_empty : Memos.empty.Derived := nofun

theorem Memos.Derived.set {ms : Memos} (h : ms.Derived) (which : Nat) {m : Memo}
    (hm : ∀ e ∈ m.entries, Factory.ofProperty e.definition e.property = .ok e.factory) : (ms.set which m).Derived := by
  intro i e he
  unfold Memos.set at he
  split at he
  · exact hm e he
  · exact h i e he

theorem Memos.Derived.obtainFactory {ms : Memos} (h : ms.Derived) (which : Nat) (d : Definition) (property : String) :
    (∀ f, (ms.obtainFactory which d property).1 = .ok f → f.property = property ∧ f.Proper) ∧
      (ms.obtainFactory which d property).2.Derived := by
  unfold Memos.obtainFactory Memo.obtainFactory
  cases hfound : (ms which).find? d.address property with
  | some e =>
    -- an entry for another definition would do, for it is the name that matters
    obtain ⟨-, hname⟩ : e.definition.address = d.address ∧ e.property = property := by
      simpa [MemoEntry.isFor] using List.find?_some hfound
    refine ⟨fun f hf => ?_, h.set which (h which)⟩
    cases hf
    rw [← hname]
    exact Factory.ofProperty_spec (h which e (List.mem_of_find?_eq_some hfound))
  | none =>
    cases hfactory : Factory.ofProperty d property with
    | error err =>
      refine ⟨fun f hf => ?_, h.set which (h which)⟩
      cases hf
    | ok f =>
      refine ⟨fun g hg => ?_, h.set which fun e he => ?_⟩
      · cases hg
        exact Factory.ofProperty_spec hfactory
      · rcases List.mem_append.mp he with he | he
        · exact h which e he
        · obtain rfl := List.mem_singleton.mp he
          exact hfactory

/-- Whatever is compiled, the factories are those of the properties that are asked for, and so they are remembered. -/
theorem Memos.Derived.trace {α : Type} (f : TemplateMaker) (p : Program CompileRequest.Answer α) {w : World}
    (h : w.memos.Derived) :
    (∀ e ∈ (p.trace f.answer w).2, AnsweredByName e) ∧ (p.run f.answer w).2.memos.Derived := by
  -- by induction on the program, from any world that remembers as it should
  induction p generalizing w with
  | done a => exact ⟨List.forall_mem_nil _, h⟩
  | ask r next ih =>
    have hstep : AnsweredByName ⟨r, (f.answer r w).1⟩ ∧ (f.answer r w).2.memos.Derived := by
      cases r with
      | select memo d property => exact h.obtainFactory memo d property
      | create uri namespaceUri tag =>
        refine ⟨trivial, ?_⟩
        simp only [TemplateMaker.answer, TemplateMaker.create]
        split
        · exact h
        · split <;> exact h
    obtain ⟨hrest, hmemos⟩ := ih (f.answer r w).1 (w := (f.answer r w).2) hstep.2
    exact ⟨List.forall_mem_cons.mpr ⟨hstep.1, hrest⟩, hmemos⟩

theorem name_of_run_compileSetter (f : TemplateMaker) {t : Template} {name : String} {raw : Raw} {w : World}
    {s : Setter Template} (hw : w.memos.Derived) (h : (f.run (t.compileSetter name raw) w).1 = .ok s) :
    s.name = name := by
  have hresult : (Program.trace f.answer (t.compileSetter name raw) w).1 = .ok s :=
    (Program.trace_fst f.answer (t.compileSetter name raw) w).trans h
  have hruns : Runs (t.compileSetter name raw) _ _ := Program.runs_trace f.answer (t.compileSetter name raw) w
  exact name_of_runs_compileSetter (hw.trace f (t.compileSetter name raw)).1 (hresult ▸ hruns)

end Derived

/-! ## §3 Calls -/

/-- Something that is done to a template, or elsewhere with the same memos. -/
inductive Template.Call where
  | text (name text : String)
  | given (name : String) (raw : Raw)
  /-- A setter is attached as it is. -/
  | setter (s : Setter Template)
  | elsewhere (p : Compile Unit)

namespace Template.Call

/-- What a call does. -/
def perform (t : Template) : Call → Compile Template
  | .text name s => t.addText name s
  | .given name raw => t.add name raw
  | .setter s => pure (t.attach s)
  | .elsewhere p => do
    p
    pure t

/-- The setter that a call attaches. -/
def attaches (f : TemplateMaker) (t : Template) (w : World) : Call → Option (Setter Template)
  | .text name s => (f.run (t.compileTextSetter name s) w).1.toOption
  | .given name raw => (f.run (t.compileSetter name raw) w).1.toOption
  | .setter s => some s
  | .elsewhere _ => none

end Template.Call

/-- A template to which setters are being attached. -/
structure Furnishing where
  template : Template
  world : World
  /-- What has been attached, in order. -/
  attached : List (Setter Template)

namespace Furnishing

/-- A new template, when nothing is remembered. -/
def start (d : Definition) (memo : Nat) (w : World) : Furnishing :=
  ⟨.empty d memo, { w with memos := .empty }, []⟩

/-- A call that fails leaves the template as it is. -/
def call (f : TemplateMaker) (h : Furnishing) (c : Template.Call) : Furnishing :=
  let outcome := f.run (c.perform h.template) h.world
  ⟨outcome.1.toOption.getD h.template, outcome.2, h.attached ++ (c.attaches f h.template h.world).toList⟩

section Steps

variable {f : TemplateMaker} {h : Furnishing}

theorem run_map (f : TemplateMaker) {α β : Type} (p : Compile α) (g : α → β) (w : World) :
    (f.run (p >>= fun a => pure (g a) : Compile β) w).1 = (f.run p w).1.map g := by
  have hrun := Program.run_bind f.answer p (ExceptT.bindCont fun a => (pure (g a) : Compile β)) w
  show (Program.run f.answer (p >>= fun a => pure (g a) : Compile β) w).1 = _
  rw [show (p >>= fun a => pure (g a) : Compile β) =
    (show Program CompileRequest.Answer (Except Error α) from p) >>=
      ExceptT.bindCont fun a => (pure (g a) : Compile β) from rfl, hrun]
  show _ = (Program.run f.answer p w).1.map g
  cases (Program.run f.answer p w).1 <;> rfl

/-- What a call does to the template is to attach its setter. -/
theorem template_call (c : Template.Call) :
    (h.call f c).template = ((c.attaches f h.template h.world).map h.template.attach).getD h.template := by
  -- compiling and attaching is one call, and it gives a template just if compiling gives a setter
  have attached : ∀ p : Compile (Setter Template),
      (f.run (p >>= fun s => pure (h.template.attach s) : Compile Template) h.world).1.toOption =
        (f.run p h.world).1.toOption.map h.template.attach := by
    intro p
    rw [run_map]
    cases (f.run p h.world).1 <;> rfl
  cases c with
  | text name text => exact congrArg (Option.getD · h.template) (attached (h.template.compileTextSetter name text))
  | given name raw => exact congrArg (Option.getD · h.template) (attached (h.template.compileSetter name raw))
  | setter s => rfl
  | elsewhere p =>
    show (f.run (p >>= fun _ => pure h.template : Compile Template) h.world).1.toOption.getD h.template = _
    rw [run_map]
    cases (f.run p h.world).1 <;> rfl

/-- A call that fails attaches nothing. -/
theorem attached_of_error {c : Template.Call} {e : Error} (herror : (f.run (c.perform h.template) h.world).1 = .error e) :
    c.attaches f h.template h.world = none := by
  cases c with
  | text name text =>
    have hcompiled := Outcome.map_eq_error.mp
      ((run_map f (h.template.compileTextSetter name text) h.template.attach h.world).symm.trans herror)
    exact congrArg Except.toOption hcompiled
  | given name raw =>
    have hcompiled := Outcome.map_eq_error.mp
      ((run_map f (h.template.compileSetter name raw) h.template.attach h.world).symm.trans herror)
    exact congrArg Except.toOption hcompiled
  | setter s => cases herror
  | elsewhere p => rfl

/-- What is true of a template whatever is done to it. -/
structure Sound (h : Furnishing) : Prop where
  reflects : h.template.Reflects h.attached
  derived : h.world.memos.Derived

theorem sound_start (d : Definition) (memo : Nat) (w : World) : (start d memo w).Sound :=
  ⟨Template.reflects_empty d memo, Memos.derived_empty⟩

theorem Sound.call (hsound : h.Sound) (c : Template.Call) : (h.call f c).Sound := by
  refine ⟨?_, (hsound.derived.trace f (c.perform h.template)).2⟩
  rw [template_call]
  show Template.Reflects _ (h.attached ++ (c.attaches f h.template h.world).toList)
  cases c.attaches f h.template h.world with
  | none => simpa using hsound.reflects
  | some s => exact hsound.reflects.attach s

/-- The invariant holds after any calls. -/
theorem Sound.calls (hsound : h.Sound) (calls : List Template.Call) : (calls.foldl (Furnishing.call f) h).Sound := by
  induction calls generalizing h with
  | nil => exact hsound
  | cons c rest ih => exact ih (hsound.call c)

end Steps

end Furnishing

/-- **The setters of a template.** Whatever is done to a new template: its setters have different names, in the order in
which the names were first given, and under each name stands the setter that was attached last. Conditions on the node
are kept apart from them, and the last one counts. The id is the literal that was given last for it, if that is the last
that was given. A call that fails changes nothing. A setter that is compiled for a name has that name. -/
theorem setters_after_calls (f : TemplateMaker) (d : Definition) (memo : Nat) (w : World)
    (calls : List Template.Call) :
    let h := calls.foldl (Furnishing.call f) (.start d memo w)
    let t := h.template
    (t.setters.map Setter.name).Nodup ∧ (∀ s ∈ t.setters, s.condition? = none) ∧
      t.setters.map Setter.name = ((Template.listed h.attached).map Setter.name).eraseDups ∧
      (∀ s, s ∈ t.setters ↔ Template.latest? h.attached s.name = some s) ∧
      t.loaded = (h.attached.filterMap Setter.condition?).getLast? ∧
      (∀ text, t.id? = some text ↔ Template.latest? h.attached idName = some (.assign (.id text))) ∧
      (∀ c e, (f.run (Template.Call.perform t c) h.world).1 = .error e →
        (h.call f c).template = t ∧ (h.call f c).attached = h.attached) ∧
      ∀ (u : Template) (name : String) (raw : Raw) (s : Setter Template),
        (f.run (u.compileSetter name raw) h.world).1 = .ok s → s.name = name := by
  intro h t
  -- all of this follows from the invariant
  have hsound : h.Sound := (Furnishing.sound_start d memo w).calls calls
  have hreflects : t.Reflects h.attached := hsound.reflects
  refine ⟨hreflects.nodup, fun _ => hreflects.condition?_eq_none, hreflects.names,
    fun _ => hreflects.mem_setters_iff, hreflects.loaded, fun _ => hreflects.id?_eq_some_iff, fun c e herror => ?_,
    fun u name raw s hs => name_of_run_compileSetter f hsound.derived hs⟩
  have hnone := Furnishing.attached_of_error herror
  refine ⟨?_, ?_⟩
  · rw [Furnishing.template_call, hnone]
    rfl
  · show h.attached ++ (c.attaches f h.template h.world).toList = h.attached
    rw [hnone]
    exact List.append_nil _

end PageTemplates
