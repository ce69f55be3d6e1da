import PageTemplates.Host.World
import PageTemplates.Proofs.Program.Runs

/-!
# Memos change nothing

Compiling a text asks for factories, and a memo answers with those that it remembers. What it remembers are the
factories of the definitions in the registry (`Memos.Sound`), and a definition is recognised by its address, which no
other definition of the registry has (`Registry.Distinct`). Compiling asks only for factories of definitions that it
has got from the registry (`Confined`), so that the tree of a text depends on the text, the registry and the gate
alone (`compileMarkup_eq`), whatever has been compiled before.
-/

namespace PageTemplates

/-! ## §1 Addresses -/

/-- Definitions of a registry are told apart by their addresses, and the next address is free. -/
structure Registry.Distinct (r : Registry) : Prop where
  /-- No definition has an address that is still to be given. -/
  below : ∀ d ∈ r.definitions, d.address < r.nextAddress
  /-- An address belongs to one definition. -/
  eq_of_address : ∀ d ∈ r.definitions, ∀ e ∈ r.definitions, d.address = e.address → d = e

theorem Registry.distinct_empty : Registry.empty.Distinct := ⟨nofun, nofun⟩

theorem Registry.Distinct.register {r : Registry} (h : r.Distinct) (d : Definition) : (r.register d).Distinct := by
  -- the definition is the new one, or was there before and has not been replaced
  have hmem : ∀ e ∈ (r.register d).definitions, e = { d with address := r.nextAddress } ∨ e ∈ r.definitions := by
    intro e he
    rcases List.mem_cons.mp he with he | he
    · exact .inl he
    · exact .inr (List.mem_filter.mp he).1
  constructor
  · intro e he
    rcases hmem e he with rfl | he
    · exact Nat.lt_succ_self _
    · exact Nat.lt_succ_of_lt (h.below e he)
  · intro e he e' he' heq
    -- the new address is above all those that have been given
    rcases hmem e he with rfl | he <;> rcases hmem e' he' with rfl | he'
    · rfl
    · exact absurd heq.symm (Nat.ne_of_lt (h.below e' he'))
    · exact absurd heq (Nat.ne_of_lt (h.below e he))
    · exact h.eq_of_address e he e' he' heq

/-! ## §2 What memos remember -/

/-- Every remembered factory is the one of its property, for a definition of the registry. -/
def Memos.Sound (ms : Memos) (r : Registry) : Prop :=
  ∀ i, ∀ e ∈ (ms i).entries, e.definition ∈ r.definitions ∧ Factory.ofProperty e.definition e.property = .ok e.factory

theorem Memos.sound_empty (r : Registry) : Memos.empty.Sound r := nofun

theorem Memos.Sound.set {ms : Memos} {r : Registry} (h : ms.Sound r) (which : Nat) {m : Memo}
    (hm : ∀ e ∈ m.entries, e.definition ∈ r.definitions ∧ Factory.ofProperty e.definition e.property = .ok e.factory) :
    (ms.set which m).Sound r := by
  intro i e he
  unfold Memos.set at he
  split at he
  · exact hm e he
  · exact h i e he

/-- A memo answers for a definition of the registry as if nothing were remembered. -/
theorem Memos.Sound.obtainFactory {ms : Memos} {r : Registry} (h : ms.Sound r) (hr : r.Distinct) (which : Nat)
    {d : Definition} (hd : d ∈ r.definitions) (property : String) :
    (ms.obtainFactory which d property).1 = Factory.ofProperty d property ∧
      (ms.obtainFactory which d property).2.Sound r := by
  unfold Memos.obtainFactory Memo.obtainFactory
  cases hfound : (ms which).find? d.address property with
  | some e =>
    have hmem := List.mem_of_find?_eq_some hfound
    have hfor := List.find?_some hfound
    obtain ⟨he, hfactory⟩ := h which e hmem
    obtain ⟨haddress, hproperty⟩ : e.definition.address = d.address ∧ e.property = property := by
      simpa [MemoEntry.isFor] using hfor
    -- the entry is for this very definition, because the address is
    have hsame : e.definition = d := hr.eq_of_address _ he _ hd haddress
    subst hsame hproperty
    exact ⟨hfactory.symm, h.set which (h which)⟩
  | none =>
    cases hfactory : Factory.ofProperty d property with
    -- a failure is not remembered
    | error e => exact ⟨rfl, h.set which (h which)⟩
    | ok f =>
      refine ⟨rfl, h.set which fun e he => ?_⟩
      rcases List.mem_append.mp he with he | he
      · exact h which e he
      · obtain rfl := List.mem_singleton.mp he
        exact ⟨hd, hfactory⟩

/-! ## §3 What is asked while compiling -/

section Confined

variable {r : Registry} {α β : Type}

/-- A program asks for factories of registered definitions only, as long as it is given templates of such, and then
its result is as described. -/
def Confined (r : Registry) : Program CompileRequest.Answer α → (α → Prop) → Prop
  | .done a, Q => Q a
  | .ask (.create ..) next, Q =>
    ∀ answer : Except Error Template, (∀ t, answer = .ok t → t.definition ∈ r.definitions) →
      Confined r (next answer) Q
  | .ask (.select _ d _) next, Q => d ∈ r.definitions ∧ ∀ answer : Except Error Factory, Confined r (next answer) Q

theorem Confined.bind {p : Program CompileRequest.Answer α} {f : α → Program CompileRequest.Answer β} {P : α → Prop}
    {Q : β → Prop} (h : Confined r p P) (hf : ∀ a, P a → Confined r (f a) Q) : Confined r (p >>= f) Q := by
  -- by induction on the first program; what is known of its result is known when the second one begins
  induction p with
  | done a => exact hf a h
  | ask request next ih =>
    cases request with
    | create uri namespaceUri tag => exact fun answer hanswer => ih answer (h answer hanswer)
    | select memo d property => exact ⟨h.1, fun answer => ih answer (h.2 answer)⟩

/-- The same for a compilation, whose result is described if it succeeds. -/
def Stays (r : Registry) (p : Compile α) (Q : α → Prop) : Prop := Confined r p fun result => ∀ a, result = .ok a → Q a

theorem stays_pure {a : α} {Q : α → Prop} (h : Q a) : Stays r (pure a) Q := by
  intro b hb
  cases hb
  exact h

theorem stays_ofExcept {result : Except Error α} : Stays r (Compile.ofExcept result) fun _ => True :=
  fun _ _ => trivial

theorem Stays.bind {p : Compile α} {f : α → Compile β} {P : α → Prop} {Q : β → Prop} (h : Stays r p P)
    (hf : ∀ a, P a → Stays r (f a) Q) : Stays r (p >>= f) Q := by
  refine Confined.bind h fun result hresult => ?_
  -- after a failure nothing more is asked
  cases result with
  | error e => exact nofun
  | ok a => exact hf a (hresult a rfl)

theorem stays_create (uri : Option PageUri) (namespaceUri tag : String) :
    Stays r (Compile.create uri namespaceUri tag) fun t => t.definition ∈ r.definitions :=
  fun _ hanswer t ht => hanswer t ht

theorem stays_select {d : Definition} (hd : d ∈ r.definitions) (memo : Nat) (property : String) :
    Stays r (Compile.select memo d property) fun _ => True :=
  ⟨hd, fun _ _ _ => trivial⟩

end Confined

/-! ## §4 Texts -/

namespace Markup

variable {r : Registry}

/-- The template is one of a registered definition. -/
def Known (r : Registry) (t : Template) : Prop := t.definition ∈ r.definitions

/-- Attaching a setter leaves the definition as it is. -/
theorem Known.attach {t : Template} (h : Known r t) (s : Setter Template) : Known r (t.attach s) := by
  cases s <;> exact h

theorem stays_addText {t : Template} (h : Known r t) (name text : String) : Stays r (t.addText name text) (Known r) := by
  -- the only question is that for a factory of the definition
  have hsetter : Stays r (t.compileTextSetter name text) fun _ => True := by
    unfold Template.compileTextSetter
    split
    · exact stays_ofExcept
    · exact (stays_select h t.memo name).bind fun _ _ => stays_ofExcept
  exact hsetter.bind fun s _ => stays_pure (h.attach s)

theorem stays_addObjects {t : Template} (h : Known r t) (name : String) (objects : List Template) :
    Stays r (t.add name (.objects objects)) (Known r) := by
  have hsetter : Stays r (t.compileSetter name (.objects objects)) fun _ => True := by
    unfold Template.compileSetter
    dsimp only
    split
    · exact stays_ofExcept
    · exact (stays_select h t.memo name).bind fun _ _ => stays_ofExcept
  exact hsetter.bind fun s _ => stays_pure (h.attach s)

theorem stays_compileAttributes {t : Template} (h : Known r t) (attributes : List Attribute) :
    Stays r (compileAttributes t attributes) (Known r) := by
  induction attributes generalizing t with
  | nil => exact stays_pure h
  | cons a rest ih =>
    rw [compileAttributes]
    split
    · exact ih h
    · exact (stays_addText h _ _).bind fun _ ht => ih ht

theorem stays_fail {α : Type} (e : MarkupProblem) : Stays r (fail e : Compile α) fun _ => True := stays_ofExcept

theorem stays_checkObject (property : Name) (e : Element) : Stays r (checkObject property e) fun _ => True := by
  unfold checkObject
  split
  · exact stays_fail _
  · split
    · exact stays_fail _
    · exact stays_pure trivial

mutual

theorem stays_compileElement (s : Setting) : ∀ e, Stays r (compileElement s e) (Known r)
  | ⟨name, attributes, content, location⟩ => by
    rw [compileElement]
    exact (stays_create _ _ _).bind fun t ht =>
      (stays_compileAttributes ht attributes).bind fun _ ht => stays_compileProperties s ht content

theorem stays_compileProperties (s : Setting) {t : Template} (h : Known r t) :
    ∀ content, Stays r (compileProperties s t content) (Known r)
  | [] => stays_pure h
  | .element ⟨name, attributes, content, location⟩ :: rest => by
    rw [compileProperties]
    split
    · exact stays_compileProperties s h rest
    · split
      · exact stays_compileProperties s h rest
      · split
        · exact (stays_compileObjects s name content).bind fun objects _ =>
            (stays_addObjects h _ objects).bind fun _ ht => stays_compileProperties s ht rest
        · exact (stays_addText h _ _).bind fun _ ht => stays_compileProperties s ht rest
  | .text _ :: rest | .comment _ :: rest | .instruction .. :: rest => by
    rw [compileProperties]
    have hrest := stays_compileProperties s h rest
    exact hrest

theorem stays_compileObjects (s : Setting) (property : Name) :
    ∀ content, Stays r (compileObjects s property content) fun _ => True
  | [] => stays_pure trivial
  | .element e :: rest => by
    rw [compileObjects]
    exact (stays_checkObject property e).bind fun _ _ => (stays_compileElement s e).bind fun t _ =>
      (stays_compileObjects s property rest).bind fun _ _ => stays_pure trivial
  | .text _ :: rest | .comment _ :: rest | .instruction .. :: rest => by
    rw [compileObjects]
    have hrest := stays_compileObjects s property rest
    exact hrest

end

theorem stays_facetKey (s : Setting) (name : Name) (attributes : List Attribute) (location : Location) :
    Stays r (facetKey s name attributes location) fun _ => True := by
  unfold facetKey
  split
  · exact stays_pure trivial
  · exact stays_fail _

mutual

theorem stays_compileControl (s : Setting) (index : Nat) (t : Template) :
    ∀ e, Stays r (compileControl s index t e) fun _ => True
  | ⟨name, attributes, content, location⟩ => by
    rw [compileControl]
    exact (stays_attach s _ content).bind fun _ _ => stays_pure trivial

theorem stays_attach (s : Setting) (g : Growth) : ∀ content, Stays r (attach s g content) fun _ => True
  | [] => stays_pure trivial
  | .element e :: rest => by
    rw [attach]
    split
    · split
      · exact (stays_attachFacets s g e).bind fun g _ => stays_attach s g rest
      · exact stays_attach s g rest
    · exact (stays_compileElement s e).bind fun t _ =>
        (stays_compileControl s g.next t e).bind fun _ _ => stays_attach s _ rest
  | .text _ :: rest | .comment _ :: rest | .instruction .. :: rest => by
    rw [attach]
    have hrest := stays_attach s g rest
    exact hrest

theorem stays_attachFacets (s : Setting) (g : Growth) : ∀ e, Stays r (attachFacets s g e) fun _ => True
  | ⟨name, attributes, content, location⟩ => by
    rw [attachFacets]
    exact stays_attachFacetPieces s g content

theorem stays_attachFacetPieces (s : Setting) (g : Growth) :
    ∀ content, Stays r (attachFacetPieces s g content) fun _ => True
  | [] => stays_pure trivial
  | .element e :: rest => by
    rw [attachFacetPieces]
    refine (stays_facetKey s _ _ _).bind fun key _ => (stays_compileElement s e).bind fun t _ => ?_
    split
    · exact stays_ofExcept
    · exact (stays_compileControl s g.next t e).bind fun _ _ => stays_attachFacetPieces s _ rest
  | .text _ :: rest | .comment _ :: rest | .instruction .. :: rest => by
    rw [attachFacetPieces]
    have hrest := stays_attachFacetPieces s g rest
    exact hrest

end

theorem stays_compileText (s : Setting) (text : String) : Stays r (compileText s text) fun _ => True := by
  unfold compileText
  split
  · exact (stays_compileElement s _).bind fun t _ =>
      (stays_compileControl s 0 t _).bind fun _ _ => stays_pure trivial
  · exact stays_fail _

end Markup

/-! ## §5 Trees without memos -/

namespace TemplateMaker

/-- A new template, by the definitions of a registry and the gate. -/
def template (f : TemplateMaker) (r : Registry) (uri : Option PageUri) (namespaceUri tag : String) :
    Except Error Template :=
  match r.find? namespaceUri tag with
  | none => .error (.unknownTag namespaceUri tag)
  | some d => match f.gate (.create uri namespaceUri tag) with
    | .error v => .error (.security v)
    | .ok () => .ok (.empty d f.memo)

/-- Answers the requests of compiling without remembering anything. -/
def plainAnswer (f : TemplateMaker) (r : Registry) : Program.Handler CompileRequest.Answer Unit
  | .create uri namespaceUri tag, _ => (f.template r uri namespaceUri tag, ())
  | .select _ d property, _ => (Factory.ofProperty d property, ())

/-- The tree of a text, or why it has none, by the definitions of a registry and the gate. -/
def treeOf (f : TemplateMaker) (r : Registry) (setting : Markup.Setting) (text : String) : Except Error Tree :=
  (Program.run (f.plainAnswer r) (Markup.compileText setting text) ()).1

variable {f : TemplateMaker} {r : Registry}

theorem definition_of_template {uri : Option PageUri} {namespaceUri tag : String} {t : Template}
    (h : f.template r uri namespaceUri tag = .ok t) : t.definition ∈ r.definitions := by
  unfold template at h
  split at h
  · cases h
  · rename_i d hd
    split at h
    · cases h
    · cases h
      exact List.mem_of_find?_eq_some hd

theorem create_eq (f : TemplateMaker) (uri : Option PageUri) (namespaceUri tag : String) (w : World) :
    ∃ journal, f.create uri namespaceUri tag w =
      (f.template w.registry uri namespaceUri tag, { w with journal := journal }) := by
  unfold create template
  cases w.registry.find? namespaceUri tag with
  -- the gate is not asked about an unknown tag, so there is nothing to note
  | none => exact ⟨w.journal, rfl⟩
  | some d =>
    refine ⟨.checked (.create uri namespaceUri tag) :: w.journal, ?_⟩
    cases hgate : f.gate (.create uri namespaceUri tag) <;> simp [World.note, hgate]

/-- A program that asks for factories of registered definitions only gives the same result with sound memos as
without memos. -/
theorem run_eq {α : Type} {p : Compile α} {Q : Except Error α → Prop} (hp : Confined r p Q) (hr : r.Distinct)
    {w : World} (hw : w.registry = r) (hmemos : w.memos.Sound r) :
    ∃ journal memos, memos.Sound r ∧
      Program.run f.answer p w = ((Program.run (f.plainAnswer r) p ()).1, { w with journal, memos }) := by
  induction p generalizing w with
  | done a => exact ⟨w.journal, w.memos, hmemos, rfl⟩
  | ask request next ih =>
    cases request with
    | create uri namespaceUri tag =>
      -- the journal is not looked at by anything that is asked later
      subst hw
      obtain ⟨journal, hcreate⟩ := create_eq f uri namespaceUri tag w
      have hnext := hp (f.template w.registry uri namespaceUri tag) fun t ht => definition_of_template ht
      obtain ⟨journal', memos, hsound, hrun⟩ := ih _ hnext (w := { w with journal }) rfl hmemos
      refine ⟨journal', memos, hsound, ?_⟩
      have hanswer : f.answer (.create uri namespaceUri tag) w =
          (f.template w.registry uri namespaceUri tag, { w with journal }) := hcreate
      rw [Program.run, hanswer]
      exact hrun
    | select memo d property =>
      -- the definition is registered, so a sound memo answers what would be found out anew
      obtain ⟨hd, hnext⟩ := hp
      obtain ⟨hfactory, hsound⟩ := hmemos.obtainFactory hr memo hd property
      obtain ⟨journal, memos, hsound', hrun⟩ := ih _ (hnext (Factory.ofProperty d property))
        (w := { w with memos := (w.memos.obtainFactory memo d property).2 }) hw hsound
      refine ⟨journal, memos, hsound', ?_⟩
      have hanswer : f.answer (.select memo d property) w =
          (Factory.ofProperty d property, { w with memos := (w.memos.obtainFactory memo d property).2 }) := by
        rw [← hfactory]
        rfl
      rw [Program.run, hanswer]
      exact hrun

/-- **Memos change nothing**: the tree of a text depends on the text, the registry and the gate alone. -/
theorem compileMarkup_eq (f : TemplateMaker) (hr : r.Distinct) (setting : Markup.Setting) (content : String)
    {w : World} (hw : w.registry = r) (hmemos : w.memos.Sound r) :
    ∃ journal memos nextStamp, memos.Sound r ∧ f.compileMarkup setting content w =
      ((f.treeOf r setting content).map (SharedTree.mk w.nextStamp), { w with journal, memos, nextStamp }) := by
  obtain ⟨journal, memos, hsound, hrun⟩ :=
    run_eq (f := f) (Markup.stays_compileText (r := r) setting content) hr hw hmemos
  unfold compileMarkup TemplateMaker.run treeOf
  rw [hrun]
  cases (Program.run (f.plainAnswer r) (Markup.compileText setting content) ()).1 with
  | error e => exact ⟨journal, memos, w.nextStamp, hsound, rfl⟩
  | ok t => exact ⟨journal, memos, w.nextStamp + 1, hsound, rfl⟩

end TemplateMaker

end PageTemplates
