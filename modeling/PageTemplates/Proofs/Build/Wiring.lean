import PageTemplates.Proofs.Build.Bags
import PageTemplates.Proofs.Program.Asked

/-!
# What a build does about included pages

A component that includes a page is given the name of the page, and what builds it. In the course of a build nothing
else is done about included pages.

What a component has been given stays as it is: new components have been given nothing, and no write changes it
(`Blueprint.builder?_build`, `Store.builder?_write`). So a component that was wired in the course of a build has been
given what the surroundings of the build had to give (`builder_of_wired`).

No page is asked for. Where the pages come from and which are in the cache has no influence on a build
(`Context.run_withPages`), and nothing of the kind is noted in the journal (`Context.journal_run`).
-/

namespace PageTemplates

open Program (Answers Asks Event)

/-! ## §1 What builds the included page -/

/-- What a component has been given for building the page that it includes. -/
def Component.builder? (c : Component) : Option PageBuilder := c.inclusion?.bind Inclusion.builder

/-- What the component at a place has been given for building the page that it includes. -/
def Store.builder? (s : Store) (ref : Nat) : Option PageBuilder := (s.get? ref).bind Component.builder?

/-- No write changes what a component has been given. -/
theorem Component.builder?_write (c : Component) (w : Write) : (c.write w).2.builder? = c.builder? := by
  cases c with
  | bag b => cases w <;> rfl
  | plain p => rfl

namespace Store

/-- A component that has been given nothing makes no difference when it is new. -/
theorem builder?_add (s : Store) {c : Component} (h : c.builder? = none) (ref : Nat) :
    (s.add c).2.builder? ref = s.builder? ref := by
  unfold builder? get? add
  rw [Array.getElem?_push]
  -- at the new place there was nothing, and there is a component now that has been given nothing
  split
  · rename_i href
    have hfree : s.cells[ref]? = none := Array.getElem?_eq_none (Nat.le_of_eq href.symm)
    rw [hfree]
    exact h
  · rfl

/-- A component that has been given as much as the one before makes no difference in its place. -/
theorem builder?_set {s : Store} {ref : Nat} {c c' : Component} (hc : s.get? ref = some c)
    (h : c'.builder? = c.builder?) (other : Nat) : (s.set ref c').builder? other = s.builder? other := by
  have hlt : ref < s.cells.size := (Array.getElem?_eq_some_iff.mp hc).1
  unfold builder?
  rw [get?_set c' hlt]
  -- the place is that of the component, or another one
  split
  · rename_i href
    rw [← href, hc]
    exact h
  · rfl

theorem builder?_write (s : Store) (ref : Nat) (w : Write) (other : Nat) :
    (s.write ref w).2.builder? other = s.builder? other := by
  unfold write
  split
  · rfl
  · rename_i c hc
    exact builder?_set hc (c.builder?_write w) other

end Store

/-! ### New components -/

theorem Blueprint.builder?_initial (kind : BlueprintKind) (typeName : String) :
    (Blueprint.initial kind typeName).builder? = none := by
  cases kind with
  | foreign conduct includes => cases includes <;> rfl
  | bag | including | plain refusals | callable refusals yields => rfl

-- the recursion is that of building
mutual

theorem Draft.builder?_build (w : Workshop) (ref : Nat) : ∀ d : Draft,
    (d.build w).2.store.builder? ref = w.store.builder? ref
  | .ready v => rfl
  | .list items => by
    rw [Draft.build]
    exact builder?_buildDrafts w ref items
  | .object b => by
    rw [Draft.build]
    exact Blueprint.builder?_build w ref b

theorem builder?_buildDrafts (w : Workshop) (ref : Nat) : ∀ ds : List Draft,
    (buildDrafts w ds).2.store.builder? ref = w.store.builder? ref
  | [] => rfl
  | d :: rest => by
    rw [buildDrafts]
    exact (builder?_buildDrafts (d.build w).2 ref rest).trans (Draft.builder?_build w ref d)

theorem Blueprint.builder?_build (w : Workshop) (ref : Nat) : ∀ b : Blueprint,
    (b.build w).2.store.builder? ref = w.store.builder? ref
  | .mk kind typeName properties => by
    -- the component is new, and then properties are written to it
    rw [Blueprint.build]
    exact (builder?_writeDrafts _ _ ref properties).trans (w.store.builder?_add (Blueprint.builder?_initial kind typeName) ref)

theorem builder?_writeDrafts (place : Nat) (w : Workshop) (ref : Nat) : ∀ ps : List (String × Draft),
    (writeDrafts place w ps).store.builder? ref = w.store.builder? ref
  | [] => rfl
  | (name, d) :: rest => by
    rw [writeDrafts]
    refine (builder?_writeDrafts place _ ref rest).trans ?_
    exact ((d.build w).2.store.builder?_write place _ ref).trans (Draft.builder?_build w ref d)

end

/-! ### Requests -/

section Wired

variable {ctx : Context} {own b : PageBuilder} {w w' : World} {ref : Nat}

/-- A component at a place has been given nothing, or what is `own`. -/
def World.GivenOnly (w : World) (own : PageBuilder) (ref : Nat) : Prop := ∀ b, w.store.builder? ref = some b → b = own

theorem Component.builder?_wirePage (c : Component) (page : String) (h : (c.wirePage page (some own)).builder? = some b) :
    b = own := by
  -- a component that can include a page is given the builder, and any other one stays as it is
  cases c with
  | plain p => cases hinclusion : p.inclusion <;> simp_all [wirePage, builder?, inclusion?]
  | bag bag => cases hinclusion : bag.inclusion <;> simp_all [wirePage, builder?, inclusion?, Bag.setBuilder, Bag.setPage]

/-- Wiring gives a component what the surroundings have to give. -/
theorem Context.givenOnly_wirePage (hctx : ctx.builder = some own) (i : Instance) (page : String) (w : World) :
    (ctx.answer (.wirePage i page) w).2.GivenOnly own i.ref := by
  intro b hb
  dsimp only [answer] at hb
  split at hb
  · rename_i c hc
    have hlt : i.ref < w.store.cells.size := (Array.getElem?_eq_some_iff.mp hc).1
    have hset := Store.get?_set (c.wirePage page ctx.builder) hlt i.ref
    rw [if_pos rfl] at hset
    unfold Store.builder? at hb
    rw [hset, hctx] at hb
    exact c.builder?_wirePage page hb
  · rename_i hnone
    unfold Store.builder? at hb
    rw [hnone] at hb
    cases hb

/-- No request gives a component anything else than what the surroundings have to give. -/
theorem Context.givenOnly_answer (hctx : ctx.builder = some own) (r : BuildRequest) (h : w.GivenOnly own ref) :
    (ctx.answer r w).2.GivenOnly own ref := by
  have keep : ∀ {w' : World}, w'.store.builder? ref = w.store.builder? ref → w'.GivenOnly own ref :=
    fun heq b hb => h b (heq ▸ hb)
  -- only wiring gives something, and the rest of the requests is gone through
  cases r with
  | construct d => exact keep (Blueprint.builder?_build ⟨w.store, []⟩ ref d.blueprint)
  | write i change =>
    have hstore : (ctx.answer (.write i change) w).2.store = (w.store.write i.ref change).2 := w.store_write i.ref change
    refine keep ?_
    rw [hstore]
    exact w.store.builder?_write i.ref change ref
  | wirePage i page =>
    by_cases href : i.ref = ref
    · exact href ▸ ctx.givenOnly_wirePage hctx i page w
    · -- another component is wired
      refine keep ?_
      dsimp only [answer]
      split
      · rename_i c hc
        have hlt : i.ref < w.store.cells.size := (Array.getElem?_eq_some_iff.mp hc).1
        unfold Store.builder?
        rw [Store.get?_set _ hlt ref, if_neg href]
      · rfl
  | check c =>
    refine keep ?_
    dsimp only [answer]
    split <;> rfl
  | evaluate e | bindValue e type | bindCallable e | wireOwner c owner | wireComponent c i | yielded i | finish i =>
    exact h

theorem givenOnly_of_answers {events : List BuildEvent} (h : Answers ctx.answer w events w')
    (hctx : ctx.builder = some own) (hbefore : w.GivenOnly own ref) : w'.GivenOnly own ref := by
  induction h with
  | nil w => exact hbefore
  | cons r _ ih => exact ih (Context.givenOnly_answer hctx r hbefore)

/-- A component is wired to a page. -/
def wired (i : Instance) (page : String) : BuildEvent := ⟨.wirePage i page, ()⟩

/-- A component that has been wired has what the surroundings had to give, whatever it had before. -/
theorem builder_of_wired {events : List BuildEvent} {i : Instance} {page : String} (h : Answers ctx.answer w events w')
    (hctx : ctx.builder = some own) (hwired : wired i page ∈ events) (hb : w'.store.builder? i.ref = some b) :
    b = own := by
  -- what the component had before is replaced when it is wired, and later requests give it nothing else
  obtain ⟨before, after, rfl⟩ := List.append_of_mem hwired
  obtain ⟨m, -, hrest⟩ := Program.answers_append.mp h
  obtain ⟨-, hlater⟩ := Program.answers_cons hrest
  exact givenOnly_of_answers hlater hctx (ctx.givenOnly_wirePage hctx i page m) b hb

end Wired

/-! ## §2 No page is asked for -/

/-- The world with other pages to load, and with others in the cache. -/
def World.withPages (w : World) (source : PageSource) (cache : PageCache) : World := { w with source, cache }

section Pages

variable {ctx : Context} {α : Type}

theorem Context.answer_withPages (ctx : Context) (source : PageSource) (cache : PageCache) (r : BuildRequest) (w : World) :
    ctx.answer r (w.withPages source cache) = ((ctx.answer r w).1, (ctx.answer r w).2.withPages source cache) := by
  -- the pages are looked at by no request
  cases r with
  | check check => cases hwatched : ctx.watched <;> simp [Context.answer, hwatched, World.withPages, World.note]
  | write i change =>
    simp only [Context.answer, World.write, World.withPages]
    cases (w.store.get? i.ref).bind (·.report? change) <;> rfl
  | wirePage i page =>
    simp only [Context.answer, World.withPages]
    cases w.store.get? i.ref <;> rfl
  | _ => rfl

/-- A build is the same whatever pages there are. -/
theorem Context.run_withPages (ctx : Context) (p : Build α) (w : World) (source : PageSource) (cache : PageCache) :
    ctx.run p (w.withPages source cache) = ((ctx.run p w).1, (ctx.run p w).2.withPages source cache) :=
  (Asks.anything p).run_eq (fun r _ w => ctx.answer_withPages source cache r w) w

/-- The loader is asked for a page, or about one. -/
def JournalEntry.AsksLoader : JournalEntry → Prop
  | .loaded _ | .judged .. => True
  | _ => False

/-- What has been noted since is not about pages. -/
def World.NotesNoPage (w w' : World) : Prop :=
  ∃ entries, w'.journal = entries ++ w.journal ∧ ∀ x ∈ entries, ¬ x.AsksLoader

namespace World.NotesNoPage

variable {w w' w'' : World}

theorem of_eq (h : w'.journal = w.journal) : w.NotesNoPage w' := ⟨[], h, List.forall_mem_nil _⟩

theorem note (w : World) {x : JournalEntry} (hx : ¬ x.AsksLoader) : w.NotesNoPage (w.note x) :=
  ⟨[x], rfl, List.forall_mem_singleton.mpr hx⟩

theorem trans (h : w.NotesNoPage w') (h' : w'.NotesNoPage w'') : w.NotesNoPage w'' := by
  obtain ⟨earlier, hearlier, hfirst⟩ := h
  obtain ⟨later, hlater, hsecond⟩ := h'
  refine ⟨later ++ earlier, ?_, List.forall_mem_append.mpr ⟨hsecond, hfirst⟩⟩
  rw [hlater, hearlier, List.append_assoc]

theorem construct (w : World) (b : Blueprint) : w.NotesNoPage (w.construct b).2 := by
  refine ⟨(b.build ⟨w.store, []⟩).2.reports.map .wrote, rfl, fun x hx => ?_⟩
  obtain ⟨report, _, rfl⟩ := List.mem_map.mp hx
  exact id

theorem write (w : World) (ref : Nat) (change : Write) : w.NotesNoPage (w.write ref change).2 := by
  unfold World.write
  split
  · exact note w id
  · exact of_eq rfl

end World.NotesNoPage

theorem Context.notesNoPage_answer (ctx : Context) (r : BuildRequest) (w : World) :
    w.NotesNoPage (ctx.answer r w).2 := by
  -- each request notes one entry at most of its own kind, besides the reports of a construction
  cases r with
  | construct d => exact (World.NotesNoPage.note w id).trans (.construct _ d.blueprint)
  | check c =>
    dsimp only [answer]
    split
    · exact .note w id
    · exact .of_eq rfl
  | evaluate e | bindValue e type | bindCallable e => exact .note w id
  | write i change => exact .write w i.ref change
  | wirePage i page =>
    dsimp only [answer]
    split <;> exact .of_eq rfl
  | wireOwner c owner | wireComponent c i | yielded i | finish i => exact .of_eq rfl

theorem notesNoPage_of_answers {w w' : World} {events : List BuildEvent} (h : Answers ctx.answer w events w') :
    w.NotesNoPage w' := by
  induction h with
  | nil w => exact .of_eq rfl
  | cons r _ ih => exact (ctx.notesNoPage_answer r _).trans ih

/-- No build asks the loader for anything. -/
theorem Context.notesNoPage_run (ctx : Context) (p : Build α) (w : World) : w.NotesNoPage (ctx.run p w).2 :=
  notesNoPage_of_answers (Program.answers_trace ctx.answer p w)

end Pages

end PageTemplates
