import PageTemplates.Proofs.Markup.Creation
import PageTemplates.Proofs.Markup.Denial
import PageTemplates.Proofs.Page.CacheHistory

/-!
# Where the pages of an engine come from

Whatever tree an engine gives out, from the cache or not, its own maker of templates has compiled it for the page that
was asked for (`Engine.compiles_of_fetch`, `Engine.compiles_of_compileContent`), provided that nobody else puts pages
into the cache. When a maker compiles a page, it puts a check to its gate for each template of the page, at whatever
depth, and each of these checks passes (`TemplateMaker.checks_of_compileMarkup`).
-/

namespace PageTemplates

open Program (Answers Event Runs)

/-! ## §1 What a maker checks -/

namespace TemplateMaker

variable {f : TemplateMaker} {w w' : World} {events : List (Event CompileRequest.Answer)}

/-- A template is only given after a check, which is noted. -/
theorem journal_answer (f : TemplateMaker) (r : CompileRequest) (w : World) :
    ∃ entries, (f.answer r w).2.journal = entries ++ w.journal ∧ ∀ uri namespaceUri tag t,
      (⟨r, (f.answer r w).1⟩ : Event CompileRequest.Answer) = ⟨.create uri namespaceUri tag, (.ok t : Except Error Template)⟩ →
        .checked (.create uri namespaceUri tag) ∈ entries := by
  cases r with
  | select memo d property => exact ⟨[], rfl, nofun⟩
  | create uri namespaceUri tag =>
    dsimp only [answer, create]
    -- a tag that is not registered is not even checked, and then no template is given
    cases w.registry.find? namespaceUri tag with
    | none => exact ⟨[], rfl, nofun⟩
    | some d =>
      refine ⟨[.checked (.create uri namespaceUri tag)], ?_, ?_⟩
      · dsimp only
        split <;> rfl
      · intro _ _ _ _ h
        cases congrArg Event.request h
        exact List.mem_singleton_self _

theorem journal_of_answers (h : Answers f.answer w events w') :
    ∃ entries, w'.journal = entries ++ w.journal ∧ ∀ uri namespaceUri tag t,
      ⟨.create uri namespaceUri tag, (.ok t : Except Error Template)⟩ ∈ events →
        .checked (.create uri namespaceUri tag) ∈ entries := by
  -- by induction on the answers; what they note is put in front of what was noted before
  induction h with
  | nil w => exact ⟨[], rfl, fun _ _ _ _ hmem => absurd hmem List.not_mem_nil⟩
  | @cons r w w' events _ ih =>
    obtain ⟨later, hlater, hsecond⟩ := ih
    obtain ⟨first, hfirst, hnoted⟩ := f.journal_answer r w
    refine ⟨later ++ first, by rw [hlater, hfirst, List.append_assoc], fun uri namespaceUri tag t hmem => ?_⟩
    rcases List.mem_cons.mp hmem with heq | hmem
    · exact List.mem_append_right _ (hnoted uri namespaceUri tag t heq.symm)
    · exact List.mem_append_left _ (hsecond uri namespaceUri tag t hmem)

/-- A page was compiled by a maker, and in the course of it each of its templates was checked and let pass. -/
def Checks (f : TemplateMaker) (uri : Option PageUri) (page : SharedTree) : Prop :=
  ∃ content w entries w', f.compileMarkup ⟨uri, PageConfig.coreNamespace⟩ content w = (.ok page, w') ∧
    w'.journal = entries ++ w.journal ∧
    ∀ c ∈ page.tree.root.nodes, ∀ t, c.template.Within t →
      .checked (.create uri t.definition.namespaceUri t.tag) ∈ entries ∧
        f.gate (.create uri t.definition.namespaceUri t.tag) = .ok ()

/-- Templates are created for the page that is compiled. -/
theorem uri_of_created {s : Markup.Setting} {root : Markup.Element} {tree : Tree}
    (h : Runs (Markup.compileDocument s root) events (.ok tree)) {uri : Option PageUri} {namespaceUri tag : String}
    {answer : CompileRequest.Answer (.create uri namespaceUri tag)}
    (hmem : ⟨.create uri namespaceUri tag, answer⟩ ∈ events) : uri = s.uri := by
  have hcreation : CompileRequest.create uri namespaceUri tag ∈ Markup.creations events :=
    List.mem_filter.mpr ⟨List.mem_map_of_mem hmem, rfl⟩
  obtain ⟨x, -, hx⟩ := List.mem_map.mp ((Markup.compileDocument_covers h).asked.mem_iff.mp hcreation)
  cases hx
  rfl

/-- Each template of a document was created by an answer of the maker that is for just this template. -/
theorem created_of_answers (hanswers : Answers f.answer w events w') {s : Markup.Setting} {root : Markup.Element}
    {tree : Tree} (h : Runs (Markup.compileDocument s root) events (.ok tree)) {c : Control} (hc : c ∈ tree.root.nodes)
    {t : Template} (ht : c.template.Within t) :
    ∃ created, ⟨.create s.uri t.definition.namespaceUri t.tag, (.ok created : Except Error Template)⟩ ∈ events ∧
      f.gate (.create s.uri t.definition.namespaceUri t.tag) = .ok () := by
  have hempty : Markup.BeginsEmpty (· ∈ events) := fun uri namespaceUri tag t hmem =>
    f.beginsEmpty uri namespaceUri tag t (hanswers.exists_state hmem)
  obtain ⟨x, hx, rfl⟩ := List.mem_map.mp hc
  have hmade := (Markup.made_of_runs hempty (fun _ hmem => hmem) h x hx).within ht
  -- the template began as the answer to a request, and this was one for its own tag
  obtain ⟨uri, namespaceUri, tag, memo, hmem⟩ := hmade.exists_created
  obtain ⟨m, hm⟩ := hanswers.exists_state hmem
  obtain ⟨d, heq, rfl, rfl, hgate⟩ := create_eq_ok hm.symm
  obtain rfl : t.definition = d := congrArg Template.definition heq
  obtain rfl := uri_of_created h hmem
  exact ⟨_, hmem, hgate⟩

theorem checks_of_compileMarkup {uri : Option PageUri} {content : String} {page : SharedTree}
    (h : f.compileMarkup ⟨uri, PageConfig.coreNamespace⟩ content w = (.ok page, w')) : f.Checks uri page := by
  refine ⟨content, w, ?_⟩
  have hcompiled := h
  unfold compileMarkup at h
  split at h
  · rename_i tree m hrun
    cases h
    obtain ⟨events, hanswers, hruns⟩ := exists_answers hrun
    obtain ⟨entries, hjournal, hnoted⟩ := journal_of_answers hanswers
    refine ⟨entries, _, hcompiled, hjournal, fun c hc t ht => ?_⟩
    unfold Markup.compileText at hruns
    -- a text that is no document gives no tree
    split at hruns
    · obtain ⟨created, hmem, hgate⟩ := created_of_answers hanswers hruns hc ht
      exact ⟨hnoted _ _ _ _ hmem, hgate⟩
    · exact absurd hruns Markup.runs_fail
  · cases h

end TemplateMaker

/-! ## §2 What an engine gives out -/

/-- A tree that is fetched was in the cache, or has just been compiled. -/
theorem Interpreter.origin_of_fetched {i : Interpreter} {cache after : PageCache} {uri : PageUri} {events : List FetchEvent}
    {result : Except Error SharedTree} {page : SharedTree} (h : i.Fetched cache uri events result after)
    (hresult : result = .ok page) :
    (∃ cached, cache.get? uri = some cached ∧ cached.tree = page) ∨
      ∃ content, compiledAs content (some uri) (.ok page) ∈ events := by
  -- what a fetch finds is in the cache
  have get?_of_cached? : ∀ {cached}, i.cached? cache uri = some cached → cache.get? uri = some cached := by
    intro cached hcached
    unfold cached? at hcached
    split at hcached
    · exact hcached
    · cases hcached
  cases h with
  | unjudged _ hcached | current _ hcached => exact .inl ⟨_, get?_of_cached? hcached, Except.ok.inj hresult⟩
  | loaderless | unloaded | uncompiled => cases hresult
  | compiled loaded tree =>
    cases hresult
    exact .inr ⟨loaded.content, by simp⟩

namespace Engine

variable {e : Engine} {w : World} {records : List PageRecord} {uri : PageUri} {page : SharedTree}

/-- What an answer to a request for compiling says. -/
theorem checks_of_compiledAs {before after : World} {events : List FetchEvent} {content : String} {uri : Option PageUri}
    (h : Answers e.factory.fetchAnswer before events after) (hmem : compiledAs content uri (.ok page) ∈ events) :
    e.factory.Checks uri page := by
  obtain ⟨m, hm⟩ := h.exists_state hmem
  exact TemplateMaker.checks_of_compileMarkup (Prod.ext hm.symm rfl)

/-- The trees in the cache were compiled by the maker of the engine. -/
theorem Session.checks (h : e.Session records w) :
    ∀ uri page, w.cache.get? uri = some page → e.factory.Checks (some uri) page.tree := by
  induction h with
  | start h =>
    intro uri page hpage
    rw [h] at hpage
    cases hpage
  | elsewhere _ h ih => exact h ▸ ih
  | @call records w past builder c ih =>
    intro uri page hpage
    rw [e.cache_call] at hpage
    have hruns : Runs (e.interpreter.perform w.cache c) (e.record w c).events _ :=
      Program.runs_trace e.factory.fetchAnswer _ w
    -- an entry was there before the call, or the call has made it
    rcases Interpreter.entry_of_runs (r := e.record w c) hruns hpage with hbefore | ⟨-, content, hstems⟩
    · exact ih uri page hbefore
    · exact checks_of_compiledAs (Program.answers_trace e.factory.fetchAnswer _ w)
        (hstems.subset (List.mem_cons_of_mem _ List.mem_cons_self))

/-- A page that is fetched was compiled by the maker of the engine, at whatever time. -/
theorem checks_of_fetch (h : e.Session records w) (hfetch : (e.fetch uri w).1 = .ok page) :
    e.factory.Checks (some uri) page := by
  have hruns : Runs (e.interpreter.perform w.cache (.fetch uri)) (e.record w (.fetch uri)).events _ :=
    Program.runs_trace e.factory.fetchAnswer _ w
  have hresult : (e.record w (.fetch uri)).result = .ok page :=
    (congrArg Prod.fst (e.record_fetch uri w)).trans hfetch
  -- the tree was compiled in an earlier call, or in this one
  rcases Interpreter.origin_of_fetched (Interpreter.fetched_of_runs hruns) hresult with
    ⟨cached, hcached, rfl⟩ | ⟨content, hmem⟩
  · exact h.checks uri cached hcached
  · exact checks_of_compiledAs (Program.answers_trace e.factory.fetchAnswer _ w) hmem

theorem checks_of_compileContent {content : String} (h : (e.compileContent content w).1 = .ok page) :
    e.factory.Checks none page := by
  rw [e.compileContent_eq] at h
  exact TemplateMaker.checks_of_compileMarkup (Prod.ext h rfl)

end Engine

end PageTemplates
