import PageTemplates.Host.Engine
import PageTemplates.Proofs.Template.Recall
import Mathlib.Data.List.Induction

/-!
# Which trees are served

An engine with a cache is asked for pages while pages are stored, replaced and dropped. What it answers is compared
with an account of the pages (`Shelf`) that knows no trees: it keeps the library and, for each address, the stored
page that the cached tree was compiled from. The account and the engine go side by side through every history
(`mirrors_after`).

A token tells two contents apart only by the version of the page, and versions begin again when a page is dropped. The
tree of the stored content is served unless the cached tree stems from other content that had the same version
(`served_iff`), which needs the page to have been dropped in between.
-/

namespace PageTemplates

/-! ## §1 Tokens -/

theorem Text.ofNatural_injective : Function.Injective Text.ofNatural := by
  intro m n h
  have hdigits := congrArg String.toList h
  rw [ofNatural, ofNatural, String.toList_ofList, String.toList_ofList] at hdigits
  rw [← Nat.ofDigitChars_ten_toDigits (n := m), hdigits, Nat.ofDigitChars_ten_toDigits]

theorem StoredPage.token_eq_iff {p q : StoredPage} : p.token = q.token ↔ p.version = q.version := by
  constructor
  · intro h
    have htext : "v" ++ Text.ofNatural p.version = "v" ++ Text.ofNatural q.version := congrArg Token.text h
    exact Text.ofNatural_injective (String.append_right_inj "v" |>.mp htext)
  · intro h
    rw [token, token, h]

theorem PageLibrary.isExpired_of_absent {l : PageLibrary} {uri : PageUri} {t : Token}
    (h : l.pages.find? uri.text = none) : l.isExpired uri t = true := by
  rw [isExpired, h]

theorem PageLibrary.isExpired_of_stored {l : PageLibrary} {uri : PageUri} {p q : StoredPage}
    (h : l.pages.find? uri.text = some p) : l.isExpired uri q.token = decide (q.version ≠ p.version) := by
  rw [isExpired, h, Bool.eq_iff_iff, bne_iff_ne, decide_eq_true_iff, ne_eq, StoredPage.token_eq_iff, eq_comm]

/-! ## §2 Histories -/

/-- What may be done with pages. -/
inductive PageStep where
  /-- Content is stored under an address. -/
  | store (uri : PageUri) (content : String)
  /-- The page of an address is dropped. -/
  | drop (uri : PageUri)
  /-- The tree of a page is asked for. -/
  | fetch (uri : PageUri)
  /-- The tree of loose content is asked for. -/
  | compile (content : String)
  /-- The compiled page of an address is dropped. -/
  | forget (uri : PageUri)
  /-- All compiled pages are dropped. -/
  | forgetAll

/-- A host that knows some definitions and has an empty library. -/
def World.opened (definitions : List Definition) : World :=
  definitions.foldl World.register (World.initial (.library .empty))

namespace Engine

/-- An engine with a loader and a cache. -/
def caching (config : PageConfig) (f : TemplateMaker) (gate : Gate) : Engine := ⟨⟨config, true, true⟩, f, gate⟩

/-- What a step makes of the world. -/
def pageStep (e : Engine) (w : World) : PageStep → World
  | .store uri content => w.withLibrary (w.library.add uri content)
  | .drop uri => w.withLibrary (w.library.remove uri)
  | .fetch uri => (e.fetch uri w).2
  | .compile content => (e.compileContent content w).2
  | .forget uri => { w with cache := w.cache.remove uri }
  | .forgetAll => { w with cache := .empty }

/-- The world after a history. -/
def after (e : Engine) (w : World) (history : List PageStep) : World := history.foldl e.pageStep w

end Engine

/-! ## §3 The account of the pages -/

/-- The stored pages, and for each address the page that the cached tree was compiled from. -/
structure Shelf where
  library : PageLibrary
  /-- Where the cached trees come from. -/
  origin : PageUri → Option StoredPage

namespace Shelf

/-- No pages. -/
def empty : Shelf := ⟨.empty, fun _ => none⟩

/-- The stored page of an address. -/
def stored? (s : Shelf) (uri : PageUri) : Option StoredPage := s.library.pages.find? uri.text

/-- The page that is served where some page is stored: the one of the cached tree, if it has the same version. -/
def served (s : Shelf) (uri : PageUri) (p : StoredPage) : StoredPage :=
  ((s.origin uri).filter fun q => q.version == p.version).getD p

/-- What is answered when a page is asked for. -/
def answer (s : Shelf) (treeOf : PageUri → String → Except Error Tree) (uri : PageUri) : Except Error Tree :=
  match s.stored? uri with
  | none => .error (.resourceUnreachable uri.text (some (.notFound uri.text)))
  | some p => treeOf uri (s.served uri p).content

/-- What happens to the account at each step; `reads` says which contents have a tree. -/
def step (reads : PageUri → String → Bool) (s : Shelf) : PageStep → Shelf
  | .store uri content => { s with library := s.library.add uri content }
  | .drop uri => { s with library := s.library.remove uri }
  | .fetch uri => match s.stored? uri with
    | none => s
    | some p =>
      if reads uri (s.served uri p).content then
        { s with origin := fun v => if v = uri then some (s.served uri p) else s.origin v }
      else s
  | .compile _ => s
  | .forget uri => { s with origin := fun v => if v = uri then none else s.origin v }
  | .forgetAll => { s with origin := fun _ => none }

/-- The account after a history. -/
def after (reads : PageUri → String → Bool) (history : List PageStep) : Shelf := history.foldl (step reads) empty

variable {reads : PageUri → String → Bool} {uri : PageUri}

theorem served_of_version (s : Shelf) {q : StoredPage} (p : StoredPage) (hq : s.origin uri = some q)
    (hversion : q.version = p.version) : s.served uri p = q := by
  rw [served, hq, Option.filter_some, if_pos (beq_iff_eq.mpr hversion)]
  rfl

theorem served_of_stale (s : Shelf) (p : StoredPage)
    (h : ∀ q, s.origin uri = some q → q.version ≠ p.version) : s.served uri p = p := by
  rw [served]
  cases hq : s.origin uri with
  | none => rfl
  | some q =>
    rw [Option.filter_some, if_neg fun hversion => h q hq (beq_iff_eq.mp hversion)]
    rfl

theorem answer_of_absent (s : Shelf) (treeOf : PageUri → String → Except Error Tree) (h : s.stored? uri = none) :
    s.answer treeOf uri = .error (.resourceUnreachable uri.text (some (.notFound uri.text))) := by
  rw [answer, h]

theorem answer_of_stored (s : Shelf) (treeOf : PageUri → String → Except Error Tree) {p : StoredPage}
    (h : s.stored? uri = some p) : s.answer treeOf uri = treeOf uri (s.served uri p).content := by
  rw [answer, h]

theorem step_fetch_of_absent (s : Shelf) (h : s.stored? uri = none) : s.step reads (.fetch uri) = s := by
  rw [step, h]

theorem step_fetch_of_reads (s : Shelf) {p : StoredPage} (h : s.stored? uri = some p)
    (hreads : reads uri (s.served uri p).content) :
    s.step reads (.fetch uri) =
      { s with origin := fun v => if v = uri then some (s.served uri p) else s.origin v } := by
  rw [step, h]
  exact if_pos hreads

theorem step_fetch_of_unread (s : Shelf) {p : StoredPage} (h : s.stored? uri = some p)
    (hreads : reads uri (s.served uri p).content = false) : s.step reads (.fetch uri) = s := by
  rw [step, h]
  exact if_neg (Bool.eq_false_iff.mp hreads)

/-- The cached tree of an address stems from other content than the stored one, though the version is the same. -/
def Reissued {α : Type} (s : Shelf) (treeOf : String → α) (uri : PageUri) (p : StoredPage) : Prop :=
  ∃ q, s.origin uri = some q ∧ q.version = p.version ∧ treeOf q.content ≠ treeOf p.content

end Shelf

/-! ## §4 The engine keeps to the account -/

/-- The tree of the content of a page, or why it has none. -/
def TemplateMaker.pageTree (f : TemplateMaker) (r : Registry) (uri : PageUri) (content : String) : Except Error Tree :=
  f.treeOf r ⟨some uri, PageConfig.coreNamespace⟩ content

/-- The content of a page has a tree. -/
def TemplateMaker.reads (f : TemplateMaker) (r : Registry) (uri : PageUri) (content : String) : Bool :=
  (f.pageTree r uri content).isOk

/-- A compiled page stems from a stored one. -/
def StemsFrom (f : TemplateMaker) (r : Registry) (uri : PageUri) : Option CompiledPage → Option StoredPage → Prop
  | none, none => True
  | some c, some q => c.token = q.token ∧ f.pageTree r uri q.content = .ok c.tree.tree
  | none, some _ | some _, none => False

/-- The world of a host is as an account of its pages says. -/
structure Mirrors (f : TemplateMaker) (r : Registry) (w : World) (s : Shelf) : Prop where
  registry : w.registry = r
  /-- The memos remember what they should. -/
  memos : w.memos.Sound r
  source : w.source = .library s.library
  /-- Tokens are judged by the library. -/
  verdict : w.verdict = none
  /-- Each cached tree stems from the page that the account gives. -/
  cache : ∀ u, StemsFrom f r u (w.cache.get? u) (s.origin u)

namespace Engine

variable {config : PageConfig} {f : TemplateMaker} {gate : Gate} {uri : PageUri} {w w' w'' : World}

theorem fetch_of_current {t : SharedTree}
    (h : Program.run f.fetchAnswer (Interpreter.current? ⟨config, true, true⟩ w.cache uri) w = (some t, w')) :
    (caching config f gate).fetch uri w = (.ok t, { w' with cache := w.cache }) := by
  unfold fetch Interpreter.fetch
  dsimp only [caching]
  rw [Program.run_bind, h]
  rfl

theorem fetch_of_error {e : Error}
    (h : Program.run f.fetchAnswer (Interpreter.current? ⟨config, true, true⟩ w.cache uri) w = (none, w'))
    (hfresh : Program.run f.fetchAnswer (Interpreter.fresh ⟨config, true, true⟩ uri) w' = (.error e, w'')) :
    (caching config f gate).fetch uri w = (.error e, { w'' with cache := w.cache }) := by
  unfold fetch Interpreter.fetch
  dsimp only [caching]
  rw [Program.run_bind, h]
  dsimp only
  rw [Program.run_bind, hfresh]
  rfl

theorem fetch_of_page {page : CompiledPage}
    (h : Program.run f.fetchAnswer (Interpreter.current? ⟨config, true, true⟩ w.cache uri) w = (none, w'))
    (hfresh : Program.run f.fetchAnswer (Interpreter.fresh ⟨config, true, true⟩ uri) w' = (.ok page, w'')) :
    (caching config f gate).fetch uri w = (.ok page.tree, { w'' with cache := w.cache.put uri page }) := by
  unfold fetch Interpreter.fetch
  dsimp only [caching]
  rw [Program.run_bind, h]
  dsimp only
  rw [Program.run_bind, hfresh]
  rfl

theorem compileContent_eq (e : Engine) (content : String) (w : World) : e.compileContent content w =
    e.factory.compileMarkup ⟨none, PageConfig.coreNamespace⟩ (e.interpreter.config.prepare content) w := by
  unfold compileContent Interpreter.compileContent Fetch.compile Program.request
  dsimp only [Program.run, TemplateMaker.fetchAnswer]

end Engine

namespace Mirrors

variable {f : TemplateMaker} {r : Registry} {w : World} {s : Shelf}

theorem elsewhere (h : Mirrors f r w s) {memos : Memos} (hmemos : memos.Sound r) (journal : Journal)
    (nextStamp : Nat) : Mirrors f r { w with journal, memos, nextStamp } s :=
  ⟨h.registry, hmemos, h.source, h.verdict, h.cache⟩

theorem note (h : Mirrors f r w s) (e : JournalEntry) : Mirrors f r (w.note e) s :=
  ⟨h.registry, h.memos, h.source, h.verdict, h.cache⟩

theorem put (h : Mirrors f r w s) {uri : PageUri} {p : StoredPage} {t : SharedTree}
    (ht : f.pageTree r uri p.content = .ok t.tree) :
    Mirrors f r { w with cache := w.cache.put uri ⟨t, p.token⟩ }
      { s with origin := fun v => if v = uri then some p else s.origin v } := by
  refine ⟨h.registry, h.memos, h.source, h.verdict, fun v => ?_⟩
  dsimp only [PageCache.get?, PageCache.put]
  rw [NameMap.find?_insert]
  by_cases hv : v = uri
  · subst hv
    rw [if_pos rfl, if_pos rfl]
    exact ⟨rfl, ht⟩
  · rw [if_neg hv, if_neg fun htext => hv (congrArg PageUri.mk htext).symm]
    exact h.cache v

/-! ### Asking for a page -/

/-- The tree in the cache is taken just if it stems from a page of the version that is stored. -/
theorem run_current? (h : Mirrors f r w s) (config : PageConfig) (uri : PageUri) :
    ∃ journal answer,
      Program.run f.fetchAnswer (Interpreter.current? ⟨config, true, true⟩ w.cache uri) w =
        (answer, { w with journal }) ∧
      match answer with
      | some t => ∃ q p, s.origin uri = some q ∧ s.stored? uri = some p ∧ q.version = p.version ∧
          f.pageTree r uri q.content = .ok t.tree
      | none => ∀ q p, s.origin uri = some q → s.stored? uri = some p → q.version ≠ p.version := by
  have hcache := h.cache uri
  unfold Interpreter.current?
  rw [if_pos rfl]
  cases hpage : w.cache.get? uri with
  | none =>
    -- nothing is cached, and so the account has no page either
    refine ⟨w.journal, none, rfl, fun q p hq _ => ?_⟩
    rw [hpage, hq] at hcache
    exact hcache.elim
  | some c =>
    cases horigin : s.origin uri with
    | none =>
      rw [hpage, horigin] at hcache
      exact hcache.elim
    | some q =>
      rw [hpage, horigin] at hcache
      obtain ⟨htoken, htree⟩ := hcache
      -- no answer is fixed, so the library itself judges the token
      have hjudge : w.judge uri c.token = (s.library.isExpired uri q.token, w.note (.judged uri c.token)) := by
        unfold World.judge
        rw [h.verdict, h.source, htoken]
      refine ⟨.judged uri c.token :: w.journal, if s.library.isExpired uri q.token then none else some c.tree, ?_, ?_⟩
      · show (if (w.judge uri c.token).1 then none else some c.tree, (w.judge uri c.token).2) = _
        rw [hjudge]
        rfl
      · cases hstored : s.stored? uri with
        | none =>
          rw [PageLibrary.isExpired_of_absent hstored]
          exact nofun
        | some p =>
          rw [PageLibrary.isExpired_of_stored hstored]
          by_cases hversion : q.version = p.version
          · rw [decide_eq_false fun hne => hne hversion]
            exact ⟨q, p, rfl, rfl, hversion, htree⟩
          · rw [decide_eq_true hversion]
            intro q' p' hq' hp'
            cases hq'
            cases hp'
            exact hversion

/-- A page that is loaded and compiled anew gives the tree of its content. -/
theorem run_fresh (h : Mirrors f r w s) (hr : r.Distinct) (config : PageConfig) (uri : PageUri) :
    ∃ result w', Program.run f.fetchAnswer (Interpreter.fresh ⟨config, true, true⟩ uri) w = (result, w') ∧
      Mirrors f r w' s ∧ w'.cache = w.cache ∧
      match s.stored? uri with
      | none => result = .error (.resourceUnreachable uri.text (some (.notFound uri.text)))
      | some p => result.map (·.tree.tree) = f.pageTree r uri p.content ∧
          ∀ page, result = .ok page → page.token = p.token := by
  have hload : w.load uri = (s.library.load uri, w.note (.loaded uri)) := by
    unfold World.load
    rw [h.source]
  unfold Interpreter.fresh
  rw [if_pos rfl, Program.run_bind]
  dsimp only [Fetch.load, Program.request, Program.run, TemplateMaker.fetchAnswer]
  rw [hload]
  dsimp only [PageLibrary.load]
  cases hstored : s.stored? uri with
  | none =>
    rw [show s.library.pages.find? uri.text = none from hstored]
    exact ⟨_, _, rfl, h.note _, rfl, rfl⟩
  | some p =>
    -- compiling gives what it would give without memos
    rw [show s.library.pages.find? uri.text = some p from hstored]
    have hnoted := h.note (.loaded uri)
    obtain ⟨journal, memos, nextStamp, hmemos, hcompile⟩ :=
      f.compileMarkup_eq hr ⟨some uri, PageConfig.coreNamespace⟩ p.content hnoted.registry hnoted.memos
    dsimp only
    rw [Program.run_bind]
    dsimp only [Fetch.compile, Program.request, Program.run, TemplateMaker.fetchAnswer]
    rw [hcompile]
    refine ⟨_, _, rfl, hnoted.elsewhere hmemos journal nextStamp, rfl, ?_⟩
    unfold TemplateMaker.pageTree
    cases f.treeOf r ⟨some uri, PageConfig.coreNamespace⟩ p.content with
    | error e => exact ⟨rfl, nofun⟩
    | ok t =>
      refine ⟨rfl, fun page hpage => ?_⟩
      cases hpage
      rfl

/-- Asking for a page gives the tree of the page that the account says is served. -/
theorem fetch (h : Mirrors f r w s) (hr : r.Distinct) (config : PageConfig) (gate : Gate) (uri : PageUri) :
    ((Engine.caching config f gate).fetch uri w).1.map (·.tree) = s.answer (f.pageTree r) uri ∧
      Mirrors f r ((Engine.caching config f gate).fetch uri w).2 (s.step (f.reads r) (.fetch uri)) := by
  obtain ⟨journal, answer, hcurrent, hanswer⟩ := h.run_current? config uri
  have hworld : Mirrors f r { w with journal } s := h.elsewhere h.memos journal w.nextStamp
  cases answer with
  | some t =>
    -- the cached tree is served: the account says that it stems from a page of the stored version
    obtain ⟨q, p, horigin, hstored, hversion, htree⟩ := hanswer
    have hserved := s.served_of_version p horigin hversion
    rw [Engine.fetch_of_current hcurrent, s.answer_of_stored _ hstored, s.step_fetch_of_reads hstored]
    · rw [hserved]
      refine ⟨htree.symm, ?_⟩
      -- the cache stays as it is, and so does the account
      have hsame : (fun v => if v = uri then some q else s.origin v) = s.origin := by
        funext v
        by_cases hv : v = uri
        · rw [if_pos hv, hv, horigin]
        · rw [if_neg hv]
      rw [hsame]
      exact hworld
    · rw [hserved, TemplateMaker.reads, htree]
      rfl
  | none =>
    -- the page is loaded and compiled anew, if it is stored
    obtain ⟨result, w', hfresh, hmirrors, hcache, hresult⟩ := hworld.run_fresh hr config uri
    -- a fetch puts the cache back, which compiling has not touched
    have hkept : ({ w' with cache := w.cache } : World) = w' := by
      show ({ w' with cache := ({ w with journal } : World).cache } : World) = w'
      rw [← hcache]
    cases hstored : s.stored? uri with
    | none =>
      rw [hstored] at hresult
      subst hresult
      rw [Engine.fetch_of_error hcurrent hfresh, hkept, s.answer_of_absent _ hstored,
        s.step_fetch_of_absent hstored]
      exact ⟨rfl, hmirrors⟩
    | some p =>
      rw [hstored] at hresult
      obtain ⟨htree, htoken⟩ := hresult
      have hserved := s.served_of_stale p fun q hq => hanswer q p hq hstored
      rw [s.answer_of_stored _ hstored, hserved]
      cases result with
      | error e =>
        rw [Engine.fetch_of_error hcurrent hfresh, hkept, s.step_fetch_of_unread hstored]
        · exact ⟨htree, hmirrors⟩
        · rw [hserved, TemplateMaker.reads, ← htree]
          rfl
      | ok page =>
        rw [Engine.fetch_of_page hcurrent hfresh, s.step_fetch_of_reads hstored]
        · refine ⟨htree, ?_⟩
          -- the new tree is cached under the token of the stored page
          have hput := hmirrors.put (p := p) (t := page.tree) htree.symm
          rw [hcache, ← htoken page rfl] at hput
          rw [hserved]
          exact hput
        · rw [hserved, TemplateMaker.reads, ← htree]
          rfl

/-! ### Other steps -/

theorem library (h : Mirrors f r w s) : w.library = s.library := by
  rw [World.library, h.source]

theorem compileContent (h : Mirrors f r w s) (hr : r.Distinct) (config : PageConfig) (gate : Gate)
    (content : String) : Mirrors f r ((Engine.caching config f gate).compileContent content w).2 s := by
  obtain ⟨journal, memos, nextStamp, hmemos, hcompile⟩ :=
    f.compileMarkup_eq hr ⟨none, PageConfig.coreNamespace⟩ (config.prepare content) h.registry h.memos
  rw [Engine.compileContent_eq, Engine.caching, hcompile]
  exact h.elsewhere hmemos journal nextStamp

theorem step (h : Mirrors f r w s) (hr : r.Distinct) (config : PageConfig) (gate : Gate) (step : PageStep) :
    Mirrors f r ((Engine.caching config f gate).pageStep w step) (s.step (f.reads r) step) := by
  cases step with
  | store uri content =>
    refine ⟨h.registry, h.memos, ?_, h.verdict, h.cache⟩
    show PageSource.library (w.library.add uri content) = _
    rw [h.library]
    rfl
  | drop uri =>
    refine ⟨h.registry, h.memos, ?_, h.verdict, h.cache⟩
    show PageSource.library (w.library.remove uri) = _
    rw [h.library]
    rfl
  | fetch uri => exact (h.fetch hr config gate uri).2
  | compile content => exact h.compileContent hr config gate content
  | forget uri =>
    refine ⟨h.registry, h.memos, h.source, h.verdict, fun v => ?_⟩
    dsimp only [Engine.pageStep, Shelf.step, PageCache.get?, PageCache.remove]
    rw [NameMap.find?_erase]
    by_cases hv : v = uri
    · rw [if_pos hv, if_pos (congrArg PageUri.text hv).symm]
      exact trivial
    · rw [if_neg hv, if_neg fun htext => hv (congrArg PageUri.mk htext).symm]
      exact h.cache v
  | forgetAll => exact ⟨h.registry, h.memos, h.source, h.verdict, fun _ => trivial⟩

end Mirrors

theorem World.opened_eq (definitions : List Definition) :
    World.opened definitions =
      { World.initial (.library .empty) with registry := definitions.foldl Registry.register .empty } := by
  -- registering changes nothing but the registry
  have hfold : ∀ w : World, definitions.foldl World.register w =
      { w with registry := definitions.foldl Registry.register w.registry } := by
    induction definitions with
    | nil => exact fun _ => rfl
    | cons d rest ih => exact fun w => ih (w.register d)
  exact hfold _

theorem Registry.distinct_foldl_register (definitions : List Definition) {r : Registry} (h : r.Distinct) :
    (definitions.foldl Registry.register r).Distinct := by
  induction definitions generalizing r with
  | nil => exact h
  | cons d rest ih => exact ih (h.register d)

/-- The world is as the account says after every history. -/
theorem mirrors_after (definitions : List Definition) (config : PageConfig) (f : TemplateMaker) (gate : Gate)
    (history : List PageStep) :
    Mirrors f (definitions.foldl Registry.register .empty)
      ((Engine.caching config f gate).after (.opened definitions) history)
      (Shelf.after (f.reads (definitions.foldl Registry.register .empty)) history) := by
  have hdistinct := Registry.distinct_foldl_register definitions Registry.distinct_empty
  -- the world and its account go on step by step
  have hrun : ∀ {w s}, Mirrors f (definitions.foldl Registry.register .empty) w s →
      Mirrors f (definitions.foldl Registry.register .empty)
        (history.foldl (Engine.caching config f gate).pageStep w)
        (history.foldl (Shelf.step (f.reads (definitions.foldl Registry.register .empty))) s) := by
    induction history with
    | nil => exact id
    | cons step rest ih => exact fun h => ih (h.step hdistinct config gate step)
  refine hrun ?_
  rw [World.opened_eq]
  exact ⟨rfl, Memos.sound_empty _, rfl, rfl, fun _ => trivial⟩

/-! ## §5 When a tree is out of date -/

namespace Shelf

variable {reads : PageUri → String → Bool} {uri : PageUri}

theorem stored?_store (s : Shelf) {p : StoredPage} (h : s.stored? uri = some p) (v : PageUri) (content : String) :
    (s.step reads (.store v content)).stored? uri = if v = uri then some ⟨content, p.version + 1⟩ else some p := by
  dsimp only [step, stored?, PageLibrary.add]
  rw [NameMap.find?_insert]
  by_cases hv : v = uri
  · subst hv
    rw [if_pos rfl, if_pos rfl, show s.library.pages.find? v.text = some p from h]
  · rw [if_neg hv, if_neg fun htext => hv (congrArg PageUri.mk htext)]
    exact h

theorem stored?_drop (s : Shelf) {v : PageUri} (hv : v ≠ uri) :
    (s.step reads (.drop v)).stored? uri = s.stored? uri := by
  dsimp only [step, stored?, PageLibrary.remove]
  rw [NameMap.find?_erase, if_neg fun htext => hv (congrArg PageUri.mk htext)]

theorem library_step_fetch (s : Shelf) (v : PageUri) : (s.step reads (.fetch v)).library = s.library := by
  unfold step
  dsimp only
  split
  · rfl
  · split <;> rfl

/-- What a cached tree stems from after a page was asked for: what it stemmed from, or the page that is served. -/
theorem origin_step_fetch {s : Shelf} {v : PageUri} {q : StoredPage}
    (h : (s.step reads (.fetch v)).origin uri = some q) :
    s.origin uri = some q ∨ ∃ p, s.stored? uri = some p ∧ q = s.served uri p := by
  unfold step at h
  dsimp only at h
  split at h
  · exact .inl h
  · rename_i p hp
    split at h
    · dsimp only at h
      split at h
      · rename_i hv
        subst hv
        exact .inr ⟨p, hp, (Option.some.inj h).symm⟩
      · exact .inl h
    · exact .inl h

/-- The page that is served has the tree of the stored one, unless its version was given to other content before. -/
theorem served_iff {α : Type} (s : Shelf) (treeOf : String → α) (uri : PageUri) (p : StoredPage) :
    treeOf (s.served uri p).content = treeOf p.content ↔ ¬ s.Reissued treeOf uri p := by
  by_cases horigin : ∃ q, s.origin uri = some q ∧ q.version = p.version
  · obtain ⟨q, hq, hversion⟩ := horigin
    rw [served_of_version s p hq hversion]
    constructor
    · rintro heq ⟨q', hq', _, hne⟩
      rw [hq] at hq'
      cases hq'
      exact hne heq
    · intro hnot
      by_contra hne
      exact hnot ⟨q, hq, hversion, hne⟩
  · rw [served_of_stale s p fun q hq hversion => horigin ⟨q, hq, hversion⟩]
    exact iff_of_true rfl fun ⟨q, hq, hversion, _⟩ => horigin ⟨q, hq, hversion⟩

/-- As long as a page is not dropped, a cached tree that stems from the version that is stored stems from the very
content that is stored. -/
theorem origin_of_not_dropped {history : List PageStep} (h : .drop uri ∉ history) :
    ∀ q, (after reads history).origin uri = some q →
      ∃ p, (after reads history).stored? uri = some p ∧ (q = p ∨ q.version < p.version) := by
  induction history using List.reverseRecOn with
  | nil => exact nofun
  | append_singleton before last ih =>
    have hbefore := ih fun hmem => h (List.mem_append_left _ hmem)
    have hafter : after reads (before ++ [last]) = (after reads before).step reads last := by
      rw [after, List.foldl_append]
      rfl
    rw [hafter]
    intro q hq
    cases last with
    | store v content =>
      -- the version of the stored page can only go up
      obtain ⟨p, hp, hqp⟩ := hbefore q hq
      rw [stored?_store _ hp]
      split
      · refine ⟨_, rfl, .inr ?_⟩
        rcases hqp with rfl | hlt
        · exact Nat.lt_succ_self _
        · exact Nat.lt_succ_of_lt hlt
      · exact ⟨p, rfl, hqp⟩
    | drop v =>
      -- it is another page that is dropped
      have hv : v ≠ uri := fun heq => h (by simp [heq])
      obtain ⟨p, hp, hqp⟩ := hbefore q hq
      exact ⟨p, (stored?_drop _ hv).trans hp, hqp⟩
    | fetch v =>
      have hkept : ((after reads before).step reads (.fetch v)).stored? uri = (after reads before).stored? uri := by
        rw [stored?, library_step_fetch, stored?]
      rw [hkept]
      rcases origin_step_fetch hq with hq | ⟨p, hp, rfl⟩
      · exact hbefore q hq
      · refine ⟨p, hp, .inl ?_⟩
        -- an older page of the same version would be the stored one
        by_cases horigin : ∃ q, (after reads before).origin uri = some q ∧ q.version = p.version
        · obtain ⟨q, hq, hversion⟩ := horigin
          rw [served_of_version _ p hq hversion]
          obtain ⟨p', hp', hqp⟩ := hbefore q hq
          rw [hp] at hp'
          cases hp'
          rcases hqp with rfl | hlt
          · rfl
          · omega
        · exact served_of_stale _ p fun q hq hversion => horigin ⟨q, hq, hversion⟩
    | compile content => exact hbefore q hq
    | forget v =>
      dsimp only [step] at hq
      split at hq
      · cases hq
      · exact hbefore q hq
    | forgetAll => cases hq

theorem not_reissued {α : Type} {history : List PageStep} (h : .drop uri ∉ history) (treeOf : String → α)
    {p : StoredPage} (hp : (after reads history).stored? uri = some p) :
    ¬ (after reads history).Reissued treeOf uri p := by
  rintro ⟨q, hq, hversion, hne⟩
  obtain ⟨p', hp', hqp⟩ := origin_of_not_dropped h q hq
  rw [hp] at hp'
  cases hp'
  rcases hqp with rfl | hlt
  · exact hne rfl
  · omega

end Shelf

/-- The tree that compiling the content of a page gives, or why there is none. -/
def World.treeOf (w : World) (f : TemplateMaker) (uri : PageUri) (content : String) : Except Error Tree :=
  (f.compileMarkup ⟨some uri, PageConfig.coreNamespace⟩ content w).1.map (·.tree)

theorem Mirrors.treeOf {f : TemplateMaker} {r : Registry} {w : World} {s : Shelf} (h : Mirrors f r w s)
    (hr : r.Distinct) : w.treeOf f = f.pageTree r := by
  funext uri content
  obtain ⟨journal, memos, nextStamp, _, hcompile⟩ :=
    f.compileMarkup_eq hr ⟨some uri, PageConfig.coreNamespace⟩ content h.registry h.memos
  rw [World.treeOf, hcompile, TemplateMaker.pageTree]
  cases f.treeOf r ⟨some uri, PageConfig.coreNamespace⟩ content <;> rfl

/-- **Which trees are out of date**: a page that is not stored is not served. For one that is, the tree of its content
is served, or the reason why it has none, unless the cached tree stems from other content that had the same version;
and that cannot be as long as the page has never been dropped. -/
theorem fetch_after_history (definitions : List Definition) (config : PageConfig) (f : TemplateMaker) (gate : Gate)
    (history : List PageStep) (uri : PageUri) :
    let e := Engine.caching config f gate
    let w := e.after (.opened definitions) history
    let s := Shelf.after (f.reads w.registry) history
    match w.library.pages.find? uri.text with
    | none => (e.fetch uri w).1.map (·.tree) = .error (.resourceUnreachable uri.text (some (.notFound uri.text)))
    | some p =>
      ((e.fetch uri w).1.map (·.tree) = w.treeOf f uri p.content ↔ ¬ s.Reissued (w.treeOf f uri) uri p) ∧
        (.drop uri ∉ history → (e.fetch uri w).1.map (·.tree) = w.treeOf f uri p.content) := by
  intro e w s
  have hr := Registry.distinct_foldl_register definitions Registry.distinct_empty
  have h := mirrors_after definitions config f gate history
  have hregistry : w.registry = definitions.foldl Registry.register .empty := h.registry
  have hs : Shelf.after (f.reads (definitions.foldl Registry.register .empty)) history = s := by
    rw [← hregistry]
  rw [hs] at h
  obtain ⟨hfetch, _⟩ := h.fetch hr config gate uri
  rw [hfetch, h.library, h.treeOf hr]
  cases hstored : s.stored? uri with
  | none =>
    rw [show s.library.pages.find? uri.text = none from hstored]
    exact s.answer_of_absent _ hstored
  | some p =>
    rw [show s.library.pages.find? uri.text = some p from hstored]
    dsimp only
    rw [s.answer_of_stored _ hstored]
    have hiff := s.served_iff (f.pageTree (definitions.foldl Registry.register .empty) uri) uri p
    exact ⟨hiff, fun hdrop => hiff.mpr (Shelf.not_reissued hdrop _ hstored)⟩

/-- A tag without properties. -/
def bareTag (tag : String) : Definition := ⟨0, "", tag, tag, .empty, none, default⟩

/-- A page is stored and asked for, dropped, and stored anew with another content. -/
def restored (uri : PageUri) : List PageStep :=
  [.store uri "<a/>", .fetch uri, .drop uri, .store uri "<b/>"]

/-- A page that was dropped and stored anew is served with the tree that it had before. -/
theorem restored_served_stale :
    let e := Engine.caching .standard ⟨0, Gate.permissive⟩ Gate.permissive
    let w := e.after (.opened [bareTag "a", bareTag "b"]) (restored ⟨"p"⟩)
    w.library.content? ⟨"p"⟩ = some "<b/>" ∧
      (e.fetch ⟨"p"⟩ w).1.map (·.tree) ≠ w.treeOf ⟨0, Gate.permissive⟩ ⟨"p"⟩ "<b/>" := by
  intro e w
  have hserved : ((e.fetch ⟨"p"⟩ w).1.map (·.tree)).toOption.map (·.root.tag) = some "a" := by decide +kernel
  have hstored : (w.treeOf ⟨0, Gate.permissive⟩ ⟨"p"⟩ "<b/>").toOption.map (·.root.tag) = some "b" := by
    decide +kernel
  have hcontent : w.library.content? ⟨"p"⟩ = some "<b/>" := by decide +kernel
  constructor
  · exact hcontent
  · intro heq
    rw [heq, hstored] at hserved
    exact absurd hserved (by decide)

end PageTemplates
