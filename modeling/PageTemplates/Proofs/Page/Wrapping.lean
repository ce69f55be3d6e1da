import PageTemplates.Proofs.Page.Staleness

/-!
# When content is wrapped

Loose content is put into a root element, unless it opens one itself. Content that has been wrapped opens it, so that it
is not wrapped again, and is compiled to what it would have been compiled to before (`wrapped_once`).

Whether content opens the root element is found out by a search that goes on behind each occurrence of a mark that it
comes upon. It passes over the occurrences that begin inside another one, and there are none if the first character of
the mark does not come back in it (`Text.anyAfter_iff`). So the name of a longer tag in front hides nothing behind it.

## Structure

- §1 says what the search finds.
- §2 applies it to the root element.
-/

namespace PageTemplates

/-! ## §1 Searching -/

namespace Text

/-- There is an occurrence of a mark at some place or behind it, and what follows it is good. -/
def OccursFrom (mark : List Char) (good : List Char → Bool) (place : Nat) (text : List Char) : Prop :=
  ∃ before after, place ≤ before.length ∧ text = before ++ mark ++ after ∧ good after = true

section Occurrences

variable {mark more rest text : List Char} {good : List Char → Bool} {place : Nat} {c first : Char}

theorem not_occursFrom_nil (hmark : mark ≠ []) : ¬ OccursFrom mark good place [] := by
  rintro ⟨before, after, -, htext, -⟩
  simp [hmark] at htext

theorem occursFrom_succ : OccursFrom mark good (place + 1) (c :: text) ↔ OccursFrom mark good place text := by
  constructor
  · rintro ⟨before, after, hplace, htext, hgood⟩
    cases before with
    | nil => cases hplace
    | cons d before =>
      obtain ⟨-, htext⟩ := List.cons.inj htext
      exact ⟨before, after, Nat.le_of_succ_le_succ hplace, htext, hgood⟩
  · rintro ⟨before, after, hplace, rfl, hgood⟩
    exact ⟨c :: before, after, Nat.succ_le_succ hplace, rfl, hgood⟩

/-- An occurrence begins with the first character or later. -/
theorem occursFrom_zero : OccursFrom mark good 0 (c :: text) ↔
    (∃ after, c :: text = mark ++ after ∧ good after = true) ∨ OccursFrom mark good 0 text := by
  constructor
  · rintro ⟨before, after, -, htext, hgood⟩
    cases before with
    | nil => exact .inl ⟨after, htext, hgood⟩
    | cons d before =>
      obtain ⟨-, htext⟩ := List.cons.inj htext
      exact .inr ⟨before, after, Nat.zero_le _, htext, hgood⟩
  · rintro (⟨after, htext, hgood⟩ | ⟨before, after, -, rfl, hgood⟩)
    · exact ⟨[], after, Nat.zero_le _, htext, hgood⟩
    · exact ⟨c :: before, after, Nat.zero_le _, rfl, hgood⟩

/-- No occurrence begins inside another one, because the first character would come back there. -/
theorem occursFrom_skip (hfirst : first ∉ more) :
    OccursFrom (first :: more) good more.length (more ++ rest) ↔ OccursFrom (first :: more) good 0 (more ++ rest) := by
  constructor
  · rintro ⟨before, after, -, htext, hgood⟩
    exact ⟨before, after, Nat.zero_le _, htext, hgood⟩
  · rintro ⟨before, after, -, htext, hgood⟩
    refine ⟨before, after, ?_, htext, hgood⟩
    rw [List.append_assoc] at htext
    -- the occurrence begins behind the rest of the mark, or within it
    rcases List.append_eq_append_iff.mp htext with ⟨gap, rfl, -⟩ | ⟨inside, rfl, hinside⟩
    · simp
    · cases inside with
      | nil => simp
      | cons d inside =>
        obtain ⟨rfl, -⟩ := List.cons.inj hinside
        exact absurd (List.mem_append_right _ List.mem_cons_self) hfirst

/-- The search comes upon every occurrence of a mark whose first character does not come back in it. -/
theorem anyAfter_iff (hfirst : first ∉ more) :
    anyAfter (first :: more) good place text = true ↔ OccursFrom (first :: more) good place text := by
  -- by induction on the text, from any place on
  induction text generalizing place with
  | nil => simp [anyAfter, not_occursFrom_nil]
  | cons c text ih =>
    cases place with
    | succ place => rw [anyAfter, ih, occursFrom_succ]
    | zero =>
      rw [anyAfter, occursFrom_zero]
      cases hmatch : after? (first :: more) (c :: text) with
      | none =>
        have hnone : ¬ ∃ after, c :: text = first :: more ++ after ∧ good after = true := by
          rintro ⟨after, htext, -⟩
          rw [after?_eq_some_iff.mpr htext] at hmatch
          cases hmatch
        simp only [ih, hnone, false_or]
      | some rest =>
        rw [after?_eq_some_iff] at hmatch
        obtain ⟨rfl, rfl⟩ := List.cons.inj hmatch
        -- the search goes on behind the occurrence, which makes no difference
        have hbehind : anyAfter (c :: more) good more.length (more ++ rest) = true ↔
            OccursFrom (c :: more) good 0 (more ++ rest) := ih.trans (occursFrom_skip hfirst)
        have hhere : (∃ after, c :: (more ++ rest) = c :: more ++ after ∧ good after = true) ↔ good rest = true := by
          simp
        simp only [Bool.or_eq_true, List.length_cons, Nat.add_sub_cancel]
        exact or_congr hhere.symm hbehind

end Occurrences

end Text

/-! ## §2 The root element -/

namespace PageConfig

/-- The name of a tag is at an end: nothing follows, or a blank, or the end of the tag. -/
inductive EndsName : List Char → Prop where
  | nothing : EndsName []
  | blank {c : Char} (rest : List Char) (h : Text.isBlank c = true) : EndsName (c :: rest)
  | tag (rest : List Char) : EndsName ('>' :: rest)
  | closedTag (rest : List Char) : EndsName ('/' :: rest)

theorem endsName_iff {cs : List Char} : endsName cs = true ↔ EndsName cs := by
  constructor
  · intro h
    cases cs with
    | nil => exact .nothing
    | cons c rest =>
      simp only [endsName, Bool.or_eq_true, beq_iff_eq] at h
      rcases h with (hblank | rfl) | rfl
      · exact .blank rest hblank
      · exact .tag rest
      · exact .closedTag rest
  · intro h
    cases h with
    | nothing => rfl
    | blank rest hblank => simp [endsName, hblank]
    | tag rest => simp [endsName]
    | closedTag rest => simp [endsName]

/-- The opening tag of the root element stands somewhere in a text. -/
def Opens (config : PageConfig) (content : String) : Prop :=
  ∃ before after, content.toList = before ++ '<' :: config.rootTag.toList ++ after ∧ EndsName after

theorem opensRoot_iff {config : PageConfig} (h : '<' ∉ config.rootTag.toList) (content : String) :
    config.opensRoot content = true ↔ config.Opens content := by
  rw [opensRoot, Text.anyAfter_iff h]
  simp [Text.OccursFrom, Opens, endsName_iff]

/-- What wrapping puts in front of the content begins with the name of the root element, and this ends there. -/
theorem exists_toList_wrap (config : PageConfig) (content : String) :
    ∃ after, (config.wrap content).toList = '<' :: config.rootTag.toList ++ after ∧ EndsName after := by
  have hwrap : (config.wrap content).toList = '<' :: config.rootTag.toList ++
      ((String.join (config.namespaces.map declaration)).toList ++
        (">" ++ content ++ "</" ++ config.rootTag ++ ">").toList) := by
    simp [wrap]
  refine ⟨_, hwrap, ?_⟩
  -- the tag ends at once, or the first declaration begins with a blank
  cases config.namespaces with
  | nil => simpa using EndsName.tag _
  | cons entry rest => simpa [declaration] using EndsName.blank _ (by decide)

/-- The first occurrence that the search comes upon in wrapped content is that at the beginning. -/
theorem opensRoot_wrap (config : PageConfig) (content : String) : config.opensRoot (config.wrap content) = true := by
  obtain ⟨after, htext, hends⟩ := config.exists_toList_wrap content
  -- the mark is found at the very beginning
  have hmatch : Text.after? ('<' :: config.rootTag.toList) ('<' :: config.rootTag.toList ++ after) = some after :=
    Text.after?_eq_some_iff.mpr rfl
  rw [opensRoot, htext]
  rw [List.cons_append] at hmatch ⊢
  rw [Text.anyAfter, hmatch]
  simp [endsName_iff.mpr hends]

theorem prepare_wrap (config : PageConfig) (content : String) :
    config.prepare (config.wrap content) = config.wrap content := if_pos (config.opensRoot_wrap content)

theorem prepare_of_not_opensRoot {config : PageConfig} {content : String} (h : config.opensRoot content = false) :
    config.prepare content = config.wrap content := if_neg (Bool.eq_false_iff.mp h)

end PageConfig

/-- **Content is wrapped once.** Content that has been wrapped opens the root element. So content that has to be wrapped
is compiled as if it had been wrapped before: the requests are the same, whatever answers them, and an engine gives the
same tree or the same error, even if it has compiled other things in between. If there is no tag in the name of the root
element, content opens the root element exactly if the opening tag stands somewhere in it. -/
theorem wrapped_once (config : PageConfig) :
    (∀ content, config.opensRoot (config.wrap content) = true) ∧
      (∀ content, config.opensRoot content = false →
        (∀ i : Interpreter, i.config = config →
          i.compileContent content = i.compileContent (config.wrap content)) ∧
        ∀ (e : Engine) (w later : World), e.interpreter.config = config → w.registry.Distinct →
          later.registry = w.registry → w.memos.Sound w.registry → later.memos.Sound w.registry →
            (e.compileContent content w).1.map (·.tree) =
              (e.compileContent (config.wrap content) later).1.map (·.tree)) ∧
      ('<' ∉ config.rootTag.toList → ∀ content, config.opensRoot content = true ↔ config.Opens content) := by
  refine ⟨config.opensRoot_wrap, fun content h => ?_, PageConfig.opensRoot_iff⟩
  -- to wrap the content once more changes nothing
  have hsame : config.prepare (config.wrap content) = config.prepare content := by
    rw [config.prepare_wrap, PageConfig.prepare_of_not_opensRoot h]
  constructor
  · rintro i rfl
    rw [Interpreter.compileContent, Interpreter.compileContent, hsame]
  · rintro e w later rfl hr hlater hmemos hmemosLater
    -- the tree of a text does not depend on what has been compiled
    obtain ⟨_, _, _, -, hnow⟩ := e.factory.compileMarkup_eq hr ⟨none, PageConfig.coreNamespace⟩
      (e.interpreter.config.prepare content) rfl hmemos
    obtain ⟨_, _, _, -, hthen⟩ := e.factory.compileMarkup_eq hr ⟨none, PageConfig.coreNamespace⟩
      (e.interpreter.config.prepare content) hlater hmemosLater
    rw [Engine.compileContent_eq, Engine.compileContent_eq, hsame, hnow, hthen]
    cases e.factory.treeOf w.registry ⟨none, PageConfig.coreNamespace⟩ (e.interpreter.config.prepare content) <;> rfl

/-- The element `a` is wrapped in the element `view`, with and without something compiled before. A longer name in front
of it does not hide the root element. -/
theorem fragment_wrapped_once :
    let config : PageConfig := ⟨"view", []⟩
    let e := Engine.caching config ⟨0, Gate.permissive⟩ Gate.permissive
    let w := World.opened [bareTag "view", bareTag "a"]
    let later := e.after w [.compile "<view/>"]
    (config.opensRoot "<a/>" = false ∧
        (e.compileContent "<a/>" w).1.map (·.tree) =
          (e.compileContent (config.wrap "<a/>") later).1.map (·.tree)) ∧
      '<' ∉ config.rootTag.toList ∧ config.opensRoot "<viewer/><view/>" = true := by
  intro config e w later
  obtain ⟨-, hwrapped, hopens⟩ := wrapped_once config
  have hcontent : config.opensRoot "<a/>" = false := by decide
  have htag : '<' ∉ config.rootTag.toList := by decide
  have hnow := mirrors_after [bareTag "view", bareTag "a"] config ⟨0, Gate.permissive⟩ Gate.permissive []
  have hthen := mirrors_after [bareTag "view", bareTag "a"] config ⟨0, Gate.permissive⟩ Gate.permissive
    [.compile "<view/>"]
  have hregistry : w.registry = [bareTag "view", bareTag "a"].foldl Registry.register .empty := hnow.registry
  have hdistinct : w.registry.Distinct := by
    rw [hregistry]
    exact Registry.distinct_foldl_register _ Registry.distinct_empty
  refine ⟨⟨hcontent, (hwrapped _ hcontent).2 e w later rfl hdistinct ?_ ?_ ?_⟩, htag, ?_⟩
  · rw [hregistry]
    exact hthen.registry
  · rw [hregistry]
    exact hnow.memos
  · rw [hregistry]
    exact hthen.memos
  · exact (hopens htag _).mpr ⟨"<viewer/>".toList, "/>".toList, by decide, .closedTag _⟩

/-- Where there is a tag in the name of the root element, the search passes over an opening tag that begins inside a
longer name. -/
example : PageConfig.opensRoot ⟨"a<a", []⟩ "<a<a<a>" = false := by decide

end PageTemplates
