import PageTemplates.Host.World
import PageTemplates.Proofs.Markup.Mirror
import PageTemplates.Proofs.Program.Answers
import PageTemplates.Proofs.Template.Making
import PageTemplates.Security.Policy

/-!
# Denied tags

A maker of templates gives a template only for a tag that its gate lets pass, and the definition that it takes from the
registry is one for that tag (`TemplateMaker.create_eq_ok`). Every template of a tree began with such an answer, at
whatever depth it stands in the tree or inside another template. So a tag that a policy denies is nowhere to be found
(`compileText_avoids_denied`).
-/

namespace PageTemplates

open Program (Answers Event Runs)

/-! ## §1 What a maker of templates gives -/

theorem TemplateMaker.create_eq_ok {f : TemplateMaker} {uri : Option PageUri} {namespaceUri tag : String} {w : World}
    {t : Template} (h : (f.create uri namespaceUri tag w).1 = .ok t) :
    ∃ d, t = .empty d f.memo ∧ d.namespaceUri = namespaceUri ∧ d.tag = tag ∧
      f.gate (.create uri namespaceUri tag) = .ok () := by
  unfold create at h
  split at h
  · cases h
  · rename_i d hfound
    dsimp only at h
    split at h
    · cases h
    · rename_i hgate
      cases h
      -- the registry gives a definition only for what it was asked for
      obtain ⟨hnamespace, htag⟩ := Registry.describes_of_find? hfound
      exact ⟨d, rfl, hnamespace, htag, hgate⟩

/-- The answer to a request of compiling is the maker's, in some world. -/
def TemplateMaker.Gives (f : TemplateMaker) (e : Event CompileRequest.Answer) : Prop :=
  ∃ w, e.answer = (f.answer e.request w).1

/-- What a maker brings about is a run with its answers. -/
theorem TemplateMaker.exists_answers {α : Type} {f : TemplateMaker} {q : Compile α} {w w' : World} {a : α}
    (h : f.run q w = (.ok a, w')) : ∃ events, Answers f.answer w events w' ∧ Runs q events (.ok a) := by
  -- the run that the maker brings about, and the answers in it, end in the same way
  have hruns : Runs q _ _ := Program.runs_trace f.answer q w
  have hanswers := Program.answers_trace f.answer q w
  have hresult : Program.run f.answer q w = (.ok a, w') := h
  rw [Program.trace_fst, hresult] at hruns
  rw [hresult] at hanswers
  exact ⟨_, hanswers, hruns⟩

theorem TemplateMaker.exists_runs {α : Type} {f : TemplateMaker} {q : Compile α} {w w' : World} {a : α}
    (h : f.run q w = (.ok a, w')) : ∃ events, (∀ e ∈ events, f.Gives e) ∧ Runs q events (.ok a) := by
  obtain ⟨events, hanswers, hruns⟩ := exists_answers h
  exact ⟨events, fun e he => hanswers.exists_state he, hruns⟩

theorem TemplateMaker.beginsEmpty (f : TemplateMaker) : Markup.BeginsEmpty f.Gives := by
  rintro uri namespaceUri tag t ⟨w, h⟩
  obtain ⟨d, rfl, _⟩ := create_eq_ok h.symm
  exact ⟨d, f.memo, rfl⟩

/-- A template that was made of the answers of a maker has a tag that the gate lets pass. -/
theorem TemplateMaker.gate_of_made {f : TemplateMaker} {t : Template} (h : t.Made f.Gives) :
    ∃ uri namespaceUri, f.gate (.create uri namespaceUri t.tag) = .ok () := by
  -- the template began as an answer, and setters do not change its definition
  obtain ⟨uri, namespaceUri, tag, memo, w, hcreated⟩ := h.exists_created
  obtain ⟨d, heq, -, rfl, hgate⟩ := create_eq_ok hcreated.symm
  have htag : t.tag = d.tag := congrArg (fun u => u.definition.tag) heq
  exact ⟨uri, namespaceUri, htag ▸ hgate⟩

/-! ## §2 Policies -/

namespace Policy

theorem deniedTags_foldl_denyTag (p : Policy) (tags : List String) :
    (tags.foldl denyTag p).deniedTags = tags.reverse ++ p.deniedTags := by
  induction tags generalizing p with
  | nil => rfl
  | cons tag rest ih =>
    rw [List.foldl_cons, ih, List.reverse_cons, List.append_assoc]
    rfl

theorem notMem_of_gate_create {p : Policy} {uri : Option PageUri} {namespaceUri tag : String}
    (h : p.gate (.create uri namespaceUri tag) = .ok ()) : tag ∉ p.deniedTags := by
  intro hdenied
  have hrefused : p.gate (.create uri namespaceUri tag) = .error _ := if_pos (List.contains_iff_mem.mpr hdenied)
  rw [hrefused] at h
  cases h

end Policy

/-! ## §3 Trees -/

namespace Markup

/-- The templates of a compiled tree are made of the answers that were given. -/
theorem made_of_runs {Known : Event CompileRequest.Answer → Prop} (hempty : BeginsEmpty Known) {s : Setting}
    {root : Element} {tree : Tree} {events : List (Event CompileRequest.Answer)} (hevents : AllKnown Known events)
    (h : Runs (compileDocument s root) events (.ok tree)) :
    ∀ x ∈ tree.root.preorder none, x.2.template.Made Known := by
  rintro ⟨parent, c⟩ hc
  obtain ⟨w, e, hnode⟩ := (mirrors_of_runs h).nodes parent c hc
  -- each node mirrors an element, and its template was compiled of this element in a part of the run
  obtain ⟨part, hpart, helement⟩ := hnode.template
  exact made_compileElement hempty (fun event hmem => hevents event (hpart.subset hmem)) helement

/-- **A denied tag never gets into a template**: when a page has been compiled under a policy, whatever the registry and
the memos hold, no template of the tree has a denied tag, and none inside these at any depth. -/
theorem compileText_avoids_denied {p : Policy} {tags : List String} {memo : Nat} {s : Setting} {text : String}
    {w w' : World} {tree : Tree}
    (h : TemplateMaker.run ⟨memo, (tags.foldl Policy.denyTag p).gate⟩ (compileText s text) w = (.ok tree, w')) :
    ∀ x ∈ tree.root.preorder none, ∀ t, x.2.template.Within t → t.tag ∉ tags ∧ t.tag ∉ p.deniedTags := by
  intro x hx t ht
  obtain ⟨events, hgiven, hruns⟩ := TemplateMaker.exists_runs h
  unfold compileText at hruns
  split at hruns
  · -- wherever the template stands, it was made of answers of the maker
    have hmade := (made_of_runs (TemplateMaker.beginsEmpty _) hgiven hruns x hx).within ht
    obtain ⟨uri, namespaceUri, hgate⟩ := TemplateMaker.gate_of_made hmade
    have hallowed := Policy.notMem_of_gate_create hgate
    rw [Policy.deniedTags_foldl_denyTag, List.mem_append, List.mem_reverse, not_or] at hallowed
    exact hallowed
  · exact absurd hruns runs_fail

/-- A host that knows the tags of a page with a converter in a text field. -/
def converterWorld : World :=
  ["view", "inputText", "convertNumber", "script"].foldl
    (fun w tag =>
      w.register ⟨0, "", tag, tag, .ofList [("converter", .complex "converter" "Converter")], none, default⟩)
    (.initial (.library .empty))

def converterPage : String :=
  "<view><inputText><this.converter><convertNumber/></this.converter></inputText></view>"

theorem converterPage_avoids_denied :
    ∃ tree w', TemplateMaker.run ⟨0, (["script"].foldl Policy.denyTag .allowAll).gate⟩
        (compileText looseKeys converterPage) converterWorld = (.ok tree, w') ∧ tree.size = 2 ∧
      ∀ x ∈ tree.root.preorder none, ∀ t, x.2.template.Within t → t.tag ∉ ["script"] ∧ t.tag ∉ [] := by
  have hsize : (TemplateMaker.run ⟨0, (["script"].foldl Policy.denyTag .allowAll).gate⟩
      (compileText looseKeys converterPage) converterWorld).1.toOption.map Tree.size = some 2 := by decide +kernel
  -- the size of the tree tells that there is one
  cases hresult : TemplateMaker.run ⟨0, (["script"].foldl Policy.denyTag .allowAll).gate⟩
      (compileText looseKeys converterPage) converterWorld with
  | mk result w' =>
    rw [hresult] at hsize
    cases result with
    | error err => cases hsize
    | ok tree => exact ⟨tree, w', rfl, Option.some.inj hsize, compileText_avoids_denied hresult⟩

end Markup

end PageTemplates
