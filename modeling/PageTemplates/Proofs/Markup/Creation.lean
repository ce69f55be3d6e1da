import PageTemplates.Proofs.Markup.Roles
import PageTemplates.Proofs.Program.Runs
import Mathlib.Data.List.Flatten

/-!
# Which elements templates are made for

Compiling a document asks for a template for each control and each object, once, and for nothing else. The walks
that compile an element share its content among themselves: property elements are compiled with the element, and the
rest is attached to its control (`placesIn_perm`). What each walk asks for is then the part that falls to it
(`Covers`), and the parts make up the document.

The facets of an object fall to no walk. A document can be compiled all the same, so an element with a place in the
language may be left out without an error; `compileText_creations_iff` says that there is no other case.
-/

namespace PageTemplates.Markup

open Program (Event Runs)

variable {s : Setting}

/-! ## §1 Requests for templates -/

/-- The request is for a template. -/
def isCreation : CompileRequest → Bool
  | .create .. => true
  | .select .. => false

/-- The templates that are asked for in a run. -/
def creations (events : List (Event CompileRequest.Answer)) : List CompileRequest :=
  (events.map Event.request).filter isCreation

/-- The request for the template of an element. -/
def Element.request (s : Setting) (e : Element) : CompileRequest :=
  .create s.uri (e.name.namespaceUri.getD "") e.name.localName

/-- The requests for the templates of the elements that have one. -/
def requestsFor (s : Setting) (ps : List (Role × Element)) : List CompileRequest :=
  (ps.filter fun x => x.1.isMade).map fun x => x.2.request s

/-- A template that is asked for is given. -/
def Granted : Event CompileRequest.Answer → Prop
  | ⟨.create .., answer⟩ => ∃ t, answer = Except.ok t
  | ⟨.select .., _⟩ => True

/-- The templates that were asked for are those of the controls and objects at some places, and nothing is
misplaced. -/
structure Covers (s : Setting) (events : List (Event CompileRequest.Answer)) (ps : List (Role × Element)) : Prop where
  /-- Each control and each object is asked for once. -/
  asked : (creations events).Perm (requestsFor s ps)
  /-- Whatever was asked for was granted. -/
  granted : ∀ event ∈ events, Granted event
  /-- Every element has a place. -/
  placed : ∀ x ∈ ps, x.1 ≠ .misplaced

namespace Covers

variable {first second : List (Event CompileRequest.Answer)} {ps qs : List (Role × Element)}

theorem of_silent (hfirst : creations first = []) (h : ∀ x ∈ ps, x.1.isMade = false ∧ x.1 ≠ .misplaced) :
    Covers s first ps := by
  constructor
  · -- neither side has anything in it
    have hnone : ps.filter (fun x => x.1.isMade) = [] := by
      refine List.filter_eq_nil_iff.mpr fun x hx => ?_
      rw [(h x hx).1]
      exact Bool.false_ne_true
    rw [hfirst, requestsFor, hnone]
    rfl
  · rintro ⟨r, answer⟩ hevent
    cases r with
    | create uri namespaceUri tag =>
      -- such a request would be among the creations, of which there are none
      have hmem : CompileRequest.create uri namespaceUri tag ∈ creations first :=
        List.mem_filter.mpr ⟨List.mem_map.mpr ⟨_, hevent, rfl⟩, rfl⟩
      rw [hfirst] at hmem
      cases hmem
    | select memo d property => exact trivial
  · exact fun x hx => (h x hx).2

theorem append (h₁ : Covers s first ps) (h₂ : Covers s second qs) : Covers s (first ++ second) (ps ++ qs) := by
  constructor
  · rw [creations, requestsFor, List.map_append, List.filter_append, List.filter_append, List.map_append]
    exact h₁.asked.append h₂.asked
  · intro event hevent
    rcases List.mem_append.mp hevent with hevent | hevent
    · exact h₁.granted event hevent
    · exact h₂.granted event hevent
  · intro x hx
    rcases List.mem_append.mp hx with hx | hx
    · exact h₁.placed x hx
    · exact h₂.placed x hx

theorem perm (h : Covers s first ps) (hperm : ps.Perm qs) : Covers s first qs := by
  constructor
  · exact h.asked.trans ((hperm.filter _).map _)
  · exact h.granted
  · intro x hx
    exact h.placed x (hperm.mem_iff.mpr hx)

end Covers

/-! ## §2 Compiling properties asks for no templates -/

/-- No run asks for a template. -/
def Silent {α : Type} (p : Compile α) : Prop := ∀ events r, Runs p events r → creations events = []

theorem silent_pure {α : Type} (a : α) : Silent (pure a : Compile α) := by
  intro events r h
  rw [(Program.runs_pure_except.mp h).1]
  rfl

theorem silent_ofExcept {α : Type} (r : Except Error α) : Silent (Compile.ofExcept r) := by
  intro events result h
  rw [(Program.runs_done.mp h).1]
  rfl

theorem silent_select (memo : Nat) (d : Definition) (property : String) :
    Silent (Compile.select memo d property) := by
  intro events r h
  obtain ⟨answer, rest, rfl, hrest⟩ := Program.runs_ask.mp h
  rw [(Program.runs_done.mp hrest).1]
  rfl

theorem Silent.bind {α β : Type} {p : Compile α} {f : α → Compile β} (hp : Silent p) (hf : ∀ a, Silent (f a)) :
    Silent (p >>= f) := by
  intro events r h
  rcases Program.runs_bind_except.mp h with ⟨e, rfl, hfail⟩ | ⟨a, first, second, rfl, hfirst, hsecond⟩
  · exact hp _ _ hfail
  · rw [creations, List.map_append, List.filter_append]
    exact List.append_eq_nil_iff.mpr ⟨hp _ _ hfirst, hf a _ _ hsecond⟩

theorem silent_compileTextSetter (t : Template) (name text : String) : Silent (t.compileTextSetter name text) := by
  unfold Template.compileTextSetter
  split
  · exact silent_ofExcept _
  · exact Silent.bind (silent_select _ _ _) fun _ => silent_ofExcept _

theorem silent_addText (t : Template) (name text : String) : Silent (t.addText name text) :=
  Silent.bind (silent_compileTextSetter t name text) fun _ => silent_pure _

theorem silent_addObjects (t : Template) (name : String) (objects : List Template) :
    Silent (t.add name (.objects objects)) := by
  refine Silent.bind ?_ fun _ => silent_pure _
  unfold Template.compileSetter
  dsimp only
  split
  · exact silent_ofExcept _
  · exact Silent.bind (silent_select _ _ _) fun _ => silent_ofExcept _

theorem silent_compileAttributes (t : Template) (attributes : List Attribute) :
    Silent (compileAttributes t attributes) := by
  induction attributes generalizing t with
  | nil => exact silent_pure t
  | cons a rest ih =>
    rw [compileAttributes]
    split
    · exact ih t
    · exact Silent.bind (silent_addText _ _ _) ih

/-! ## §3 How the content of an element is shared -/

/-- The element gives a property to the element around it. -/
def Element.givesProperty (e : Element) : Bool := (propertyOf? e.name).any (· != facetsName)

/-- The places that are compiled with the element around them. -/
def ownPlaces (content : List (Piece Element)) : List (Role × Element) :=
  ((elementsOf content).filter Element.givesProperty).flatMap (Element.places .property)

/-- The places that are attached to the element around them, which has some role. -/
def attachedPlaces (r : Role) (content : List (Piece Element)) : List (Role × Element) :=
  ((elementsOf content).filter fun e => !e.givesProperty).flatMap fun e => e.places (r.child e.name)

theorem child_of_givesProperty {r : Role} (hr : r.isMade) {e : Element} (h : e.givesProperty) :
    r.child e.name = .property := by
  obtain ⟨given, hgiven, hne⟩ := (Option.any_eq_true _ _).mp h
  -- what is given is no facets, which are the only property elements with a role of their own
  have hne : given ≠ facetsName := bne_iff_ne.mp hne
  cases r <;> simp_all [Role.isMade, Role.child]

/-- The content of a control or an object falls into two parts. -/
theorem placesIn_perm {r : Role} (hr : r.isMade) (content : List (Piece Element)) :
    (ownPlaces content ++ attachedPlaces r content).Perm (placesIn r content) := by
  -- property elements have the same role in controls and in objects
  have hown : ownPlaces content =
      ((elementsOf content).filter Element.givesProperty).flatMap fun e => e.places (r.child e.name) := by
    refine List.flatMap_congr fun e he => ?_
    rw [child_of_givesProperty hr (List.mem_filter.mp he).2]
  rw [hown, attachedPlaces, ← List.flatMap_append, placesIn_eq_flatMap]
  exact (List.filter_append_perm _ _).flatMap_right _

/-- An object without controls in its content: what is not compiled with it is unread. -/
theorem attachedPlaces_object {content : List (Piece Element)} (h : firstControl? content = none) :
    ∀ x ∈ attachedPlaces .object content, x.1 = .unread := by
  -- without a control every element of the content is a property element
  have marked : ∀ e ∈ elementsOf content, (propertyOf? e.name).isSome := by
    intro e he
    induction content with
    | nil => cases he
    | cons piece rest ih =>
      cases piece with
      | element first =>
        rw [firstControl?] at h
        split at h
        · cases h
        · rename_i hfirst
          rcases List.mem_cons.mp he with rfl | he
          · exact Option.isSome_iff_ne_none.mpr fun hnone => hfirst (Option.isNone_iff_eq_none.mpr hnone)
          · exact ih h he
      | text _ => exact ih h he
      | comment _ => exact ih h he
      | instruction _ _ => exact ih h he
  intro x hx
  obtain ⟨e, he, hx⟩ := List.mem_flatMap.mp hx
  obtain ⟨he, hgives⟩ := List.mem_filter.mp he
  obtain ⟨given, hgiven⟩ := Option.isSome_iff_exists.mp (marked e he)
  -- it is one that is not compiled with the object, so it holds facets
  have hfacets : given = facetsName := by simpa [Element.givesProperty, hgiven] using hgives
  rw [show Role.object.child e.name = .unread by simp [Role.child, hgiven, hfacets]] at hx
  exact Element.unread_of_mem_places hx

/-! ## §4 What each walk asks for -/

section Walks

variable {events : List (Event CompileRequest.Answer)}

theorem runs_fail {α : Type} {e : MarkupProblem} {a : α} : ¬ Runs (fail e : Compile α) events (.ok a) := by
  intro h
  obtain ⟨_, h⟩ := Program.runs_done.mp h
  cases h

theorem covers_create {r : Role} (hr : r.isMade) {e : Element} {t : Template}
    (h : Runs (Compile.create s.uri (e.name.namespaceUri.getD "") e.name.localName) events (.ok t)) :
    Covers s events [(r, e)] := by
  obtain ⟨answer, rest, rfl, hrest⟩ := Program.runs_ask.mp h
  obtain ⟨rfl, rfl⟩ := Program.runs_done.mp hrest
  constructor
  · simp [creations, requestsFor, isCreation, hr, Element.request]
  · intro event hevent
    obtain rfl := List.mem_singleton.mp hevent
    exact ⟨t, rfl⟩
  · intro x hx
    obtain rfl := List.mem_singleton.mp hx
    rintro rfl
    cases hr

/-- An element that is allowed among the objects of a property is one, and all that is not compiled with it is
unread. -/
theorem runs_checkObject {property : Name} {e : Element} (h : Runs (checkObject property e) events (.ok ())) :
    events = [] ∧ Role.property.child e.name = .object ∧ firstControl? e.content = none := by
  unfold checkObject at h
  split at h
  · exact absurd h runs_fail
  · rename_i hname
    split at h
    · exact absurd h runs_fail
    · rename_i hnone
      refine ⟨(Program.runs_done.mp h).1, ?_, hnone⟩
      simp only [Option.not_isSome_iff_eq_none] at hname
      simp [Role.child, hname]

theorem covers_property {e : Element} (h : Covers s events (placesIn .property e.content)) :
    Covers s events (e.places .property) := by
  rw [Element.places_eq]
  have hself : Covers s [] [(Role.property, e)] := by
    refine .of_silent rfl fun x hx => ?_
    obtain rfl := List.mem_singleton.mp hx
    exact ⟨rfl, nofun⟩
  exact hself.append h

mutual

theorem compileElement_covers {r : Role} (hr : r.isMade) : ∀ {e : Element} {events t},
    Runs (compileElement s e) events (.ok t) → Covers s events ((r, e) :: ownPlaces e.content)
  | ⟨name, attributes, content, location⟩, events, t, h => by
    -- the element itself, then nothing for its attributes, then its property elements
    rw [compileElement] at h
    obtain ⟨made, first, rest, rfl, hmade, h⟩ := Program.runs_bind_ok h
    obtain ⟨furnished, second, third, rfl, hattributes, h⟩ := Program.runs_bind_ok h
    have hself : Covers s first [(r, ⟨name, attributes, content, location⟩)] := covers_create hr hmade
    have hquiet : Covers s second [] := .of_silent (silent_compileAttributes _ _ _ _ hattributes) nofun
    exact hself.append (hquiet.append (compileProperties_covers h))

theorem compileProperties_covers : ∀ {t : Template} {content : List (Piece Element)} {events t'},
    Runs (compileProperties s t content) events (.ok t') → Covers s events (ownPlaces content)
  | t, [], events, t', h => by
    rw [(Program.runs_done.mp h).1]
    exact .of_silent rfl nofun
  | t, .element ⟨name, attributes, content, location⟩ :: rest, events, t', h => by
    rw [compileProperties] at h
    cases hname : propertyOf? name with
    | none =>
      -- a control is left to the other walk, and so are facets
      have hskip : ownPlaces (.element ⟨name, attributes, content, location⟩ :: rest) = ownPlaces rest := by
        simp [ownPlaces, elementsOf, Element.givesProperty, hname]
      rw [hskip]
      rw [hname] at h
      exact compileProperties_covers h
    | some given =>
      rw [hname] at h
      dsimp only at h
      split at h
      · rename_i hfacets
        have hskip : ownPlaces (.element ⟨name, attributes, content, location⟩ :: rest) = ownPlaces rest := by
          simp [ownPlaces, elementsOf, Element.givesProperty, hname, hfacets]
        rw [hskip]
        exact compileProperties_covers h
      · rename_i hfacets
        -- the property and its objects are compiled here, before what follows
        have htake : ownPlaces (.element ⟨name, attributes, content, location⟩ :: rest) =
            Element.places .property ⟨name, attributes, content, location⟩ ++ ownPlaces rest := by
          simp [ownPlaces, elementsOf, Element.givesProperty, hname, hfacets]
        rw [htake]
        split at h
        · obtain ⟨objects, first, others, rfl, hobjects, h⟩ := Program.runs_bind_ok h
          obtain ⟨furnished, second, third, rfl, hadd, h⟩ := Program.runs_bind_ok h
          have hquiet : Covers s second [] := .of_silent (silent_addObjects _ _ _ _ _ hadd) nofun
          exact (covers_property (compileObjects_covers hobjects)).append
            (hquiet.append (compileProperties_covers h))
        · -- a property element without elements is read as a text
          rename_i htext
          have hnone : placesIn .property content = [] := by
            rw [placesIn_eq_flatMap, elementsOf_eq_nil (Bool.eq_false_iff.mpr htext)]
            rfl
          obtain ⟨furnished, first, second, rfl, hadd, h⟩ := Program.runs_bind_ok h
          have hquiet : Covers s first (placesIn .property content) := by
            rw [hnone]
            exact .of_silent (silent_addText _ _ _ _ _ hadd) nofun
          exact (covers_property hquiet).append (compileProperties_covers h)
  | t, .text _ :: rest, events, t', h | t, .comment _ :: rest, events, t', h
  | t, .instruction .. :: rest, events, t', h => by
    rw [compileProperties] at h
    have hrest := compileProperties_covers h
    exact hrest

theorem compileObjects_covers : ∀ {property : Name} {content : List (Piece Element)} {events ts},
    Runs (compileObjects s property content) events (.ok ts) → Covers s events (placesIn .property content)
  | property, [], events, ts, h => by
    rw [(Program.runs_done.mp h).1]
    exact .of_silent rfl nofun
  | property, .element e :: rest, events, ts, h => by
    rw [compileObjects] at h
    obtain ⟨⟨⟩, first, others, rfl, hcheck, h⟩ := Program.runs_bind_ok h
    obtain ⟨t, second, others, rfl, helement, h⟩ := Program.runs_bind_ok h
    obtain ⟨more, third, last, rfl, hmore, hdone⟩ := Program.runs_bind_ok h
    obtain ⟨rfl, hobject, hcontrols⟩ := runs_checkObject hcheck
    obtain rfl := (Program.runs_pure_except.mp hdone).1
    rw [placesIn, hobject, List.nil_append, List.append_nil]
    -- an object holds no controls, so that all that the other walk would attach is unread
    have hunread : Covers s [] (attachedPlaces .object e.content) := by
      refine .of_silent rfl fun x hx => ?_
      rw [attachedPlaces_object hcontrols x hx]
      exact ⟨rfl, nofun⟩
    have hplaces : ((Role.object, e) :: ownPlaces e.content ++ attachedPlaces .object e.content).Perm
        (e.places .object) := by
      rw [Element.places_eq]
      exact (placesIn_perm rfl e.content).cons _
    have hself := ((compileElement_covers rfl helement).append hunread).perm hplaces
    rw [List.append_nil] at hself
    exact hself.append (compileObjects_covers hmore)
  | property, .text _ :: rest, events, ts, h | property, .comment _ :: rest, events, ts, h
  | property, .instruction .. :: rest, events, ts, h => by
    rw [compileObjects] at h
    have hrest := compileObjects_covers h
    exact hrest

end

theorem runs_facetKey {name : Name} {attributes : List Attribute} {location : Location} {key : String}
    (h : Runs (facetKey s name attributes location) events (.ok key)) : events = [] := by
  unfold facetKey at h
  split at h
  · exact (Program.runs_pure_except.mp h).1
  · exact absurd h runs_fail

/-- The two walks over the content of a control cover it together. -/
theorem covers_control {e : Element} {first second : List (Event CompileRequest.Answer)}
    (hfirst : Covers s first ((Role.control, e) :: ownPlaces e.content))
    (hsecond : Covers s second (attachedPlaces .control e.content)) :
    Covers s (first ++ second) (e.places .control) := by
  refine (hfirst.append hsecond).perm ?_
  rw [Element.places_eq]
  exact (placesIn_perm rfl e.content).cons _

mutual

theorem compileControl_covers : ∀ {index : Nat} {t : Template} {e : Element} {events result},
    Runs (compileControl s index t e) events (.ok result) → Covers s events (attachedPlaces .control e.content)
  | index, t, ⟨name, attributes, content, location⟩, events, result, h => by
    rw [compileControl] at h
    obtain ⟨g, first, second, rfl, hattach, hdone⟩ := Program.runs_bind_ok h
    obtain rfl := (Program.runs_pure_except.mp hdone).1
    rw [List.append_nil]
    exact attach_covers hattach

theorem attach_covers : ∀ {g : Growth} {content : List (Piece Element)} {events g'},
    Runs (attach s g content) events (.ok g') → Covers s events (attachedPlaces .control content)
  | g, [], events, g', h => by
    rw [(Program.runs_done.mp h).1]
    exact .of_silent rfl nofun
  | g, .element e :: rest, events, g', h => by
    rw [attach] at h
    cases hname : propertyOf? e.name with
    | none =>
      -- a child: the walk over its properties and the one over its controls cover it
      have htake : attachedPlaces .control (.element e :: rest) =
          e.places .control ++ attachedPlaces .control rest := by
        simp [attachedPlaces, elementsOf, Element.givesProperty, Role.child, hname]
      rw [htake]
      rw [hname] at h
      obtain ⟨t, first, others, rfl, helement, h₁⟩ := Program.runs_bind_ok h
      obtain ⟨⟨c, next⟩, second, last, rfl, hcontrol, h₂⟩ := Program.runs_bind_ok h₁
      rw [← List.append_assoc]
      exact (covers_control (compileElement_covers rfl helement) (compileControl_covers hcontrol)).append
        (attach_covers h₂)
    | some given =>
      rw [hname] at h
      dsimp only at h
      -- facets are attached, and any other property element belongs to the other walk
      split at h
      · rename_i hfacets
        have htake : attachedPlaces .control (.element e :: rest) =
            e.places .facets ++ attachedPlaces .control rest := by
          simp [attachedPlaces, elementsOf, Element.givesProperty, Role.child, hname, hfacets]
        rw [htake]
        obtain ⟨more, first, second, rfl, hfirst, hsecond⟩ := Program.runs_bind_ok h
        exact (attachFacets_covers hfirst).append (attach_covers hsecond)
      · rename_i hfacets
        have hskip : attachedPlaces .control (.element e :: rest) = attachedPlaces .control rest := by
          simp [attachedPlaces, elementsOf, Element.givesProperty, hname, hfacets]
        rw [hskip]
        exact attach_covers h
  | g, .text _ :: rest, events, g', h | g, .comment _ :: rest, events, g', h
  | g, .instruction .. :: rest, events, g', h => by
    rw [attach] at h
    have hrest := attach_covers h
    exact hrest

theorem attachFacets_covers : ∀ {g : Growth} {e : Element} {events g'},
    Runs (attachFacets s g e) events (.ok g') → Covers s events (e.places .facets)
  | g, ⟨name, attributes, content, location⟩, events, g', h => by
    rw [attachFacets] at h
    rw [Element.places]
    have hself : Covers s [] [(Role.facets, ⟨name, attributes, content, location⟩)] := by
      refine .of_silent rfl fun x hx => ?_
      obtain rfl := List.mem_singleton.mp hx
      exact ⟨rfl, nofun⟩
    exact hself.append (attachFacetPieces_covers h)

theorem attachFacetPieces_covers : ∀ {g : Growth} {content : List (Piece Element)} {events g'},
    Runs (attachFacetPieces s g content) events (.ok g') → Covers s events (placesIn .facets content)
  | g, [], events, g', h => by
    rw [(Program.runs_done.mp h).1]
    exact .of_silent rfl nofun
  | g, .element e :: rest, events, g', h => by
    rw [attachFacetPieces] at h
    obtain ⟨key, first, others, rfl, hkey, h₁⟩ := Program.runs_bind_ok h
    obtain rfl := runs_facetKey hkey
    obtain ⟨t, second, others, rfl, helement, h₂⟩ := Program.runs_bind_ok h₁
    split at h₂
    · -- the key is taken, so the run fails
      cases (Program.runs_done.mp h₂).2
    · obtain ⟨⟨c, next⟩, third, last, rfl, hcontrol, h₃⟩ := Program.runs_bind_ok h₂
      rw [placesIn, List.nil_append, ← List.append_assoc]
      exact (covers_control (compileElement_covers rfl helement) (compileControl_covers hcontrol)).append
        (attachFacetPieces_covers h₃)
  | g, .text _ :: rest, events, g', h | g, .comment _ :: rest, events, g', h
  | g, .instruction .. :: rest, events, g', h => by
    rw [attachFacetPieces] at h
    have hrest := attachFacetPieces_covers h
    exact hrest

end

/-- A document that is compiled is covered by the templates that were asked for. -/
theorem compileDocument_covers {root : Element} {tree : Tree}
    (h : Runs (compileDocument s root) events (.ok tree)) : Covers s events (root.places .control) := by
  rw [compileDocument] at h
  obtain ⟨t, first, others, rfl, helement, h₁⟩ := Program.runs_bind_ok h
  obtain ⟨⟨c, next⟩, second, last, rfl, hcontrol, hdone⟩ := Program.runs_bind_ok h₁
  obtain rfl := (Program.runs_pure_except.mp hdone).1
  rw [List.append_nil]
  exact covers_control (compileElement_covers rfl helement) (compileControl_covers hcontrol)

end Walks

/-! ## §5 Elements that are left out -/

/-- The request is for the template of an element that is no property element. -/
def isForPlain : CompileRequest → Bool
  | .create _ _ tag => (propertyOf? ⟨none, tag⟩).isNone
  | .select .. => false

theorem requestsFor_filter (ps : List (Role × Element)) :
    (requestsFor s ps).filter isForPlain =
      ((ps.filter fun x => x.2.isPlain).filter fun x => x.1.isMade).map fun x => x.2.request s := by
  rw [requestsFor, List.filter_map, List.filter_comm]
  rfl

/-- Templates were made for all elements that are no property elements just if each of these is a control or an
object. -/
theorem Covers.plain_iff {events : List (Event CompileRequest.Answer)} {ps : List (Role × Element)}
    (h : Covers s events ps) :
    ((creations events).filter isForPlain).Perm (((ps.map Prod.snd).filter Element.isPlain).map (Element.request s)) ↔
      ∀ x ∈ ps, x.2.isPlain → x.1.isMade := by
  have hasked := h.asked.filter isForPlain
  rw [requestsFor_filter] at hasked
  have hplain : ((ps.map Prod.snd).filter Element.isPlain).map (Element.request s) =
      (ps.filter fun x => x.2.isPlain).map fun x => x.2.request s := by
    rw [List.filter_map, List.map_map]
    rfl
  rw [hplain]
  constructor
  · intro hall x hx hxplain
    -- nothing can be lost in the second filter, because the two lists are equally long
    have hlength := (hasked.symm.trans hall).length_eq
    rw [List.length_map, List.length_map] at hlength
    exact List.length_filter_eq_length_iff.mp hlength x (List.mem_filter.mpr ⟨hx, hxplain⟩)
  · intro hmade
    have hkept : (ps.filter fun x => x.2.isPlain).filter (fun x => x.1.isMade) = ps.filter fun x => x.2.isPlain := by
      refine List.filter_eq_self.mpr fun x hx => ?_
      obtain ⟨hx, hxplain⟩ := List.mem_filter.mp hx
      exact hmade x hx hxplain
    rwa [hkept] at hasked

/-- **Which elements are created**: a document that is compiled has no misplaced elements, and a template was asked
for and given once for each control and each object. Every element that is no property element was among them unless
it stands in the facets of an object. -/
theorem compileText_creations_iff {text : String} {events : List (Event CompileRequest.Answer)} {tree : Tree}
    (h : Runs (compileText s text) events (.ok tree)) :
    ∃ root, Element.read text = .ok root ∧
      (creations events).Perm (requestsFor s (root.places .control)) ∧
      (∀ event ∈ events, Granted event) ∧
      (∀ x ∈ root.places .control, x.1 ≠ .misplaced) ∧
      (((creations events).filter isForPlain).Perm ((root.elements.filter Element.isPlain).map (Element.request s)) ↔
        ∀ x ∈ root.places .control, x.1 = .unread → x.2.isPlain = false) := by
  unfold compileText at h
  split at h
  · rename_i root hroot
    have hcovers := compileDocument_covers h
    refine ⟨root, hroot, hcovers.asked, hcovers.granted, hcovers.placed, ?_⟩
    rw [← root.map_snd_places .control, hcovers.plain_iff]
    constructor
    · intro hmade x hx hunread
      refine Bool.eq_false_iff.mpr fun hplain => ?_
      have := hmade x hx hplain
      rw [hunread] at this
      cases this
    · intro hunread x hx hplain
      -- of the roles that it may have only the first one is left
      rcases Element.plain_role hx hplain with hmade | hrole | hrole
      · exact hmade
      · rw [hunread x hx hrole] at hplain
        cases hplain
      · exact absurd hrole (hcovers.placed x hx)
  · exact absurd h runs_fail

/-- Gives a template for every tag, and lets every property hold one object. -/
def grantAll : Program.Handler CompileRequest.Answer Unit
  | .create _ namespaceUri tag, w => (.ok (.empty ⟨0, namespaceUri, tag, tag, .empty, none, default⟩ 0), w)
  | .select _ _ property, w => (.ok ⟨property, "java.lang.Object", true, .complex⟩, w)

/-- Loose content whose facet keys are in a namespace of their own. -/
def looseKeys : Setting := ⟨none, "k"⟩

/-- A page in which an object and a facet have their places. -/
def placedPage : String :=
  "<view xmlns:k=\"k\"><this.data><page/></this.data><this.facets><text k:key=\"a\"/></this.facets></view>"

theorem placedPage_creations :
    ∃ events tree root, Runs (compileText looseKeys placedPage) events (.ok tree) ∧
      Element.read placedPage = .ok root ∧ ((creations events).filter isForPlain).Perm
        ((root.elements.filter Element.isPlain).map (Element.request looseKeys)) := by
  obtain ⟨tree, h⟩ := Program.runs_of_isOk grantAll (compileText looseKeys placedPage) ()
    (by decide +kernel)
  obtain ⟨root, hroot, _, _, _, hiff⟩ := compileText_creations_iff h
  have hread : (Element.read placedPage).toOption.all (fun root =>
      (root.places .control).all fun x => x.1 != .unread || !x.2.isPlain) := by decide +kernel
  refine ⟨_, tree, root, h, hroot, hiff.mpr fun x hx hunread => ?_⟩
  rw [hroot] at hread
  have := List.all_eq_true.mp hread x hx
  simpa [hunread] using this

/-- A page with a facet for an object. -/
def objectFacetPage : String :=
  "<view><this.data><page><this.facets><text/></this.facets></page></this.data></view>"

/-- A facet for an object is left out, and the page is compiled without it. -/
theorem objectFacetPage_left_out :
    ∃ events tree root, Runs (compileText looseKeys objectFacetPage) events (.ok tree) ∧
      Element.read objectFacetPage = .ok root ∧ ¬ ((creations events).filter isForPlain).Perm
        ((root.elements.filter Element.isPlain).map (Element.request looseKeys)) := by
  obtain ⟨tree, h⟩ := Program.runs_of_isOk grantAll
    (compileText looseKeys objectFacetPage) () (by decide +kernel)
  have hread : (Element.read objectFacetPage).isOk := by decide +kernel
  obtain ⟨root, hroot⟩ := Outcome.exists_of_isOk hread
  refine ⟨_, tree, root, h, hroot, fun hperm => ?_⟩
  -- two templates are asked for, but three elements are no property elements
  have hasked : ((creations (Program.trace grantAll
      (compileText looseKeys objectFacetPage) ()).2).filter isForPlain).length = 2 := by
    decide +kernel
  have hplain : (Element.read objectFacetPage).toOption.map
      (fun root => (root.elements.filter Element.isPlain).length) = some 3 := by decide +kernel
  rw [hroot] at hplain
  have hthree : (root.elements.filter Element.isPlain).length = 3 := Option.some.inj hplain
  have hlength := hperm.length_eq
  rw [hasked, List.length_map, hthree] at hlength
  cases hlength

end PageTemplates.Markup
