import PageTemplates.Markup.Compile
import Mathlib.Data.List.Basic

/-!
# Roles of elements

What an element of a document is depends on its name and on the element around it: a control of the tree, an object
given for a property, a property element, or the element that holds facets. Two roles are left for elements that
have no place: the one that an object or a property element cannot hold, and what stands inside the facets of an
object, where nothing is read.

`Element.places` lists the elements of a document with their roles. Apart from misplaced ones, every element whose
name is not that of a property element is a control, an object, or unread (`plain_role`).
-/

namespace PageTemplates.Markup

/-! ## §1 Elements of a document -/

/-- The elements among some pieces, in order. -/
def elementsOf : List (Piece Element) → List Element
  | [] => []
  | .element e :: rest => e :: elementsOf rest
  | .text _ :: rest | .comment _ :: rest | .instruction .. :: rest => elementsOf rest

mutual

/-- All elements of a document, in the order in which they begin. -/
def Element.elements : Element → List Element
  | ⟨name, attributes, content, location⟩ => ⟨name, attributes, content, location⟩ :: elementsIn content

/-- All elements below some pieces. -/
def elementsIn : List (Piece Element) → List Element
  | [] => []
  | .element e :: rest => e.elements ++ elementsIn rest
  | .text _ :: rest | .comment _ :: rest | .instruction .. :: rest => elementsIn rest

end

/-- The name is not that of a property element. -/
def Element.isPlain (e : Element) : Bool := (propertyOf? e.name).isNone

/-! ## §2 Roles -/

/-- What an element is. -/
inductive Role where
  /-- A control of the tree. -/
  | control
  /-- An object given for a property. -/
  | object
  | property
  /-- The element that holds the facets of a control. -/
  | facets
  /-- The element that holds the facets of an object, or an element inside it. -/
  | unread
  /-- An element that the element around it cannot hold, or an element inside such a one. -/
  | misplaced
  deriving DecidableEq, Repr

/-- The role of an element of some name inside an element of some role. -/
def Role.child (r : Role) (name : Name) : Role :=
  match r, propertyOf? name with
  | .control, none => .control
  | .control, some given => if given = facetsName then .facets else .property
  | .object, none => .misplaced
  | .object, some given => if given = facetsName then .unread else .property
  | .property, none => .object
  | .property, some _ => .misplaced
  | .facets, _ => .control
  | .unread, _ => .unread
  | .misplaced, _ => .misplaced

/-- A template is made for elements of this role. -/
def Role.isMade : Role → Bool
  | .control | .object => true
  | .property | .facets | .unread | .misplaced => false

mutual

/-- All elements of a document with their roles, that of the outermost one being given. -/
def Element.places (r : Role) : Element → List (Role × Element)
  | ⟨name, attributes, content, location⟩ =>
    (r, ⟨name, attributes, content, location⟩) :: placesIn r content

/-- All elements below some pieces of an element of some role, with their roles. -/
def placesIn (r : Role) : List (Piece Element) → List (Role × Element)
  | [] => []
  | .element e :: rest => e.places (r.child e.name) ++ placesIn r rest
  | .text _ :: rest | .comment _ :: rest | .instruction .. :: rest => placesIn r rest

end

/-! ## §3 Laws of places -/

theorem Element.places_eq (r : Role) (e : Element) : e.places r = (r, e) :: placesIn r e.content := by
  obtain ⟨name, attributes, content, location⟩ := e
  rw [places]

theorem placesIn_eq_flatMap (r : Role) (content : List (Piece Element)) :
    placesIn r content = (elementsOf content).flatMap fun e => e.places (r.child e.name) := by
  induction content with
  | nil => rfl
  | cons piece rest ih => cases piece <;> simp [placesIn, elementsOf, ih]

theorem elementsOf_eq_nil {content : List (Piece Element)} (h : content.any Piece.isElement = false) :
    elementsOf content = [] := by
  induction content with
  | nil => rfl
  | cons piece rest ih => cases piece <;> simp_all [elementsOf, Piece.isElement]

mutual

theorem Element.map_snd_places (r : Role) : ∀ e : Element, (e.places r).map Prod.snd = e.elements
  | ⟨name, attributes, content, location⟩ => by
    rw [Element.places, Element.elements, List.map_cons, map_snd_placesIn r content]

theorem map_snd_placesIn (r : Role) : ∀ content, (placesIn r content).map Prod.snd = elementsIn content
  | [] => rfl
  | .element e :: rest => by
    rw [placesIn, elementsIn, List.map_append, e.map_snd_places, map_snd_placesIn r rest]
  | .text _ :: rest | .comment _ :: rest | .instruction .. :: rest => by
    rw [placesIn, elementsIn, map_snd_placesIn r rest]

end

mutual

/-- Whatever passes from an element to those that it holds passes to all elements below. -/
theorem Element.forall_places {P : Role → Name → Prop} (step : ∀ r n m, P r n → P (r.child m) m) {r : Role} :
    ∀ {e : Element}, P r e.name → ∀ x ∈ e.places r, P x.1 x.2.name
  | ⟨name, attributes, content, location⟩, h => by
    -- the element itself, and then what is below it
    intro x hx
    rw [Element.places] at hx
    rcases List.mem_cons.mp hx with rfl | hx
    · exact h
    · exact forall_placesIn step h x hx

theorem forall_placesIn {P : Role → Name → Prop} (step : ∀ r n m, P r n → P (r.child m) m) {r : Role} {n : Name}
    (h : P r n) : ∀ {content}, ∀ x ∈ placesIn r content, P x.1 x.2.name
  | [] => nofun
  | .element e :: rest => by
    intro x hx
    rw [placesIn] at hx
    rcases List.mem_append.mp hx with hx | hx
    · exact Element.forall_places step (step r n e.name h) x hx
    · exact forall_placesIn step h x hx
  | .text _ :: rest | .comment _ :: rest | .instruction .. :: rest => by
    intro x hx
    rw [placesIn] at hx
    exact forall_placesIn step h x hx

end

/-- Nothing inside the facets of an object is read. -/
theorem Element.unread_of_mem_places {e : Element} {x : Role × Element} (h : x ∈ e.places .unread) :
    x.1 = .unread :=
  forall_places (P := fun r _ => r = .unread) (fun r n m h => by subst h; rfl) rfl x h

/-- An element that is no property element is a control, an object, or without a place. -/
theorem Element.plain_role {e : Element} {x : Role × Element} (h : x ∈ e.places .control) (hplain : x.2.isPlain) :
    x.1.isMade ∨ x.1 = .unread ∨ x.1 = .misplaced := by
  -- passed on from each element to those that it holds
  have marked : ∀ y ∈ e.places .control, y.1 = .property ∨ y.1 = .facets → (propertyOf? y.2.name).isSome := by
    refine forall_places (P := fun r n => r = .property ∨ r = .facets → (propertyOf? n).isSome) ?_ nofun
    intro r n m _ hr
    cases hm : propertyOf? m with
    | some property => rfl
    | none =>
      -- only the name of a property element gives one of these two roles
      cases r <;> simp [Role.child, hm] at hr
  -- so a plain element has neither of them
  have hunmarked := mt (marked x h)
  cases hrole : x.1 <;> simp_all [Role.isMade, Element.isPlain]

end PageTemplates.Markup
