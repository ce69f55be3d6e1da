import PageTemplates.Proofs.Markup.Roles
import Mathlib.Data.List.Lex
import Mathlib.Data.List.Flatten

/-!
# The controls of a document

Which elements of a document are controls, and in which order they stand. An element is known by the way that leads to
it from the root (`Way`); the order of a document is the lexicographic one of the ways, because an element begins before
those inside it and before those that come later.

A control attaches elements to itself: as children those in its content that are no property elements, and as facets
those in its elements `this.facets` (`Element.attached`). The controls are the root and whatever is attached to one
(`IsControl`). `Element.controls` lists them in the order of the document (`ascending_controls`, `mem_controls_iff`).
-/

namespace PageTemplates.Markup

/-! ## §1 What is attached to a control -/

/-- The way to an element inside another: at each step its position among the elements there. -/
abbrev Way := List Nat

/-- How an element is attached to the control around it. -/
inductive Link where
  | child
  | facet
  deriving DecidableEq, Repr

/-- An element that is attached to a control. -/
structure Attachment where
  /-- The way to it from the control. -/
  way : Way
  link : Link
  element : Element

/-- What an element at some position in a control attaches to the control: itself, its elements if it holds facets, or
nothing. -/
def Element.attachments (e : Element) (i : Nat) : List Attachment :=
  match propertyOf? e.name with
  | none => [⟨[i], .child, e⟩]
  | some given =>
    if given = facetsName then (elementsOf e.content).zipIdx.map fun x => ⟨[i, x.2], .facet, x.1⟩ else []

/-- What some elements attach to the control around them, the position of the first one being given. -/
def attachmentsFrom (i : Nat) (es : List Element) : List Attachment :=
  (es.zipIdx i).flatMap fun x => x.1.attachments x.2

/-- The elements attached to a control, in the order of the document. -/
def Element.attached (e : Element) : List Attachment := attachmentsFrom 0 (elementsOf e.content)

/-- The children of a control, in the order of the document. -/
def Element.childElements (e : Element) : List Attachment := e.attached.filter fun a => a.link = .child

/-- The facets of a control, in the order of the document, those of all its elements `this.facets`. -/
def Element.facetElements (e : Element) : List Attachment := e.attached.filter fun a => a.link = .facet

/-- The key that an element gives as a facet, if it gives one. -/
def Element.facetKey? (s : Setting) (e : Element) : Option String :=
  (e.attributes.find? fun a => a.name == ⟨some s.keyNamespace, keyName⟩).map (·.value)

/-- The facets of a control have keys, and no two of them the same. -/
structure Element.Keyed (s : Setting) (e : Element) : Prop where
  /-- Every facet has a key. -/
  given : ∀ a ∈ e.facetElements, (a.element.facetKey? s).isSome
  /-- The keys are different. -/
  distinct : (e.facetElements.map fun a => a.element.facetKey? s).Nodup

/-- The controls of a document with the ways to them: the root, and whatever is attached to a control. -/
inductive IsControl (root : Element) : Way → Element → Prop where
  | root : IsControl root [] root
  | attached {w : Way} {e : Element} {a : Attachment} (h : IsControl root w e) (ha : a ∈ e.attached) :
      IsControl root (w ++ a.way) a.element

/-! ## §2 Attachments -/

theorem attachmentsFrom_cons (i : Nat) (e : Element) (rest : List Element) :
    attachmentsFrom i (e :: rest) = e.attachments i ++ attachmentsFrom (i + 1) rest := rfl

theorem sizeOf_lt_of_mem_elementsOf {content : List (Piece Element)} {e : Element} (h : e ∈ elementsOf content) :
    sizeOf e < sizeOf content := by
  -- by induction on the pieces
  induction content with
  | nil => cases h
  | cons piece rest ih =>
    cases piece with
    | element first =>
      simp only [List.cons.sizeOf_spec, Piece.element.sizeOf_spec]
      rcases List.mem_cons.mp h with rfl | h
      · omega
      · have := ih h
        omega
    | text _ | comment _ | instruction _ _ =>
      have := ih h
      simp only [List.cons.sizeOf_spec]
      omega

theorem Element.sizeOf_content_lt (e : Element) : sizeOf e.content < sizeOf e := by
  cases e
  simp only [mk.sizeOf_spec]
  omega

/-- What is attached to a control is smaller than the control. -/
theorem Element.sizeOf_lt_of_mem_attached {e : Element} {a : Attachment} (h : a ∈ e.attached) :
    sizeOf a.element < sizeOf e := by
  obtain ⟨⟨f, i⟩, hf, ha⟩ := List.mem_flatMap.mp h
  have hsize := sizeOf_lt_of_mem_elementsOf (List.fst_mem_of_mem_zipIdx hf)
  have hcontent := e.sizeOf_content_lt
  dsimp only [attachments] at ha hsize
  -- a child is in the content of the control, and a facet is in the content of an element there
  split at ha
  · obtain rfl := List.mem_singleton.mp ha
    dsimp only
    omega
  · split at ha
    · obtain ⟨⟨g, j⟩, hg, rfl⟩ := List.mem_map.mp ha
      have hinner := sizeOf_lt_of_mem_elementsOf (List.fst_mem_of_mem_zipIdx hg)
      have hfacets := f.sizeOf_content_lt
      dsimp only at hinner ⊢
      omega
    · cases ha

/-- Whatever is inside one attached element comes before whatever is inside a later one. -/
def Attachment.Before (a b : Attachment) : Prop := ∀ u v : Way, a.way ++ u < b.way ++ v

theorem attachments_way {e : Element} {i : Nat} {a : Attachment} (h : a ∈ e.attachments i) :
    ∃ rest, a.way = i :: rest := by
  unfold Element.attachments at h
  split at h
  · obtain rfl := List.mem_singleton.mp h
    exact ⟨[], rfl⟩
  · split at h
    · obtain ⟨x, _, rfl⟩ := List.mem_map.mp h
      exact ⟨[x.2], rfl⟩
    · cases h

theorem pairwise_zipIdx (es : List Element) (i : Nat) : (es.zipIdx i).Pairwise fun x y => x.2 < y.2 := by
  have hpositions : ((es.zipIdx i).map Prod.snd).Pairwise (· < ·) := by
    rw [List.zipIdx_map_snd]
    exact List.pairwise_lt_range'
  exact List.pairwise_map.mp hpositions

theorem pairwise_attachments (e : Element) (i : Nat) : (e.attachments i).Pairwise Attachment.Before := by
  unfold Element.attachments
  split
  · exact List.pairwise_singleton _ _
  · split
    · -- facets in the same element are told apart by the second step of their ways
      refine List.pairwise_map.mpr ((pairwise_zipIdx _ 0).imp fun hlt u v => ?_)
      simp only [List.cons_append, List.nil_append, List.cons_lt_cons_iff]
      exact .inr ⟨trivial, .inl hlt⟩
    · exact .nil

theorem Element.pairwise_attached (e : Element) : e.attached.Pairwise Attachment.Before := by
  rw [attached, attachmentsFrom, List.pairwise_flatMap]
  refine ⟨fun x _ => pairwise_attachments x.1 x.2, (pairwise_zipIdx _ 0).imp fun hlt a ha b hb u v => ?_⟩
  -- the ways part at the first step
  obtain ⟨p, hp⟩ := attachments_way ha
  obtain ⟨q, hq⟩ := attachments_way hb
  rw [hp, hq, List.cons_append, List.cons_append, List.cons_lt_cons_iff]
  exact .inl hlt

/-! ## §3 The controls in the order of the document -/

/-- The controls in an element that is one, with the ways to them, in the order of the document. -/
def Element.controls (e : Element) : List (Way × Element) :=
  ([], e) :: e.attached.attach.flatMap fun a => a.1.element.controls.map fun x => (a.1.way ++ x.1, x.2)
termination_by sizeOf e
decreasing_by exact sizeOf_lt_of_mem_attached a.2

/-- The controls that an attached element brings with it. -/
def Attachment.controls (a : Attachment) : List (Way × Element) :=
  a.element.controls.map fun x => (a.way ++ x.1, x.2)

theorem Element.controls_eq (e : Element) : e.controls = ([], e) :: e.attached.flatMap Attachment.controls := by
  have hattach : e.attached.attach.flatMap (fun a => Attachment.controls a.1) =
      e.attached.flatMap Attachment.controls := by
    rw [← List.flatMap_map, List.attach_map_subtype_val]
  rw [controls, ← hattach]
  rfl

theorem Attachment.length_controls (a : Attachment) : a.controls.length = a.element.controls.length :=
  List.length_map _

/-- What passes from the elements attached to a control to the control itself holds of every element. -/
@[elab_as_elim]
theorem Element.attached_induction {motive : Element → Prop}
    (step : ∀ e : Element, (∀ a ∈ e.attached, motive a.element) → motive e) (e : Element) : motive e :=
  step e fun a _ => attached_induction step a.element
termination_by sizeOf e
decreasing_by exact Element.sizeOf_lt_of_mem_attached ‹_›

theorem ascending_controls (e : Element) : (e.controls.map Prod.fst).Pairwise (· < ·) := by
  -- by induction on what is attached: the element comes first, each attached element brings an ascending list, and the
  -- lists follow each other
  induction e using Element.attached_induction with
  | step e ih =>
    rw [Element.controls_eq, List.map_cons, List.pairwise_cons, List.pairwise_map, List.pairwise_flatMap]
    refine ⟨?_, ?_, ?_⟩
    · -- the element itself begins before all that is inside it
      intro w hw
      obtain ⟨x, hx, rfl⟩ := List.mem_map.mp hw
      obtain ⟨a, ha, hx⟩ := List.mem_flatMap.mp hx
      obtain ⟨y, _, rfl⟩ := List.mem_map.mp hx
      obtain ⟨f, _, hf⟩ := List.mem_flatMap.mp ha
      obtain ⟨rest, hway⟩ := attachments_way hf
      rw [hway]
      exact List.nil_lt_cons _ _
    · intro a ha
      refine List.pairwise_map.mpr ((List.pairwise_map.mp (ih a ha)).imp fun hlt => ?_)
      exact List.append_left_lt hlt
    · refine e.pairwise_attached.imp fun hbefore x hx y hy => ?_
      obtain ⟨u, _, rfl⟩ := List.mem_map.mp hx
      obtain ⟨v, _, rfl⟩ := List.mem_map.mp hy
      exact hbefore u.1 v.1

theorem mem_controls_self (e : Element) : ([], e) ∈ e.controls := by
  rw [Element.controls_eq]
  exact List.mem_cons_self

theorem mem_controls_of_attached {e : Element} {a : Attachment} {x : Way × Element} (ha : a ∈ e.attached)
    (hx : x ∈ a.element.controls) : (a.way ++ x.1, x.2) ∈ e.controls := by
  rw [Element.controls_eq]
  exact List.mem_cons_of_mem _ (List.mem_flatMap.mpr ⟨a, ha, List.mem_map.mpr ⟨x, hx, rfl⟩⟩)

/-- What is attached to a control is a control. -/
theorem mem_controls_append {root e : Element} {w : Way} {a : Attachment} (h : (w, e) ∈ root.controls)
    (ha : a ∈ e.attached) : (w ++ a.way, a.element) ∈ root.controls := by
  -- a control is the root, or it is in an element that is attached to the root
  induction root using Element.attached_induction generalizing w with
  | step root ih =>
    rw [Element.controls_eq] at h
    rcases List.mem_cons.mp h with heq | h
    · obtain ⟨rfl, rfl⟩ := Prod.mk.inj heq
      simpa using mem_controls_of_attached ha (mem_controls_self a.element)
    · obtain ⟨b, hb, h⟩ := List.mem_flatMap.mp h
      obtain ⟨⟨v, f⟩, hv, heq⟩ := List.mem_map.mp h
      obtain ⟨rfl, rfl⟩ := Prod.mk.inj heq
      rw [List.append_assoc]
      exact mem_controls_of_attached hb (ih b hb hv)

/-- A control of an attached element is a control of the element that it is attached to. -/
theorem IsControl.of_attached {root e : Element} {a : Attachment} {w : Way} (ha : a ∈ root.attached)
    (h : IsControl a.element w e) : IsControl root (a.way ++ w) e := by
  induction h with
  | root => simpa using IsControl.root.attached ha
  | attached _ hb ih =>
    rw [← List.append_assoc]
    exact ih.attached hb

theorem mem_controls_iff {root e : Element} {w : Way} : (w, e) ∈ root.controls ↔ IsControl root w e := by
  constructor
  · intro h
    -- from the list to the way, which is taken from its end at the root
    induction root using Element.attached_induction generalizing w with
    | step root ih =>
      rw [Element.controls_eq] at h
      rcases List.mem_cons.mp h with heq | h
      · obtain ⟨rfl, rfl⟩ := Prod.mk.inj heq
        exact .root
      · obtain ⟨a, ha, h⟩ := List.mem_flatMap.mp h
        obtain ⟨⟨v, f⟩, hv, heq⟩ := List.mem_map.mp h
        obtain ⟨rfl, rfl⟩ := Prod.mk.inj heq
        exact (ih a ha hv).of_attached ha
  · intro h
    -- and back, one step of the way after the other
    induction h with
    | root => exact mem_controls_self root
    | attached _ ha ih => exact mem_controls_append ih ha

end PageTemplates.Markup
