import PageTemplates.Proofs.Markup.PropertyText

/-!
# What a page does not depend on

Of what stands between the tags of a document only two things are looked at: the elements, and the text that gives a
property. Comments and processing instructions are nowhere looked at, nor is any other text, and neither are the places
at which elements stand in the text of the document, unless an error points to one. What is left without all that is the
essence of a document (`Element.essence`).

Documents with the same essence have the same outcome (`loose_content_ignored`). Each walk of the compilation is compared
with the walk over the essence of the same pieces, and the two turn out to be alike.

## Structure

- §1 defines the essence.
- §2 compares the compilation of templates, and §3 that of controls.
-/

namespace PageTemplates.Markup

open Program (Alike)

/-! ## §1 The essence of a document -/

/-- An element with this name and content gives a property by its text. -/
def isText (name : Name) (content : List (Piece Element)) : Bool :=
  (propertyOf? name).any (· != facetsName) && !content.any Piece.isElement

/-- Where an element stands if this makes no difference. -/
def nowhere : Location := ⟨0, 0⟩

mutual

/-- A document without comments, processing instructions, and places. The text of a property is kept in one piece, and
all other text is left out. -/
def Element.essence : Element → Element
  | ⟨name, attributes, content, _⟩ =>
    ⟨name, attributes, if isText name content then [.text (writtenIn content)] else essenceOf content, nowhere⟩

/-- The elements among some pieces, each without all that makes no difference. -/
def essenceOf : List (Piece Element) → List (Piece Element)
  | [] => []
  | .element e :: rest => .element e.essence :: essenceOf rest
  | .text _ :: rest | .comment _ :: rest | .instruction .. :: rest => essenceOf rest

end

theorem Element.essence_name (e : Element) : e.essence.name = e.name := by
  obtain ⟨name, attributes, content, location⟩ := e
  rw [essence]

theorem Element.essence_attributes (e : Element) : e.essence.attributes = e.attributes := by
  obtain ⟨name, attributes, content, location⟩ := e
  rw [essence]

/-- Unless its text gives a property, an element keeps its elements. -/
theorem Element.essence_content {e : Element} (h : isText e.name e.content = false) :
    e.essence.content = essenceOf e.content := by
  obtain ⟨name, attributes, content, location⟩ := e
  rw [essence, h]
  rfl

/-- Controls, objects and elements for facets are read by their elements. -/
theorem isText_eq_false {name : Name} {content : List (Piece Element)}
    (h : ∀ given ∈ propertyOf? name, given = facetsName) : isText name content = false := by
  cases hname : propertyOf? name with
  | none =>
    rw [isText, hname]
    rfl
  | some given =>
    rw [isText, hname, h given hname]
    rfl

theorem noElements_of_isText {name : Name} {content : List (Piece Element)} (h : isText name content = true) :
    content.any Piece.isElement = false := by
  simpa using (Bool.and_eq_true_iff.mp h).2

theorem textOf_whole (content : List (Piece Element)) :
    textOf ([.text (writtenIn content)] : List (Piece Element)) = textOf content := by
  rw [textOf_eq_writtenIn content]
  exact String.append_empty

theorem any_isElement_essenceOf (content : List (Piece Element)) :
    (essenceOf content).any Piece.isElement = content.any Piece.isElement := by
  -- pieces that are no elements are left out, and elements stay
  induction content with
  | nil => rfl
  | cons piece rest ih => cases piece <;> simp [essenceOf, Piece.isElement, ih]

theorem firstControl?_essenceOf (content : List (Piece Element)) :
    firstControl? (essenceOf content) = (firstControl? content).map Element.essence := by
  -- the essence of an element has the same name, and so the same role
  induction content with
  | nil => rfl
  | cons piece rest ih =>
    cases piece with
    | element e =>
      rw [essenceOf, firstControl?, firstControl?, e.essence_name]
      split
      · rfl
      · exact ih
    | text _ | comment _ | instruction _ _ => exact ih

/-! ## §2 Templates -/

variable {s : Setting}

theorem compileProperties_of_noElements (t : Template) {content : List (Piece Element)}
    (h : content.any Piece.isElement = false) : compileProperties s t content = pure t := by
  -- a walk passes over pieces that are no elements
  have hskip : compileProperties s t (content ++ []) = compileProperties s t [] :=
    compileProperties_skip [] (by simp [elementsOf_eq_nil h])
  rwa [List.append_nil] at hskip

theorem unlocated_toError (e : MarkupProblem) : e.toError.unlocated = .parse e.message none := by
  rw [MarkupProblem.toError, Error.unlocated]

/-- Errors of a document are alike if they say the same. -/
theorem alike_fail {α : Type} {e e' : MarkupProblem} (h : e.message = e'.message) :
    Alike (fail e : Compile α) (fail e') := by
  unfold Alike fail Compile.ofExcept
  rw [Program.adapt_error, Program.adapt_error, unlocated_toError, unlocated_toError, h]

theorem alike_checkObject (property : Name) (e : Element) :
    Alike (checkObject property e) (checkObject property e.essence) := by
  unfold checkObject
  rw [e.essence_name]
  split
  · exact alike_fail rfl
  · rename_i hname
    have hcontrols : isText e.name e.content = false :=
      isText_eq_false fun given hgiven => absurd (Option.isSome_iff_exists.mpr ⟨given, hgiven⟩) hname
    rw [Element.essence_content hcontrols, firstControl?_essenceOf]
    cases firstControl? e.content with
    | none => exact .refl _
    | some control =>
      refine alike_fail ?_
      rw [control.essence_name]
      rfl

mutual

theorem compileElement_essence : ∀ e : Element, Alike (compileElement s e) (compileElement s e.essence)
  | ⟨name, attributes, content, location⟩ => by
    rw [Element.essence, compileElement, compileElement]
    -- the name and the attributes are those of the element, so that only its content is left to be compared
    refine .bind (.refl _) fun t => .bind (.refl _) fun t => ?_
    split
    · -- the text is not looked at here, but by the walk over the element around this one
      rename_i htext
      rw [compileProperties_of_noElements t (noElements_of_isText htext)]
      exact .refl _
    · exact compileProperties_essence t content

theorem compileProperties_essence (t : Template) : ∀ content : List (Piece Element),
    Alike (compileProperties s t content) (compileProperties s t (essenceOf content))
  | [] => .refl _
  | .element ⟨name, attributes, content, location⟩ :: rest => by
    rw [essenceOf, Element.essence, compileProperties, compileProperties]
    cases hname : propertyOf? name with
    | none => exact compileProperties_essence t rest
    | some given =>
      dsimp only
      by_cases hfacets : given = facetsName
      · rw [if_pos hfacets, if_pos hfacets]
        exact compileProperties_essence t rest
      · rw [if_neg hfacets, if_neg hfacets]
        cases helements : content.any Piece.isElement with
        | true =>
          -- elements among the pieces make it a property of objects, whatever text stands between them
          have hobjects : isText name content = false := by rw [isText, helements, Bool.not_true, Bool.and_false]
          simp only [hobjects, Bool.false_eq_true, if_false, any_isElement_essenceOf, helements, if_true]
          refine .bind (compileObjects_essence name content) fun objects => ?_
          exact .bind (.refl _) fun t => compileProperties_essence t rest
        | false =>
          -- the piece that is left has all that was written, so the property is added with the same text
          have htext : isText name content = true := by simp [isText, hname, hfacets, helements]
          simp only [htext, if_true, Bool.false_eq_true, if_false, textOf_whole]
          exact .bind (.refl _) fun t => compileProperties_essence t rest
  | .text _ :: rest | .comment _ :: rest | .instruction .. :: rest => by
    rw [essenceOf, compileProperties]
    exact compileProperties_essence t rest

theorem compileObjects_essence (property : Name) : ∀ content : List (Piece Element),
    Alike (compileObjects s property content) (compileObjects s property (essenceOf content))
  | [] => .refl _
  | .element e :: rest => by
    rw [essenceOf, compileObjects, compileObjects]
    refine .bind (alike_checkObject property e) fun _ => .bind (compileElement_essence e) fun t => ?_
    exact .bind (compileObjects_essence property rest) fun ts => .refl _
  | .text _ :: rest | .comment _ :: rest | .instruction .. :: rest => by
    rw [essenceOf, compileObjects]
    exact compileObjects_essence property rest

end

/-! ## §3 Controls -/

theorem alike_facetKey (s : Setting) (name : Name) (attributes : List Attribute) (location location' : Location) :
    Alike (facetKey s name attributes location) (facetKey s name attributes location') := by
  unfold facetKey
  split
  · exact .refl _
  · exact alike_fail rfl

theorem attach_of_noElements (g : Growth) {content : List (Piece Element)} (h : content.any Piece.isElement = false) :
    attach s g content = pure g := by
  -- pieces that are no elements are passed over
  induction content with
  | nil => rfl
  | cons piece rest ih =>
    cases piece with
    | element _ => cases h
    | text _ | comment _ | instruction _ _ =>
      rw [attach]
      exact ih h

mutual

theorem compileControl_essence (index : Nat) (t : Template) : ∀ e : Element,
    Alike (compileControl s index t e) (compileControl s index t e.essence)
  | ⟨name, attributes, content, location⟩ => by
    rw [Element.essence, compileControl, compileControl]
    refine .bind ?_ fun g => .refl _
    split
    · -- a facet may have the name of a property element, and then its text is not looked at
      rename_i htext
      rw [attach_of_noElements _ (noElements_of_isText htext)]
      exact .refl _
    · exact attach_essence _ content

theorem attach_essence (g : Growth) : ∀ content : List (Piece Element),
    Alike (attach s g content) (attach s g (essenceOf content))
  | [] => .refl _
  | .element e :: rest => by
    rw [essenceOf, attach, attach, e.essence_name]
    cases hname : propertyOf? e.name with
    | none =>
      refine .bind (compileElement_essence e) fun t => .bind (compileControl_essence g.next t e) fun result => ?_
      exact attach_essence _ rest
    | some given =>
      dsimp only
      split
      · rename_i hfacets
        exact .bind (attachFacets_essence g e (hname.trans (congrArg some hfacets))) fun g => attach_essence g rest
      · exact attach_essence g rest
  | .text _ :: rest | .comment _ :: rest | .instruction .. :: rest => by
    rw [essenceOf, attach]
    exact attach_essence g rest

theorem attachFacets_essence (g : Growth) : ∀ e : Element, propertyOf? e.name = some facetsName →
    Alike (attachFacets s g e) (attachFacets s g e.essence)
  | ⟨name, attributes, content, location⟩, hname => by
    -- the element for facets is read by its elements, whatever text stands in it
    have hfacets : isText name content = false := isText_eq_false (by simp [hname])
    rw [Element.essence, attachFacets, attachFacets, hfacets]
    exact attachFacetPieces_essence g content

theorem attachFacetPieces_essence (g : Growth) : ∀ content : List (Piece Element),
    Alike (attachFacetPieces s g content) (attachFacetPieces s g (essenceOf content))
  | [] => .refl _
  | .element e :: rest => by
    rw [essenceOf, attachFacetPieces, attachFacetPieces, e.essence_name, e.essence_attributes]
    refine .bind (alike_facetKey ..) fun key => .bind (compileElement_essence e) fun t => ?_
    -- both take the key, or both find it taken
    split
    · exact .refl _
    · refine .bind (compileControl_essence g.next t e) fun result => ?_
      exact attachFacetPieces_essence _ rest
  | .text _ :: rest | .comment _ :: rest | .instruction .. :: rest => by
    rw [essenceOf, attachFacetPieces]
    exact attachFacetPieces_essence g rest

end

theorem compileDocument_essence (root : Element) :
    Alike (compileDocument s root) (compileDocument s root.essence) :=
  .bind (compileElement_essence root) fun t => .bind (compileControl_essence 0 t root) fun _ => .refl _

/-- **Comments, processing instructions and loose text do not change a page.** Two documents with the same essence are
compiled alike, whatever answers the requests: the same is asked, and the outcome is the same tree, or the same error up
to the place that it points to. -/
theorem loose_content_ignored {σ : Type} (handle : Program.Handler CompileRequest.Answer σ) (s : Setting)
    {root root' : Element} (h : root.essence = root'.essence) (st : σ) :
    let outcome := fun e => Program.trace handle (compileDocument s e) st
    (outcome root).1.mapError Error.unlocated = (outcome root').1.mapError Error.unlocated ∧
      (outcome root).2 = (outcome root').2 ∧
      (Program.run handle (compileDocument s root) st).2 = (Program.run handle (compileDocument s root') st).2 := by
  have hroot := compileDocument_essence (s := s) root
  -- each of the two documents is compiled like the essence that they share
  rw [h] at hroot
  exact (hroot.trans (compileDocument_essence root').symm).trace_eq handle st

/-- A page with the text of a property in pieces, a facet, and loose content around both. -/
def scatteredPage : Element :=
  ⟨⟨none, "view"⟩, [], [.text "\n", .comment " head ",
    .element ⟨⟨none, "this.loaded"⟩, [], [.text " fal", .comment "l", .text "se"], ⟨2, 1⟩⟩, .text "loose",
    .element ⟨⟨none, "this.facets"⟩, [], [.instruction "pi" "x",
      .element ⟨⟨none, "text"⟩, [⟨⟨some "k", "key"⟩, "a"⟩], [.text "lost"], ⟨3, 5⟩⟩, .text " "], ⟨3, 1⟩⟩], ⟨1, 1⟩⟩

/-- The same page, written tightly. -/
def tightPage : Element :=
  ⟨⟨none, "view"⟩, [], [.element ⟨⟨none, "this.loaded"⟩, [], [.text " false"], ⟨1, 7⟩⟩,
    .element ⟨⟨none, "this.facets"⟩, [], [
      .element ⟨⟨none, "text"⟩, [⟨⟨some "k", "key"⟩, "a"⟩], [], ⟨1, 50⟩⟩], ⟨1, 37⟩⟩], ⟨1, 1⟩⟩

theorem scatteredPage_as_tightPage :
    scatteredPage.essence = tightPage.essence ∧
      let outcome := fun e => Program.trace grantAll (compileDocument looseKeys e) ()
      (outcome scatteredPage).1.mapError Error.unlocated = (outcome tightPage).1.mapError Error.unlocated ∧
        (outcome scatteredPage).2 = (outcome tightPage).2 ∧
        (outcome tightPage).1.toOption.map Tree.size = some 2 := by
  have h : scatteredPage.essence = tightPage.essence := rfl
  obtain ⟨hresult, hevents, -⟩ := loose_content_ignored grantAll looseKeys h ()
  exact ⟨h, hresult, hevents, by decide +kernel⟩

end PageTemplates.Markup
