import PageTemplates.Proofs.Expression.Forms
import PageTemplates.Proofs.Markup.Creation
import PageTemplates.Proofs.Program.Alike

/-!
# Properties that are given by a text

The text of a property can be written as an attribute, or as an element that holds the text and no elements. In an
element the text may be cut into pieces by comments, processing instructions and literal sections, and may have blanks
around it (`Element.GivesText`). Both are compiled in the same way: an attribute that comes last, and the same property
given by an element before all others, make no difference to any surroundings (`attribute_as_element`).
-/

namespace PageTemplates.Markup

/-! ## §1 Texts in pieces -/

/-- The text of a piece of text. -/
def Piece.text? {ε : Type} : Piece ε → Option String
  | .text s => some s
  | .element _ | .comment _ | .instruction .. => none

/-- All text among some pieces, put together. -/
def writtenIn {ε : Type} (content : List (Piece ε)) : String := String.join (content.filterMap Piece.text?)

/-- An element gives a property by its text, which is some text in blanks. -/
structure Element.GivesText (e : Element) (given text : String) : Prop where
  /-- The property is named behind the mark. -/
  name : propertyOf? e.name = some given
  notFacets : given ≠ facetsName
  noElements : e.content.any Piece.isElement = false
  /-- Only blanks stand before the text and behind it. -/
  written : ∃ lead trail, Text.Blank lead ∧ Text.Blank trail ∧
    (writtenIn e.content).toList = lead ++ text.toList ++ trail

theorem textOf_eq_writtenIn {ε : Type} (content : List (Piece ε)) : textOf content = writtenIn content := by
  -- by induction on the pieces, of which only texts count
  induction content with
  | nil => rfl
  | cons piece rest ih =>
    cases piece with
    | text s =>
      rw [textOf, ih]
      exact String.join_cons.symm
    | element _ | comment _ | instruction _ _ => exact ih

variable {e : Element} {given text : String}

theorem Element.GivesText.trim_textOf (h : e.GivesText given text) (htight : Text.Tight text.toList) :
    Text.trim (textOf e.content) = text := by
  obtain ⟨lead, trail, hlead, htrail, hwritten⟩ := h.written
  rw [textOf_eq_writtenIn, Text.trim, hwritten, Text.trimChars_eq hlead htight htrail, String.ofList_toList]

/-! ## §2 Walks over attributes and properties -/

variable {s : Setting} {t : Template}

theorem compileAttributes_append (t : Template) (attributes more : List Attribute) :
    compileAttributes t (attributes ++ more) = compileAttributes t attributes >>= fun u => compileAttributes u more := by
  -- by induction on the first attributes, whatever has been set before
  induction attributes generalizing t with
  | nil => exact (pure_bind _ _).symm
  | cons a rest ih =>
    rw [List.cons_append, compileAttributes, compileAttributes]
    cases a.name.namespaceUri with
    | some uri => exact ih t
    | none => simp only [ih, bind_assoc]

theorem compileAttributes_single (t : Template) (name value : String) :
    compileAttributes t [⟨⟨none, name⟩, value⟩] = t.addText name value := by
  show (t.addText name value >>= fun u => compileAttributes u []) = _
  exact bind_pure _

/-- Pieces that give no property are passed over. -/
theorem compileProperties_skip {before : List (Piece Element)} (after : List (Piece Element))
    (h : ∀ f ∈ elementsOf before, f.givesProperty = false) :
    compileProperties s t (before ++ after) = compileProperties s t after := by
  induction before with
  | nil => rfl
  | cons piece rest ih =>
    cases piece with
    | text _ | comment _ | instruction _ _ => exact ih h
    | element f =>
      obtain ⟨hfirst, hrest⟩ := List.forall_mem_cons.mp h
      obtain ⟨name, attributes, content, location⟩ := f
      rw [List.cons_append, compileProperties]
      cases hname : propertyOf? name with
      | none => exact ih hrest
      | some other =>
        -- the only element of this form that gives no property is the one that holds facets
        have hfacets : other = facetsName := by simpa [Element.givesProperty, hname] using hfirst
        simp only [hfacets, if_true]
        exact ih hrest

/-- An element that gives a property by its text adds the text. -/
theorem compileProperties_givesText (h : e.GivesText given text) (htight : Text.Tight text.toList)
    (after : List (Piece Element)) :
    compileProperties s t (.element e :: after) = t.addText given text >>= fun u => compileProperties s u after := by
  have htrim := h.trim_textOf htight
  obtain ⟨name, attributes, content, location⟩ := e
  rw [compileProperties]
  -- the element is named for a property, is not the one for facets, and holds no elements
  simp only [h.name, if_neg h.notFacets, h.noElements, Bool.false_eq_true, if_false, htrim]

/-! ## §3 The two ways of writing a property -/

/-- **An attribute and an element mean the same.** A property whose text has no blanks around it is given by the last
attribute of an element, or by the first of the property elements in it. Then compiling puts the same requests and has
the same outcome, whatever is answered: it attaches the same setters in the same order, or fails with the same error. -/
theorem attribute_as_element (s : Setting) {name : Name} {attributes : List Attribute}
    {before after : List (Piece Element)} {location location' : Location} (htight : Text.Tight text.toList)
    (he : e.GivesText given text) (hbefore : ∀ f ∈ elementsOf before, f.givesProperty = false) :
    compileElement s ⟨name, attributes ++ [⟨⟨none, given⟩, text⟩], before ++ after, location⟩ =
      compileElement s ⟨name, attributes, before ++ .element e :: after, location'⟩ := by
  rw [compileElement, compileElement]
  refine bind_congr fun t => ?_
  -- both are the attributes, then the text, then the properties that come after
  calc compileAttributes t (attributes ++ [⟨⟨none, given⟩, text⟩]) >>= (fun u => compileProperties s u (before ++ after))
      = compileAttributes t attributes >>= fun u =>
          u.addText given text >>= fun v => compileProperties s v after := by
        simp only [compileAttributes_append, compileAttributes_single, bind_assoc, compileProperties_skip after hbefore]
    _ = compileAttributes t attributes >>= fun u => compileProperties s u (before ++ .element e :: after) := by
        simp only [compileProperties_skip _ hbefore, compileProperties_givesText he htight]

/-- A greeting in pieces, with blanks around it. -/
def greeting : Element :=
  ⟨⟨none, "this.value"⟩, [], [.text "  Hello ", .comment " note ", .text " World", .instruction "pi" "x", .text "!\n"],
    ⟨2, 3⟩⟩

/-- The greeting stands behind a child and in front of another property, or is an attribute. -/
theorem greeting_as_attribute :
    Text.Tight "Hello  World!".toList ∧ greeting.GivesText "value" "Hello  World!" ∧
      compileElement looseKeys ⟨⟨none, "text"⟩, [⟨⟨none, "size"⟩, "5"⟩] ++ [⟨⟨none, "value"⟩, "Hello  World!"⟩],
          [.element ⟨⟨none, "panel"⟩, [], [], ⟨1, 7⟩⟩] ++ [.element ⟨⟨none, "this.title"⟩, [], [.text "T"], ⟨3, 3⟩⟩], ⟨1, 1⟩⟩ =
        compileElement looseKeys ⟨⟨none, "text"⟩, [⟨⟨none, "size"⟩, "5"⟩],
          [.element ⟨⟨none, "panel"⟩, [], [], ⟨1, 7⟩⟩] ++
            .element greeting :: [.element ⟨⟨none, "this.title"⟩, [], [.text "T"], ⟨3, 3⟩⟩], ⟨1, 1⟩⟩ := by
  have htight : Text.Tight "Hello  World!".toList := ⟨fun _ h => by cases h; rfl, fun _ h => by cases h; rfl⟩
  have hgreeting : greeting.GivesText "value" "Hello  World!" :=
    ⟨by decide, by decide, by decide, [' ', ' '], ['\n'], List.all_eq_true.mp rfl, List.all_eq_true.mp rfl, by decide⟩
  exact ⟨htight, hgreeting, attribute_as_element looseKeys htight hgreeting (by decide)⟩

end PageTemplates.Markup
