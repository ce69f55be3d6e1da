import PageTemplates.Proofs.Markup.Scanning

/-!
# What may stand between the tags of an element

The contents of an element are text, comments and instructions, and elements whose tags match (`Balanced`). A tag is one
only where its names can be resolved, so this depends on the namespaces in scope.

The assembly of a document keeps a stack of open elements. Contents leave the stack as it is, apart from what is put
into the innermost element (`foldlM_contents`); and whatever leaves it so are contents (`foldlM_document_iff`).
-/

namespace PageTemplates.Markup

/-! ## §1 Contents -/

/-- An opening tag whose names can be resolved, and the namespaces inside it. -/
def Opens (scope : Namespaces) (name : WrittenName) (attributes : List WrittenAttribute) (inner : Namespaces) : Prop :=
  ∃ location e, Assembly.element scope name attributes location = .ok (e, inner)

/-- A token that is a piece of contents by itself. -/
inductive Token.IsPiece : Token → Prop where
  | text {raw : List Char} (h : (textContent? raw).isSome) : IsPiece (.text raw)
  | literal (raw : List Char) : IsPiece (.literal raw)
  | comment (raw : List Char) : IsPiece (.comment raw)
  | instruction (target : String) (data : List Char) : IsPiece (.instruction target data)

/-- Contents of an element, by the namespaces inside it. -/
inductive Balanced : Namespaces → List Token → Prop where
  | nil {scope : Namespaces} : Balanced scope []
  | piece {scope : Namespaces} {t : Token} {rest : List Token} (h : t.IsPiece) (hrest : Balanced scope rest) :
      Balanced scope (t :: rest)
  | closed {scope inner : Namespaces} {name : WrittenName} {attributes : List WrittenAttribute} {rest : List Token}
      (left : Nat) (h : Opens scope name attributes inner) (hrest : Balanced scope rest) :
      Balanced scope (.opening name attributes true left :: rest)
  | element {scope inner : Namespaces} {name : WrittenName} {attributes : List WrittenAttribute}
      {contents rest : List Token} (left : Nat) (h : Opens scope name attributes inner)
      (hcontents : Balanced inner contents) (hrest : Balanced scope rest) :
      Balanced scope (.opening name attributes false left :: (contents ++ .closing name :: rest))

/-- The text is the contents of an element, if the namespaces inside the element are these. -/
def IsContents (scope : Namespaces) (content : String) : Prop :=
  ∃ tokens, Scan.tokens content.toList.length content.toList = .ok tokens ∧ Balanced scope tokens

/-- Where tags stand does not matter. -/
theorem Balanced.placed {scope : Namespaces} {tokens : List Token} (h : Balanced scope tokens) (place : Nat → Nat) :
    Balanced scope (tokens.map (.placed place)) := by
  induction h with
  | nil => exact .nil
  | piece h _ ih =>
    refine .piece ?_ ih
    cases h with
    | text h => exact .text h
    | literal raw => exact .literal raw
    | comment raw => exact .comment raw
    | instruction target data => exact .instruction target data
  | closed left h _ ih => exact .closed _ h ih
  -- the places of the two tags do not matter, nor do those in between
  | element left h _ _ ihcontents ihrest =>
    rw [List.map_cons, List.map_append, List.map_cons]
    exact .element _ h ihcontents ihrest

theorem balanced_moved_iff {scope : Namespaces} {tokens : List Token} (distance : Nat) :
    Balanced scope (tokens.map (.moved distance)) ↔ Balanced scope tokens := by
  refine ⟨fun h => ?_, fun h => h.placed _⟩
  have hback := h.placed (· - distance)
  rwa [List.map_map, Token.placed_comp_moved, List.map_id] at hback

/-! ## §2 Assembly -/

theorem Element.read_eq_ok_iff {text : String} {e : Element} :
    read text = .ok e ↔ ∃ tokens a, Token.scan text.toList = .ok tokens ∧
      tokens.foldlM (Assembly.step (locate text.toList)) ⟨[], none⟩ = .ok a ∧ a.complete = .ok e := by
  unfold read
  rw [Outcome.bind_eq_ok]
  simp only [Outcome.bind_eq_ok, exists_and_left]

namespace Assembly

variable {locate : Nat → Location} {opened : List OpenElement} {root : Option Element} {o : OpenElement}

/-- A tag opens an element if the namespaces that it declares are well-formed, and if with these, before those in scope,
the names of its attributes and its own name can be resolved. -/
theorem element_eq_ok_iff {scope inner : Namespaces} {name : WrittenName} {attributes : List WrittenAttribute}
    {location : Location} {e : Element} :
    element scope name attributes location = .ok (e, inner) ↔ name.qualifier ≠ "xmlns" ∧
      ∃ declared own proper uri, attributes.mapM declaredBy = .ok declared ∧ declaredNamespaces declared = .ok own ∧
        inner = own ++ scope ∧ properAttributes inner [] declared = .ok proper ∧
        namespaceOf? inner name.qualifier = .ok uri ∧ e = ⟨⟨uri, name.localName⟩, proper, [], location⟩ := by
  unfold element
  constructor
  · intro h
    split at h
    · cases h
    · rename_i hqualifier
      obtain ⟨declared, hdeclared, h⟩ := Outcome.bind_eq_ok.mp h
      obtain ⟨own, hown, h⟩ := Outcome.bind_eq_ok.mp h
      obtain ⟨proper, hproper, h⟩ := Outcome.bind_eq_ok.mp h
      obtain ⟨uri, huri, h⟩ := Outcome.bind_eq_ok.mp h
      cases h
      exact ⟨hqualifier, declared, own, proper, uri, hdeclared, hown, rfl, hproper, huri, rfl⟩
  · rintro ⟨hqualifier, declared, own, proper, uri, hdeclared, hown, rfl, hproper, huri, rfl⟩
    rw [if_neg hqualifier]
    refine Outcome.bind_eq_ok.mpr ⟨declared, hdeclared, ?_⟩
    refine Outcome.bind_eq_ok.mpr ⟨own, hown, ?_⟩
    refine Outcome.bind_eq_ok.mpr ⟨proper, hproper, ?_⟩
    exact Outcome.bind_eq_ok.mpr ⟨uri, huri, rfl⟩

/-- An element resolves its names in the same way wherever it stands. -/
theorem element_of_opens {scope inner : Namespaces} {name : WrittenName} {attributes : List WrittenAttribute}
    (h : Opens scope name attributes inner) (location : Location) :
    ∃ e, element scope name attributes location = .ok (e, inner) := by
  obtain ⟨elsewhere, e, h⟩ := h
  -- the location is put into the element last, and nothing else depends on it
  obtain ⟨hqualifier, declared, own, proper, uri, hdeclared, hown, hinner, hproper, huri, -⟩ := element_eq_ok_iff.mp h
  refine ⟨⟨⟨uri, name.localName⟩, proper, [], location⟩, element_eq_ok_iff.mpr ⟨hqualifier, ?_⟩⟩
  exact ⟨declared, own, proper, uri, hdeclared, hown, hinner, hproper, huri, rfl⟩

/-- The same open element with other contents. -/
def holding (o : OpenElement) (content : List (Piece Element)) : OpenElement :=
  { o with element := { o.element with content := content } }

theorem holding_self (o : OpenElement) : holding o o.element.content = o := by
  obtain ⟨written, ⟨name, attributes, content, location⟩, scope⟩ := o
  rfl

theorem step_piece {t : Token} (h : t.IsPiece) (locate : Nat → Location) (o : OpenElement) (opened : List OpenElement)
    (root : Option Element) :
    ∃ p, step locate ⟨o :: opened, root⟩ t = .ok ⟨holding o (p :: o.element.content) :: opened, root⟩ := by
  cases h with
  | text h =>
    obtain ⟨cs, hcs⟩ := Option.isSome_iff_exists.mp h
    exact ⟨_, by rw [step, hcs]; rfl⟩
  | literal raw => exact ⟨_, rfl⟩
  | comment raw => exact ⟨_, rfl⟩
  | instruction target data => exact ⟨_, rfl⟩

theorem step_opening {inner : Namespaces} {name : WrittenName} {attributes : List WrittenAttribute} {e : Element}
    {left : Nat} (closed : Bool) (h : element o.scope name attributes (locate left) = .ok (e, inner)) :
    step locate ⟨o :: opened, root⟩ (.opening name attributes closed left) =
      .ok (if closed then ⟨holding o (.element e :: o.element.content) :: opened, root⟩
        else ⟨⟨name, e, inner⟩ :: o :: opened, root⟩) := by
  show (element o.scope name attributes (locate left) >>= _) = _
  rw [h]
  cases closed <;> rfl

theorem step_closing {x : OpenElement} :
    step locate ⟨x :: o :: opened, root⟩ (.closing x.written) =
      .ok ⟨holding o (.element { x.element with content := x.element.content.reverse } :: o.element.content) :: opened,
        root⟩ := by
  show (if x.written = x.written then _ else _) = _
  rw [if_pos rfl]
  rfl

/-- Contents are put into the innermost open element, and change nothing else. -/
theorem foldlM_contents {scope : Namespaces} {tokens : List Token} (h : Balanced scope tokens)
    (hscope : o.scope = scope) (locate : Nat → Location) (opened : List OpenElement) (root : Option Element) :
    ∃ content, tokens.foldlM (step locate) ⟨o :: opened, root⟩ = .ok ⟨holding o content :: opened, root⟩ := by
  -- by induction on the contents, whatever is open around them and whatever has been put into it already
  induction h generalizing o opened with
  | nil => exact ⟨o.element.content, by rw [List.foldlM_nil, holding_self]; rfl⟩
  | piece h _ ih =>
    obtain ⟨p, hp⟩ := step_piece h locate o opened root
    obtain ⟨content, hrest⟩ := ih (o := holding o _) hscope opened
    exact ⟨content, Outcome.foldlM_cons_eq_ok_iff.mpr ⟨_, hp, hrest⟩⟩
  | @closed _ inner _ _ _ left h _ ih =>
    subst hscope
    obtain ⟨e, he⟩ := element_of_opens h (locate left)
    obtain ⟨content, hrest⟩ := ih (o := holding o (.element e :: o.element.content)) rfl opened
    exact ⟨content, Outcome.foldlM_cons_eq_ok_iff.mpr ⟨_, step_opening true he, hrest⟩⟩
  | @element _ inner name _ _ _ left h _ _ ihcontents ihrest =>
    subst hscope
    obtain ⟨e, he⟩ := element_of_opens h (locate left)
    -- what is inside is put into the new element, which is then put into the one that was open
    obtain ⟨inside, hinside⟩ := ihcontents (o := ⟨name, e, inner⟩) rfl (o :: opened)
    obtain ⟨content, hrest⟩ := ihrest (o := holding o _) rfl opened
    refine ⟨content, Outcome.foldlM_cons_eq_ok_iff.mpr ⟨_, step_opening false he, ?_⟩⟩
    rw [if_neg Bool.false_ne_true]
    refine Outcome.foldlM_append_eq_ok_iff.mpr ⟨_, hinside, ?_⟩
    exact Outcome.foldlM_cons_eq_ok_iff.mpr ⟨_, step_closing (x := holding ⟨name, e, inner⟩ inside), hrest⟩

/-- An element with its contents is a document. -/
theorem foldlM_document {inner : Namespaces} {name : WrittenName} {attributes : List WrittenAttribute} {e : Element}
    {contents : List Token} {left : Nat} (h : element [] name attributes (locate left) = .ok (e, inner))
    (hcontents : Balanced inner contents) :
    ∃ content, (.opening name attributes false left :: (contents ++ [.closing name])).foldlM (step locate) ⟨[], none⟩ =
      .ok ⟨[], some { e with content := content }⟩ := by
  obtain ⟨inside, hinside⟩ := foldlM_contents (o := ⟨name, e, inner⟩) hcontents rfl locate [] none
  -- the root is the first to be opened
  have hopening : step locate ⟨[], none⟩ (.opening name attributes false left) = .ok ⟨[⟨name, e, inner⟩], none⟩ :=
    Outcome.bind_eq_ok.mpr ⟨_, h, rfl⟩
  refine ⟨inside.reverse, Outcome.foldlM_cons_eq_ok_iff.mpr ⟨_, hopening, ?_⟩⟩
  refine Outcome.foldlM_append_eq_ok_iff.mpr ⟨_, hinside, ?_⟩
  exact Outcome.foldlM_cons_eq_ok_iff.mpr ⟨_, if_pos rfl, List.foldlM_nil⟩

/-! ## §3 Nothing else is accepted -/

/-- What one more token may do while an element is open. -/
inductive Advances (locate : Nat → Location) (o : OpenElement) (opened : List OpenElement) (root : Option Element) :
    Token → Assembly → Prop where
  | piece {t : Token} (h : t.IsPiece) (p : Piece Element) :
      Advances locate o opened root t ⟨holding o (p :: o.element.content) :: opened, root⟩
  | closed {name : WrittenName} {attributes : List WrittenAttribute} {e : Element} {inner : Namespaces} (left : Nat)
      (h : element o.scope name attributes (locate left) = .ok (e, inner)) :
      Advances locate o opened root (.opening name attributes true left)
        ⟨holding o (.element e :: o.element.content) :: opened, root⟩
  | opening {name : WrittenName} {attributes : List WrittenAttribute} {e : Element} {inner : Namespaces} (left : Nat)
      (h : element o.scope name attributes (locate left) = .ok (e, inner)) :
      Advances locate o opened root (.opening name attributes false left) ⟨⟨name, e, inner⟩ :: o :: opened, root⟩
  | closing (e : Element) : Advances locate o opened root (.closing o.written) (putElement ⟨opened, root⟩ e)

theorem advances_of_step {t : Token} {a : Assembly} (h : step locate ⟨o :: opened, root⟩ t = .ok a) :
    Advances locate o opened root t a := by
  cases t with
  | opening name attributes closed left =>
    obtain ⟨⟨e, inner⟩, he, h⟩ := Outcome.bind_eq_ok.mp h
    cases closed <;> cases h
    · exact .opening left he
    · exact .closed left he
  | closing name =>
    replace h : (if o.written = name then Except.ok _ else Except.error _) = Except.ok a := h
    split at h <;> cases h
    rename_i hname
    subst hname
    exact .closing _
  | text raw =>
    cases hcs : textContent? raw with
    | none =>
      rw [step, hcs] at h
      cases h
    | some cs =>
      rw [step, hcs] at h
      cases h
      exact .piece (.text (by rw [hcs]; rfl)) _
  | literal raw =>
    cases h
    exact .piece (.literal raw) _
  | comment raw =>
    cases h
    exact .piece (.comment raw) _
  | instruction target data =>
    cases h
    exact .piece (.instruction target data) _

/-- What may become of an open element: all tokens are contents of it, or those before its closing tag are, or one of
the elements inside it is left open. -/
inductive Leaves (locate : Nat → Location) (o : OpenElement) (opened : List OpenElement) (root : Option Element)
    (a : Assembly) : List Token → Prop where
  | contents {tokens : List Token} (h : Balanced o.scope tokens) (hopened : a.opened.length = opened.length + 1) :
      Leaves locate o opened root a tokens
  | closed (contents : List Token) {rest : List Token} (e : Element) (h : Balanced o.scope contents)
      (hrest : rest.foldlM (step locate) (putElement ⟨opened, root⟩ e) = .ok a) :
      Leaves locate o opened root a (contents ++ .closing o.written :: rest)
  | nested {tokens : List Token} (hopened : opened.length + 1 < a.opened.length) : Leaves locate o opened root a tokens

/-- Something that is put into an open element does not change what becomes of it. -/
theorem Leaves.cons {t : Token} {tokens : List Token} {a : Assembly} {content : List (Piece Element)}
    (hcons : ∀ {rest}, Balanced o.scope rest → Balanced o.scope (t :: rest))
    (h : Leaves locate (holding o content) opened root a tokens) : Leaves locate o opened root a (t :: tokens) := by
  cases h with
  | contents h hopened => exact .contents (hcons h) hopened
  | closed contents e h hrest => exact .closed (t :: contents) e (hcons h) hrest
  | nested hopened => exact .nested hopened

theorem leaves_of_foldlM {tokens : List Token} {a : Assembly} (bound : Nat) (hbound : tokens.length ≤ bound)
    (h : tokens.foldlM (step locate) ⟨o :: opened, root⟩ = .ok a) : Leaves locate o opened root a tokens := by
  -- the induction is on a bound, because what follows an element inside is a later part of the list than its tail
  induction bound generalizing o opened tokens with
  | zero =>
    cases List.length_eq_zero_iff.mp (Nat.le_zero.mp hbound)
    rw [List.foldlM_nil] at h
    cases h
    exact .contents .nil rfl
  | succ bound ih =>
    cases tokens with
    | nil =>
      rw [List.foldlM_nil] at h
      cases h
      exact .contents .nil rfl
    | cons t rest =>
      obtain ⟨b, hb, h⟩ := Outcome.foldlM_cons_eq_ok_iff.mp h
      have hrest : rest.length ≤ bound := Nat.le_of_succ_le_succ hbound
      -- each token does one of four things to the open element
      cases advances_of_step hb with
      | piece hpiece p => exact (ih hrest h).cons (.piece hpiece)
      | closed left he => exact (ih hrest h).cons (.closed left ⟨_, _, he⟩)
      | closing e => exact .closed [] e .nil h
      | @opening name attributes e inner left he =>
        -- first comes what becomes of the new element, and then what becomes of the one it stands in
        cases ih hrest h with
        | contents _ hopened => exact .nested (by rw [hopened]; exact Nat.lt_succ_self _)
        | nested hopened => exact .nested (Nat.lt_of_succ_lt hopened)
        | @closed contents after e' hcontents hafter =>
          have hlength : after.length ≤ bound := by
            rw [List.length_append, List.length_cons] at hrest
            omega
          have hopens : Opens o.scope name attributes inner := ⟨_, _, he⟩
          cases ih (o := holding o (.element e' :: o.element.content)) hlength hafter with
          | contents hlater hopened => exact .contents (.element left hopens hcontents hlater) hopened
          | nested hopened => exact .nested hopened
          | closed later e'' hlater hlast =>
            have hall : Leaves locate o opened root a _ := .closed _ e'' (.element left hopens hcontents hlater) hlast
            rw [List.cons_append, List.append_assoc, List.cons_append] at hall
            exact hall

/-- After the root element there are no more tags, and it stays the root. -/
theorem step_complete {t : Token} {e : Element} {a : Assembly} (h : step locate ⟨[], some e⟩ t = .ok a) :
    (∀ name, t ≠ .closing name) ∧ a = ⟨[], some e⟩ := by
  cases t with
  | opening name attributes closed left => cases h
  | closing name => cases h
  | literal raw => cases h
  | text raw =>
    replace h : (if raw.all isSpace then Except.ok _ else Except.error _) = Except.ok a := h
    split at h <;> cases h
    exact ⟨nofun, rfl⟩
  | comment raw =>
    cases h
    exact ⟨nofun, rfl⟩
  | instruction target data =>
    cases h
    exact ⟨nofun, rfl⟩

theorem not_closing_of_foldlM {tokens : List Token} {e : Element} {a : Assembly}
    (h : tokens.foldlM (step locate) ⟨[], some e⟩ = .ok a) (name : WrittenName) : .closing name ∉ tokens := by
  induction tokens with
  | nil => exact List.not_mem_nil
  | cons t rest ih =>
    obtain ⟨b, hb, h⟩ := Outcome.foldlM_cons_eq_ok_iff.mp h
    obtain ⟨hclosing, rfl⟩ := step_complete hb
    exact List.not_mem_cons_of_ne_of_not_mem (hclosing name).symm (ih h)

theorem length_opened_of_complete {a : Assembly} {e : Element} (h : a.complete = .ok e) : a.opened.length = 0 := by
  unfold complete at h
  split at h
  · cases h
  · cases h
  · rename_i hopened _
    rw [hopened]
    rfl

/-- What stands between two tags is a document with them just if they match and it is contents. -/
theorem foldlM_document_iff {name last : WrittenName} {attributes : List WrittenAttribute} {contents : List Token}
    {left : Nat} :
    (∃ a e, (.opening name attributes false left :: (contents ++ [.closing last])).foldlM (step locate) ⟨[], none⟩ =
      .ok a ∧ a.complete = .ok e) ↔
      last = name ∧ ∃ inner, Opens [] name attributes inner ∧ Balanced inner contents := by
  constructor
  · rintro ⟨a, root, h, hcomplete⟩
    obtain ⟨b, hb, h⟩ := Outcome.foldlM_cons_eq_ok_iff.mp h
    obtain ⟨⟨e, inner⟩, he, hb⟩ := Outcome.bind_eq_ok.mp hb
    cases hb
    have hopened := length_opened_of_complete hcomplete
    generalize htokens : contents ++ [Token.closing last] = tokens at h
    -- the stack is empty in the end, so the root element has been closed
    cases leaves_of_foldlM _ (Nat.le_refl _) h with
    | contents _ hlength => cases hopened.symm.trans hlength
    | nested hlength =>
      rw [hopened] at hlength
      cases hlength
    | @closed before rest e' hbefore hrest =>
      -- nothing can follow the closing tag, for the last token is such a tag
      rcases List.eq_nil_or_concat rest with rfl | ⟨more, t, rfl⟩
      · obtain ⟨rfl, hlast⟩ := List.append_inj' htokens rfl
        cases hlast
        exact ⟨rfl, inner, ⟨_, _, he⟩, hbefore⟩
      · rw [List.concat_eq_append, ← List.cons_append, ← List.append_assoc] at htokens
        obtain ⟨-, hlast⟩ := List.append_inj' htokens rfl
        cases hlast
        refine absurd ?_ (not_closing_of_foldlM hrest last)
        rw [List.concat_eq_append]
        exact List.mem_concat_self
  · rintro ⟨rfl, inner, hopens, hcontents⟩
    obtain ⟨e, he⟩ := element_of_opens hopens (locate left)
    obtain ⟨content, hcontent⟩ := foldlM_document he hcontents
    exact ⟨_, _, hcontent, rfl⟩

end Assembly

end PageTemplates.Markup
