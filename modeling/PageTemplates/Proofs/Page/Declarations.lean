import PageTemplates.Page.Fragment
import PageTemplates.Proofs.Markup.AttributeValues
import PageTemplates.Proofs.Markup.Contents

/-!
# Namespaces that wrapping declares

Loose content is wrapped in a root element, on which the namespaces of the configuration are declared. Their names are
written between the quotes as they are, so the root element has the namespaces it should have just if no character in
them means something else there (`wrapped_declares_iff`). The content may be anything that can stand in an element with
these namespaces, and other content is refused (`read_wrap_iff`).

## Structure

- §1 says which configurations can be declared, and how wrapped content is written.
- §2 reads the declarations, §3 all of the wrapped content.
-/

namespace PageTemplates

open Markup Markup.Scan

/-! ## §1 Configurations -/

/-- A qualifier that may be declared for any namespace. -/
def IsQualifier (s : String) : Prop := IsPart s.toList ∧ s ≠ "xml" ∧ s ≠ "xmlns"

/-- A namespace that may be declared for any qualifier: a text of characters of XML, and not one of the reserved ones. -/
structure IsNamespace (uri : String) : Prop where
  nonempty : uri ≠ ""
  allowed : ∀ c ∈ uri.toList, isAllowed c = true
  notXml : uri ≠ xmlUri
  notXmlns : uri ≠ xmlnsUri

instance (s : String) : Decidable (IsQualifier s) := inferInstanceAs (Decidable (_ ∧ _))

instance (uri : String) : Decidable (IsNamespace uri) :=
  decidable_of_iff (uri ≠ "" ∧ uri.toList.all isAllowed = true ∧ uri ≠ xmlUri ∧ uri ≠ xmlnsUri)
    ⟨fun ⟨h₁, h₂, h₃, h₄⟩ => ⟨h₁, List.all_eq_true.mp h₂, h₃, h₄⟩,
      fun ⟨h₁, h₂, h₃, h₄⟩ => ⟨h₁, List.all_eq_true.mpr h₂, h₃, h₄⟩⟩

/-- A configuration that can be declared on a root element with a certain name. -/
structure PageConfig.Declarable (config : PageConfig) (root : WrittenName) : Prop where
  spelled : root.Spells config.rootTag.toList
  declared : root.qualifier = "" ∨ root.qualifier ∈ config.namespaces.map Prod.fst
  qualifiers : ∀ entry ∈ config.namespaces, IsQualifier entry.1
  distinct : (config.namespaces.map Prod.fst).Nodup
  uris : ∀ entry ∈ config.namespaces, IsNamespace entry.2

/-- The characters that mean something else between two double quotes than themselves. -/
def escaped : List Char := ['"', '<', '&', '\t', '\n', '\r']

/-- A text that can stand between two double quotes as it is. -/
def IsVerbatim (s : String) : Prop := ∀ c ∈ s.toList, c ∉ escaped

instance (s : String) : Decidable (IsVerbatim s) := List.decidableBAll (fun c => c ∉ escaped) s.toList

theorem isVerbatim_iff {s : String} :
    IsVerbatim s ↔ '"' ∉ s.toList ∧ '<' ∉ s.toList ∧ ∀ c ∈ s.toList, StandsForItself c := by
  have hchar : ∀ c, c ∉ escaped ↔ c ≠ '"' ∧ c ≠ '<' ∧ StandsForItself c := by
    intro c
    simp [escaped, StandsForItself]
  constructor
  · intro h
    exact ⟨fun hmem => ((hchar _).mp (h _ hmem)).1 rfl, fun hmem => ((hchar _).mp (h _ hmem)).2.1 rfl,
      fun c hc => ((hchar c).mp (h c hc)).2.2⟩
  · rintro ⟨hquote, hmark, hself⟩ c hc
    exact (hchar c).mpr ⟨fun h => hquote (h ▸ hc), fun h => hmark (h ▸ hc), hself c hc⟩

namespace PageConfig

/-- The declarations of some namespaces. -/
def declarations (namespaces : Namespaces) : List Char := namespaces.flatMap fun entry => (declaration entry).toList

theorem declarations_cons (entry : String × String) (rest : Namespaces) (after : List Char) :
    declarations (entry :: rest) ++ after =
      ' ' :: ("xmlns".toList ++ ':' :: (entry.1.toList ++ '=' :: '"' ::
        (entry.2.toList ++ '"' :: (declarations rest ++ after)))) := by
  simp [declarations, declaration]

theorem toList_wrap (config : PageConfig) (content : String) :
    (config.wrap content).toList =
      '<' :: (config.rootTag.toList ++ (declarations config.namespaces ++ '>' :: (content.toList ++
        '<' :: '/' :: (config.rootTag.toList ++ ['>'])))) := by
  simp [wrap, declarations, String.toList_join, List.flatMap_map]

end PageConfig

/-! ## §2 Declarations -/

section Declarations

variable {uri rest raw next : List Char} {a : WrittenAttribute}

theorem upTo_quote (hallowed : ∀ c ∈ uri, isAllowed c = true) (hquote : '"' ∉ uri) :
    upTo ['"'] (uri ++ '"' :: rest) = .ok (uri, rest) := by
  -- no character of the name ends the value before the quote
  induction uri with
  | nil => rfl
  | cons c uri ih =>
    obtain ⟨hc, huri⟩ := List.ne_and_not_mem_of_not_mem_cons hquote
    obtain ⟨hallow, hallowed⟩ := List.forall_mem_cons.mp hallowed
    rw [List.cons_append, upTo, Text.after?, if_neg hc]
    dsimp only
    rw [if_pos hallow, ih hallowed huri]
    rfl

/-- What is read up to a quote is all that stands before the last one, or less. -/
theorem of_upTo_quote (h : upTo ['"'] (uri ++ '"' :: rest) = .ok (raw, next)) :
    ('"' ∉ uri ∧ raw = uri ∧ next = rest) ∨ raw.length < uri.length := by
  induction uri generalizing raw with
  | nil =>
    cases h
    exact .inl ⟨List.not_mem_nil, rfl, rfl⟩
  | cons c uri ih =>
    rw [List.cons_append, upTo, Text.after?] at h
    -- a quote in the name ends the value too early
    by_cases hc : '"' = c
    · rw [if_pos hc] at h
      cases h
      exact .inr (Nat.succ_pos _)
    · rw [if_neg hc] at h
      dsimp only at h
      split at h
      · obtain ⟨⟨inner, _⟩, hinner, heq⟩ := Outcome.map_eq_ok.mp h
        cases heq
        rcases ih hinner with ⟨huri, rfl, rfl⟩ | hlength
        · exact .inl ⟨List.not_mem_cons_of_ne_of_not_mem hc huri, rfl, rfl⟩
        · exact .inr (Nat.succ_lt_succ hlength)
      · cases h

/-- The attribute that declares a qualifier. -/
theorem quotedAttribute_declaration_iff {qualifier : String} (hq : IsPart qualifier.toList) :
    quotedAttribute ("xmlns".toList ++ ':' :: (qualifier.toList ++ '=' :: '"' :: uri)) = .ok (a, next) ↔
      a.name = ⟨"xmlns", qualifier⟩ ∧ upTo ['"'] uri = .ok (a.raw, next) ∧ a.raw.contains '<' = false := by
  -- the name of the attribute is read up to the equals sign, whatever the value is
  have hname : writtenName ("xmlns".toList ++ ':' :: (qualifier.toList ++ '=' :: '"' :: uri)) =
      .ok (⟨"xmlns", qualifier⟩, '=' :: '"' :: uri) := by
    have hspells : WrittenName.Spells ⟨"xmlns", qualifier⟩ ("xmlns".toList ++ ':' :: qualifier.toList) :=
      .qualified (by decide) hq
    have hread : writtenName ("xmlns".toList ++ ':' :: qualifier.toList ++ '=' :: '"' :: uri) =
        .ok (⟨"xmlns", qualifier⟩, '=' :: '"' :: uri) := writtenName_spelled hspells (by decide)
    rwa [List.append_assoc, List.cons_append] at hread
  rw [quotedAttribute_eq_ok_iff]
  constructor
  · rintro ⟨afterName, afterSign, quote, value, hname', hsign, hvalue, -, hraw, hmark⟩
    obtain ⟨haname, rfl⟩ := Prod.mk.inj (Except.ok.inj (hname'.symm.trans hname))
    cases hsign
    cases hvalue
    exact ⟨haname, hraw, hmark⟩
  · rintro ⟨haname, hraw, hmark⟩
    exact ⟨'=' :: '"' :: uri, '"' :: uri, '"', uri, haname ▸ hname, rfl, rfl, .inl rfl, hraw, hmark⟩

/-- What the declaration of a namespace turns out to be. -/
theorem declaredBy_eq_ok_iff {qualifier : String} {d : Declared} (hq : IsQualifier qualifier)
    (ha : a.name = ⟨"xmlns", qualifier⟩) :
    declaredBy a = .ok d ↔ ∃ cs, attributeContent? a.raw = some cs ∧ String.ofList cs ≠ xmlUri ∧
      String.ofList cs ≠ xmlnsUri ∧ d = .binding qualifier (String.ofList cs) := by
  unfold declaredBy
  rw [ha]
  -- the value has to be read first, and must not be one of the reserved names
  cases attributeContent? a.raw with
  | none => exact iff_of_false nofun (by rintro ⟨_, h, -⟩; cases h)
  | some cs =>
    dsimp only
    rw [if_pos rfl, if_neg hq.2.1]
    constructor
    · intro h
      split at h
      · cases h
      · split at h <;> cases h
        exact ⟨cs, rfl, ‹_›, ‹_›, rfl⟩
    · rintro ⟨_, h, hxml, hxmlns, rfl⟩
      cases h
      rw [if_neg hxmlns, if_neg hxml]

/-- The declarations are read as they are meant if all names can stand between the quotes. -/
theorem readsAttributes_declarations {namespaces : Namespaces}
    (hqualifiers : ∀ entry ∈ namespaces, IsQualifier entry.1) (huris : ∀ entry ∈ namespaces, IsNamespace entry.2)
    (hverbatim : ∀ entry ∈ namespaces, IsVerbatim entry.2) (after : List Char) :
    ReadsAttributes (PageConfig.declarations namespaces ++ '>' :: after)
      (namespaces.map fun entry => ⟨⟨"xmlns", entry.1⟩, entry.2.toList⟩) false after := by
  induction namespaces with
  | nil => exact .done rfl
  | cons entry rest ih =>
    obtain ⟨hqualifier, hqualifiers⟩ := List.forall_mem_cons.mp hqualifiers
    obtain ⟨huri, huris⟩ := List.forall_mem_cons.mp huris
    obtain ⟨hfirst, hverbatim⟩ := List.forall_mem_cons.mp hverbatim
    obtain ⟨hquote, hmark, -⟩ := isVerbatim_iff.mp hfirst
    rw [PageConfig.declarations_cons]
    refine .cons rfl ?_ (ih hqualifiers huris hverbatim)
    refine (quotedAttribute_declaration_iff hqualifier.1).mpr ⟨rfl, upTo_quote huri.allowed hquote, ?_⟩
    exact eq_false_of_ne_true fun h => hmark (List.contains_iff_mem.mp h)

theorem mapM_declaredBy {namespaces : Namespaces} (hqualifiers : ∀ entry ∈ namespaces, IsQualifier entry.1)
    (huris : ∀ entry ∈ namespaces, IsNamespace entry.2) (hverbatim : ∀ entry ∈ namespaces, IsVerbatim entry.2) :
    (namespaces.map fun entry => (⟨⟨"xmlns", entry.1⟩, entry.2.toList⟩ : WrittenAttribute)).mapM declaredBy =
      .ok (namespaces.map fun entry => .binding entry.1 entry.2) := by
  rw [Outcome.mapM_eq_ok_iff, List.forall₂_map_left_iff, List.forall₂_map_right_iff, List.forall₂_same]
  intro entry hentry
  have huri := huris entry hentry
  have hself := attributeContent?_eq_self_iff.mpr (isVerbatim_iff.mp (hverbatim entry hentry)).2.2
  refine (declaredBy_eq_ok_iff (hqualifiers entry hentry) rfl).mpr ⟨_, hself, ?_⟩
  rw [String.ofList_toList]
  exact ⟨huri.notXml, huri.notXmlns, rfl⟩

/-- A qualifier is looked up behind another one that is not among the rest. -/
theorem lookup_cons_of_distinct {first uri : String} {entry : String × String} {others rest : Namespaces}
    (hfirst : first ∉ rest.map Prod.fst) (hentry : entry ∈ rest) :
    List.lookup entry.1 ((first, uri) :: others) = others.lookup entry.1 := by
  have hne : entry.1 ≠ first := fun heq => hfirst (heq ▸ List.mem_map_of_mem hentry)
  rw [List.lookup_cons, beq_false_of_ne hne]

theorem lookup_of_distinct {namespaces : Namespaces} (h : (namespaces.map Prod.fst).Nodup) :
    ∀ entry ∈ namespaces, namespaces.lookup entry.1 = some entry.2 := by
  -- an entry is found unless one before it has the same qualifier, which none has
  induction namespaces with
  | nil => exact List.forall_mem_nil _
  | cons first rest ih =>
    obtain ⟨hfirst, hrest⟩ := List.nodup_cons.mp h
    refine List.forall_mem_cons.mpr ⟨List.lookup_cons_self, fun entry hentry => ?_⟩
    rw [lookup_cons_of_distinct hfirst hentry]
    exact ih hrest entry hentry

/-- Different qualifiers may be declared together. -/
theorem declaredNamespaces_bindings {namespaces : Namespaces} (h : (namespaces.map Prod.fst).Nodup) :
    declaredNamespaces (namespaces.map fun entry => .binding entry.1 entry.2) = .ok namespaces := by
  induction namespaces with
  | nil => rfl
  | cons entry rest ih =>
    obtain ⟨hentry, hrest⟩ := List.nodup_cons.mp h
    have hnone : rest.lookup entry.1 = none := by
      rw [List.lookup_eq_none_iff]
      intro other hother
      exact bne_iff_ne.mpr fun heq => hentry (heq ▸ List.mem_map_of_mem hother)
    refine Outcome.bind_eq_ok.mpr ⟨rest, ih hrest, ?_⟩
    rw [if_neg]
    rw [hnone]
    rintro ⟨-, h⟩
    cases h

/-- If all declared names come out as they are meant, each of them can stand between the quotes. -/
theorem isVerbatim_of_reads {namespaces own : Namespaces} {after next : List Char} {found : List WrittenAttribute}
    {closed : Bool} {declared : List Declared} (hqualifiers : ∀ entry ∈ namespaces, IsQualifier entry.1)
    (hdistinct : (namespaces.map Prod.fst).Nodup)
    (hreads : ReadsAttributes (PageConfig.declarations namespaces ++ after) found closed next)
    (hdeclared : found.mapM declaredBy = .ok declared) (hown : declaredNamespaces declared = .ok own)
    (hbound : ∀ entry ∈ namespaces, own.lookup entry.1 = some entry.2) :
    ∀ entry ∈ namespaces, IsVerbatim entry.2 := by
  -- by induction on the declarations, whatever attributes were read and whatever they declare
  induction namespaces generalizing found declared own with
  | nil => exact List.forall_mem_nil _
  | cons entry rest ih =>
    obtain ⟨hqualifier, hqualifiers⟩ := List.forall_mem_cons.mp hqualifiers
    obtain ⟨hentry, hdistinct⟩ := List.nodup_cons.mp hdistinct
    obtain ⟨hfirst, hbound⟩ := List.forall_mem_cons.mp hbound
    rw [PageConfig.declarations_cons] at hreads
    cases hreads with
    | done h => cases h
    | closed h => cases h
    | @cons _ next _ a more _ _ ha hmore =>
      obtain ⟨hname, hraw, hmark⟩ := (quotedAttribute_declaration_iff hqualifier.1).mp ha
      -- the first attribute turns out to be the first declaration, with whatever was read up to a quote
      obtain ⟨d, ds, hd, hds, rfl⟩ := List.forall₂_cons_left_iff.mp (Outcome.mapM_eq_ok_iff.mp hdeclared)
      obtain ⟨cs, hcs, -, -, rfl⟩ := (declaredBy_eq_ok_iff hqualifier hname).mp hd
      obtain ⟨others, hothers, h⟩ := Outcome.bind_eq_ok.mp hown
      split at h <;> cases h
      obtain rfl : cs = entry.2.toList := by
        rw [List.lookup_cons_self] at hfirst
        rw [← Option.some.inj hfirst, String.toList_ofList]
      -- either all of the name was read, or it was cut short by a quote in it
      rcases of_upTo_quote hraw with ⟨hquote, hall, rfl⟩ | hshorter
      · rw [hall] at hcs hmark
        refine List.forall_mem_cons.mpr ⟨isVerbatim_iff.mpr ⟨hquote, ?_, attributeContent?_eq_self_iff.mp hcs⟩, ?_⟩
        · exact fun hmem => Bool.false_ne_true (hmark.symm.trans (List.contains_iff_mem.mpr hmem))
        · have hrest : more.mapM declaredBy = .ok ds := Outcome.mapM_eq_ok_iff.mpr hds
          refine ih hqualifiers hdistinct hmore hrest hothers fun other hother => ?_
          rw [← lookup_cons_of_distinct hentry hother]
          exact hbound other hother
      · -- what is read is not longer than what is written, and this is shorter than the name
        have hlength := length_attributeContent? hcs
        omega

end Declarations

/-! ## §3 Wrapped content -/

/-- The token is an opening tag. -/
def Markup.Token.IsOpening (t : Token) : Prop := ∃ name attributes closed left, t = .opening name attributes closed left

/-- The namespaces in scope inside the root element of a document: those of the first tag. -/
def Markup.RootScope (text : String) (scope : Namespaces) : Prop :=
  ∃ before name attributes closed left after,
    Token.scan text.toList = .ok (before ++ .opening name attributes closed left :: after) ∧
      (∀ t ∈ before, ¬ t.IsOpening) ∧ Opens [] name attributes scope

section Wrapped

variable {config : PageConfig} {root : WrittenName} {content : String}

/-- The name of the root element ends where its declarations begin. -/
theorem declarations_head (namespaces : Namespaces) (after : List Char) :
    ∃ c tail, PageConfig.declarations namespaces ++ '>' :: after = c :: tail ∧ isNameChar c = false := by
  cases namespaces with
  | nil => exact ⟨'>', after, rfl, by decide⟩
  | cons entry rest => exact ⟨' ', _, PageConfig.declarations_cons entry rest _, by decide⟩

theorem isNameStart_ne {c d : Char} (hc : isNameStart c = true) (hd : isNameStart d = false) : c ≠ d := by
  rintro rfl
  exact Bool.false_ne_true (hd.symm.trans hc)

/-- How wrapped content begins. -/
theorem token_root (h : config.Declarable root) (after : List Char) :
    ∃ left, token ('<' :: (config.rootTag.toList ++ (PageConfig.declarations config.namespaces ++ '>' :: after))) =
      openingTag left (config.rootTag.toList ++ (PageConfig.declarations config.namespaces ++ '>' :: after)) := by
  obtain ⟨c, tail, hword, hc⟩ := h.spelled.head
  rw [hword]
  exact ⟨_, token_opening (isNameStart_ne hc (by decide)) (isNameStart_ne hc (by decide))
    (isNameStart_ne hc (by decide))⟩

/-- The name of the root element is read first, and then its declarations. -/
theorem writtenName_root (h : config.Declarable root) (after : List Char) :
    writtenName (config.rootTag.toList ++ (PageConfig.declarations config.namespaces ++ '>' :: after)) =
      .ok (root, PageConfig.declarations config.namespaces ++ '>' :: after) := by
  obtain ⟨c, tail, hhead, hc⟩ := declarations_head config.namespaces after
  rw [hhead]
  exact writtenName_spelled h.spelled hc

theorem reads_of_token_root (h : config.Declarable root) {after rest : List Char} {t : Markup.Token}
    (ht : token ('<' :: (config.rootTag.toList ++ (PageConfig.declarations config.namespaces ++ '>' :: after))) =
      .ok (t, rest)) :
    ∃ found closed left, t = .opening root found closed left ∧
      ReadsAttributes (PageConfig.declarations config.namespaces ++ '>' :: after) found closed rest := by
  obtain ⟨left, htoken⟩ := token_root h after
  rw [htoken] at ht
  obtain ⟨name, afterName, found, closed, hname, hfound, rfl⟩ := openingTag_eq_ok_iff.mp ht
  cases (writtenName_root h after).symm.trans hname
  exact ⟨found, closed, left, rfl, (readsAttributes_of_attributes hfound).1⟩

theorem length_declarations (namespaces : Namespaces) :
    namespaces.length ≤ (PageConfig.declarations namespaces).length := by
  induction namespaces with
  | nil => exact Nat.le_refl _
  | cons entry rest ih =>
    have hcons := congrArg List.length (PageConfig.declarations_cons entry rest [])
    simp only [List.append_nil, List.length_cons, List.length_append] at hcons ⊢
    omega

theorem token_root_of_verbatim (h : config.Declarable root)
    (hverbatim : ∀ entry ∈ config.namespaces, IsVerbatim entry.2) (after : List Char) :
    ∃ left, token ('<' :: (config.rootTag.toList ++ (PageConfig.declarations config.namespaces ++ '>' :: after))) =
      .ok (.opening root (config.namespaces.map fun entry => ⟨⟨"xmlns", entry.1⟩, entry.2.toList⟩) false left, after) := by
  obtain ⟨left, htoken⟩ := token_root h after
  refine ⟨left, htoken.trans (openingTag_eq_ok_iff.mpr ⟨_, _, _, _, writtenName_root h after, ?_, rfl⟩)⟩
  refine attributes_of_reads (readsAttributes_declarations h.qualifiers h.uris hverbatim after) ?_
  -- each declaration has a character at least, so the scanner has enough steps
  have hlength := length_declarations config.namespaces
  rw [List.length_map, List.length_append]
  omega

/-- A text that begins with the tag of an element has no declaration of the document. -/
theorem start_wrap (h : config.Declarable root) (content : String) :
    start (config.wrap content).toList = .ok (config.wrap content).toList := by
  obtain ⟨c, tail, hword, hc⟩ := h.spelled.head
  have hinstruction : '?' ≠ c := Ne.symm (isNameStart_ne hc (by decide))
  rw [PageConfig.toList_wrap, hword, List.cons_append]
  generalize tail ++ _ = cs
  have hdeclaration : Text.after? "<?xml ".toList ('<' :: c :: cs) = none := if_neg hinstruction
  unfold start
  split
  · rename_i hmark
    cases hmark
  · dsimp only
    rw [hdeclaration]

/-- The tokens of wrapped content: the tags of the root element, and between them the tokens of the content. -/
theorem scan_wrap (h : config.Declarable root) (hverbatim : ∀ entry ∈ config.namespaces, IsVerbatim entry.2)
    {tokens : List Markup.Token} (htokens : Scan.tokens content.toList.length content.toList = .ok tokens) :
    ∃ left distance, Token.scan (config.wrap content).toList =
      .ok (.opening root (config.namespaces.map fun entry => ⟨⟨"xmlns", entry.1⟩, entry.2.toList⟩) false left ::
        (tokens.map (.moved distance) ++ [.closing root])) := by
  obtain ⟨hcontent, hbound⟩ := readsTokens_of_tokens htokens
  -- the content is scanned in front of the closing tag, and behind the opening one
  have hclosing : ReadsTokens ('<' :: '/' :: (config.rootTag.toList ++ ['>'])) [.closing root] := by
    have htoken : token ('<' :: '/' :: (config.rootTag.toList ++ ['>'])) = .ok (.closing root, []) :=
      Outcome.bind_eq_ok.mpr ⟨_, writtenName_spelled h.spelled (by decide), rfl⟩
    exact .cons (List.cons_ne_nil _ _) htoken .nil
  obtain ⟨left, hopening⟩ := token_root_of_verbatim h hverbatim
    (content.toList ++ '<' :: '/' :: (config.rootTag.toList ++ ['>']))
  have hreads := ReadsTokens.cons (List.cons_ne_nil _ _) hopening (hcontent.append hclosing)
  rw [← PageConfig.toList_wrap] at hreads
  refine ⟨left, _, Outcome.bind_eq_ok.mpr ⟨_, start_wrap h content, tokens_of_reads hreads ?_⟩⟩
  rw [PageConfig.toList_wrap]
  simp only [List.length_cons, List.length_append, List.length_map, List.length_nil]
  omega

/-- The name of the root element is in the namespace that is declared for its qualifier. -/
def PageConfig.rootName (config : PageConfig) (root : WrittenName) : Name :=
  ⟨config.namespaces.lookup root.qualifier, root.localName⟩

theorem properAttributes_bindings (scope namespaces : Namespaces) :
    properAttributes scope [] (namespaces.map fun entry => .binding entry.1 entry.2) = .ok [] := by
  induction namespaces with
  | nil => rfl
  | cons entry rest ih => exact ih

theorem namespaceOf?_root (h : config.Declarable root) :
    namespaceOf? config.namespaces root.qualifier = .ok (config.namespaces.lookup root.qualifier) := by
  unfold namespaceOf?
  cases hlookup : config.namespaces.lookup root.qualifier with
  | some uri => rfl
  | none =>
    refine if_pos (h.declared.resolve_right fun hmem => ?_)
    obtain ⟨entry, hentry, hqualifier⟩ := List.mem_map.mp hmem
    exact bne_iff_ne.mp (List.lookup_eq_none_iff.mp hlookup entry hentry) hqualifier.symm

/-- The root element has the namespaces of the configuration, and no attributes besides. -/
theorem element_root (h : config.Declarable root) (hverbatim : ∀ entry ∈ config.namespaces, IsVerbatim entry.2)
    (location : Location) :
    Assembly.element [] root (config.namespaces.map fun entry => ⟨⟨"xmlns", entry.1⟩, entry.2.toList⟩) location =
      .ok (⟨config.rootName root, [], [], location⟩, config.namespaces) := by
  -- the root element has no qualifier, or one of the configuration, none of which is reserved
  have hqualifier : root.qualifier ≠ "xmlns" := by
    rcases h.declared with hempty | hmem
    · rw [hempty]
      decide
    · obtain ⟨entry, hentry, hqualifier⟩ := List.mem_map.mp hmem
      exact hqualifier ▸ (h.qualifiers entry hentry).2.2
  have hdeclared := mapM_declaredBy h.qualifiers h.uris hverbatim
  have hown := declaredNamespaces_bindings h.distinct
  -- nothing is in scope but what the element declares itself
  have hscope : config.namespaces = config.namespaces ++ [] := (List.append_nil _).symm
  have hproper := properAttributes_bindings config.namespaces config.namespaces
  refine Assembly.element_eq_ok_iff.mpr ⟨hqualifier, ?_⟩
  exact ⟨_, config.namespaces, [], _, hdeclared, hown, hscope, hproper, namespaceOf?_root h, rfl⟩

/-- Wrapped content is a document whose root element has the namespaces of the configuration, if all names can be
written as they are. -/
theorem read_wrap (h : config.Declarable root) (hverbatim : ∀ entry ∈ config.namespaces, IsVerbatim entry.2)
    (hcontent : IsContents config.namespaces content) :
    ∃ e, Element.read (config.wrap content) = .ok e ∧ e.name = config.rootName root ∧ e.attributes = [] ∧
      RootScope (config.wrap content) config.namespaces := by
  obtain ⟨tokens, htokens, hbalanced⟩ := hcontent
  obtain ⟨left, distance, hscan⟩ := scan_wrap h hverbatim htokens
  have helement := element_root h hverbatim (locate (config.wrap content).toList left)
  have hscope : RootScope (config.wrap content) config.namespaces :=
    ⟨[], root, _, false, left, _, hscan, List.forall_mem_nil _, _, _, helement⟩
  obtain ⟨pieces, hpieces⟩ := Assembly.foldlM_document helement ((balanced_moved_iff distance).mpr hbalanced)
  exact ⟨_, Element.read_eq_ok_iff.mpr ⟨_, _, hscan, hpieces, rfl⟩, rfl, rfl, hscope⟩

/-- Nothing but contents of an element can be wrapped. -/
theorem read_wrap_iff (h : config.Declarable root) (hverbatim : ∀ entry ∈ config.namespaces, IsVerbatim entry.2)
    {tokens : List Markup.Token} (htokens : Scan.tokens content.toList.length content.toList = .ok tokens) :
    (∃ e, Element.read (config.wrap content) = .ok e) ↔ Balanced config.namespaces tokens := by
  constructor
  · rintro ⟨e, he⟩
    obtain ⟨left, distance, hscan⟩ := scan_wrap h hverbatim htokens
    obtain ⟨_, a, hscan', hfold, hcomplete⟩ := Element.read_eq_ok_iff.mp he
    -- the text has the tokens that it should have, whatever the content is
    cases hscan.symm.trans hscan'
    obtain ⟨-, inner, ⟨location, _, helement⟩, hbalanced⟩ := Assembly.foldlM_document_iff.mp ⟨a, e, hfold, hcomplete⟩
    cases (element_root h hverbatim location).symm.trans helement
    exact (balanced_moved_iff distance).mp hbalanced
  · intro hbalanced
    obtain ⟨e, he, -⟩ := read_wrap h hverbatim ⟨tokens, htokens, hbalanced⟩
    exact ⟨e, he⟩

/-- If the root element has all namespaces of the configuration, their names can be written as they are. -/
theorem isVerbatim_of_rootScope (h : config.Declarable root) {own : Namespaces}
    (hscope : RootScope (config.wrap content) own)
    (hbound : ∀ entry ∈ config.namespaces, own.lookup entry.1 = some entry.2) :
    ∀ entry ∈ config.namespaces, IsVerbatim entry.2 := by
  obtain ⟨before, name, attributes, closed, left, after, hscan, hbefore, _, e, hopens⟩ := hscope
  obtain ⟨cs, hstart, htokens⟩ := Outcome.bind_eq_ok.mp hscan
  cases (start_wrap h content).symm.trans hstart
  have hreads := (readsTokens_of_tokens htokens).1
  rw [PageConfig.toList_wrap] at hreads
  -- the first token is the tag of the root element, so that no other can be meant
  obtain ⟨hfirst, hfound⟩ : name = root ∧ ∃ next,
      ReadsAttributes (PageConfig.declarations config.namespaces ++ '>' :: (content.toList ++
        '<' :: '/' :: (config.rootTag.toList ++ ['>']))) attributes closed next := by
    cases before with
    | nil =>
      cases hreads with
      | cons _ ht _ =>
        obtain ⟨found, _, _, heq, hfound⟩ := reads_of_token_root h ht
        cases heq
        exact ⟨rfl, _, hfound⟩
    | cons t before =>
      cases hreads with
      | cons _ ht _ =>
        obtain ⟨found, closed, left, rfl, -⟩ := reads_of_token_root h ht
        exact absurd ⟨root, found, closed, left, rfl⟩ (hbefore _ List.mem_cons_self)
  obtain ⟨next, hfound⟩ := hfound
  obtain ⟨-, declared, scope, -, -, hdeclared, hown, rfl, -⟩ := Assembly.element_eq_ok_iff.mp hopens
  rw [List.append_nil] at hbound
  exact isVerbatim_of_reads h.qualifiers h.distinct hfound hdeclared hown hbound

end Wrapped

/-- The text is a document, and inside its root element each of some qualifiers stands for its namespace. -/
def BindsAll (text : String) (namespaces : Namespaces) : Prop :=
  ∃ e scope, Element.read text = .ok e ∧ RootScope text scope ∧
    ∀ entry ∈ namespaces, scope.lookup entry.1 = some entry.2

/-- **Which namespaces wrapping declares.** If content can stand in an element that has the namespaces of the
configuration, and these can be declared at all, then the content wrapped is a document whose root element has them all
exactly if each of their names can be written between quotes as it is. Then these are the only namespaces that the root
element has, and it has no attributes besides. -/
theorem wrapped_declares_iff {config : PageConfig} {root : WrittenName} (h : config.Declarable root) {content : String}
    (hcontent : IsContents config.namespaces content) :
    (BindsAll (config.wrap content) config.namespaces ↔ ∀ entry ∈ config.namespaces, IsVerbatim entry.2) ∧
      ((∀ entry ∈ config.namespaces, IsVerbatim entry.2) →
        ∃ e, Element.read (config.wrap content) = .ok e ∧ e.name = config.rootName root ∧ e.attributes = [] ∧
          RootScope (config.wrap content) config.namespaces) := by
  refine ⟨⟨?_, fun hverbatim => ?_⟩, fun hverbatim => read_wrap h hverbatim hcontent⟩
  · -- what the document is beyond its first tag plays no part in this
    rintro ⟨_, scope, -, hscope, hbound⟩
    exact isVerbatim_of_rootScope h hscope hbound
  · obtain ⟨e, he, -, -, hscope⟩ := read_wrap h hverbatim hcontent
    exact ⟨e, _, he, hscope, lookup_of_distinct h.distinct⟩

/-- Content that is a single control. -/
theorem isContents_text {namespaces : Namespaces} {uri : String} (h : namespaces.lookup "xp" = some uri) :
    IsContents namespaces "<xp:text/>" := by
  have hopens : Opens namespaces ⟨"xp", "text"⟩ [] namespaces := by
    refine ⟨⟨1, 1⟩, ⟨⟨some uri, "text"⟩, [], [], ⟨1, 1⟩⟩, ?_⟩
    show (namespaceOf? namespaces "xp" >>= _) = _
    unfold namespaceOf?
    rw [h]
    rfl
  exact ⟨[.opening ⟨"xp", "text"⟩ [] true 10], rfl, .closed _ hopens .nil⟩

/-- The configuration that holds if none is given can be declared. -/
theorem standard_declared :
    PageConfig.standard.Declarable ⟨"xp", "view"⟩ ∧ IsContents PageConfig.standard.namespaces "<xp:text/>" ∧
      BindsAll (PageConfig.standard.wrap "<xp:text/>") PageConfig.standard.namespaces := by
  have hdeclarable : PageConfig.standard.Declarable ⟨"xp", "view"⟩ :=
    ⟨.qualified (by decide) (by decide), by decide, by decide, by decide, by decide⟩
  have hcontent : IsContents PageConfig.standard.namespaces "<xp:text/>" := isContents_text rfl
  exact ⟨hdeclarable, hcontent, (wrapped_declares_iff hdeclarable hcontent).1.mpr (by decide)⟩

/-- A configuration with a namespace whose name is an address with two parameters. -/
def queryConfig : PageConfig := ⟨"xp:view", [("xp", PageConfig.coreNamespace), ("my", "http://example.com/?a=1&b=2")]⟩

/-- A namespace that has an ampersand in its name is not declared: the wrapped content is no document. -/
theorem query_not_declared :
    queryConfig.Declarable ⟨"xp", "view"⟩ ∧ IsContents queryConfig.namespaces "<xp:text/>" ∧
      Element.read (queryConfig.wrap "<xp:text/>") = .error .badReference ∧
      ¬ BindsAll (queryConfig.wrap "<xp:text/>") queryConfig.namespaces := by
  have hread : Element.read (queryConfig.wrap "<xp:text/>") = .error .badReference := by rfl
  refine ⟨⟨.qualified (by decide) (by decide), by decide, by decide, by decide, by decide⟩, isContents_text rfl, hread, ?_⟩
  rintro ⟨e, _, he, -⟩
  cases hread.symm.trans he

end PageTemplates
