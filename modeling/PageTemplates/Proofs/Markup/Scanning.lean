import Mathlib.Data.List.TakeWhile
import PageTemplates.Markup.Document
import PageTemplates.Proofs.Program.Outcome

/-!
# Scanning in front of a tag

What is scanned from a text is scanned from it also if a tag follows: each token ends where it ended before, and only
the places of tags, which are counted from the end of the document, move (`ReadsTokens.append`). So the tokens of
content are the same inside an element as by themselves.

The scanner bounds its steps by the number of characters. Relations without such bounds say what it accepts
(`ReadsAttributes`, `ReadsTokens`), and are what the proofs go by.

## Structure

- §1 deals with the pieces of a token, §2 with attributes, §3 with tokens.
- §4 says how names are written, and reads them back.
-/

namespace PageTemplates.Markup

/-! ## §1 Pieces -/

section Lists

variable {cs rest more : List Char} {mark : List Char}

/-- What a predicate that a tag does not satisfy takes is taken also in front of one. -/
theorem takeWhile_tag {p : Char → Bool} (hp : p '<' = false) :
    (cs ++ '<' :: more).takeWhile p = cs.takeWhile p := by
  induction cs with
  | nil => rw [List.nil_append, List.takeWhile_cons, hp]; rfl
  | cons c cs ih => rw [List.cons_append, List.takeWhile_cons, List.takeWhile_cons, ih]

/-- What such a predicate leaves is left in front of the tag. -/
theorem dropWhile_tag {p : Char → Bool} (hp : p '<' = false) :
    (cs ++ '<' :: more).dropWhile p = cs.dropWhile p ++ '<' :: more := by
  induction cs with
  | nil => rw [List.nil_append, List.dropWhile_cons, hp]; rfl
  | cons c cs ih =>
    rw [List.cons_append, List.dropWhile_cons, List.dropWhile_cons, ih]
    split <;> rfl

/-- A mark that does not hold the beginning of a tag is not completed by one. -/
theorem after?_tag (hmark : '<' ∉ mark) :
    Text.after? mark (cs ++ '<' :: more) = (Text.after? mark cs).map (· ++ '<' :: more) := by
  -- by induction on the mark: where the text ends inside it, the next character is that of the tag, which it does not
  -- hold
  induction mark generalizing cs with
  | nil => rfl
  | cons c mark ih =>
    obtain ⟨hc, hmark⟩ := List.ne_and_not_mem_of_not_mem_cons hmark
    cases cs with
    | nil => exact if_neg (Ne.symm hc)
    | cons d cs =>
      rw [List.cons_append, Text.after?, Text.after?, ih hmark]
      split <;> rfl

end Lists

namespace Scan

variable {cs rest more : List Char}

/-- The blanks in front of a tag end before it. -/
theorem skipSpaces_tag : skipSpaces (cs ++ '<' :: more) = skipSpaces cs ++ '<' :: more := dropWhile_tag rfl

theorem expect_tag {mark : List Char} {cause : Malformed} (hmark : '<' ∉ mark)
    (h : expect mark cause cs = .ok ((), rest)) :
    expect mark cause (cs ++ '<' :: more) = .ok ((), rest ++ '<' :: more) := by
  unfold expect at h ⊢
  rw [after?_tag hmark]
  cases hafter : Text.after? mark cs with
  | none =>
    rw [hafter] at h
    cases h
  | some found =>
    rw [hafter] at h
    cases h
    rfl

/-- A name in front of a tag ends where it did, since no name goes on with the beginning of a tag. -/
theorem writtenName_tag {name : WrittenName} (h : writtenName cs = .ok (name, rest)) :
    writtenName (cs ++ '<' :: more) = .ok (name, rest ++ '<' :: more) := by
  have hname : isNameChar '<' = false := by decide
  unfold writtenName at h ⊢
  dsimp only at h ⊢
  rw [takeWhile_tag hname, dropWhile_tag hname]
  split at h
  · split at h <;> cases h
    rw [if_pos ‹_›]
  · split at h <;> cases h
    rw [if_pos ‹_›]

/-- The same holds of the target of an instruction. -/
theorem plainName_tag {name : String} (h : plainName cs = .ok (name, rest)) :
    plainName (cs ++ '<' :: more) = .ok (name, rest ++ '<' :: more) := by
  have hname : isNameChar '<' = false := by decide
  unfold plainName at h
  split at h
  · cases h
  · rename_i c cs
    split at h
    · rename_i hc
      cases h
      have htake : (c :: cs ++ '<' :: more).takeWhile isNameChar = (c :: cs).takeWhile isNameChar :=
        takeWhile_tag hname
      have hdrop : (c :: cs ++ '<' :: more).dropWhile isNameChar = (c :: cs).dropWhile isNameChar ++ '<' :: more :=
        dropWhile_tag hname
      rw [← htake, ← hdrop]
      exact if_pos hc
    · cases h

/-- What is read up to a mark ends at the same mark. -/
theorem upTo_tag {mark raw : List Char} (hmark : '<' ∉ mark) (h : upTo mark cs = .ok (raw, rest)) :
    upTo mark (cs ++ '<' :: more) = .ok (raw, rest ++ '<' :: more) := by
  -- by induction on the text up to the mark: where the mark does not begin without the tag, it does not begin with it
  induction cs generalizing raw with
  | nil => cases h
  | cons c cs ih =>
    have hafter : Text.after? mark (c :: cs ++ '<' :: more) = (Text.after? mark (c :: cs)).map (· ++ '<' :: more) :=
      after?_tag hmark
    rw [List.cons_append] at hafter ⊢
    unfold upTo at h ⊢
    rw [hafter]
    cases hfound : Text.after? mark (c :: cs) with
    | some found =>
      rw [hfound] at h
      cases h
      rfl
    | none =>
      rw [hfound] at h
      simp only [Option.map_none] at h ⊢
      split at h
      · obtain ⟨⟨inner, _⟩, hinner, heq⟩ := Outcome.map_eq_ok.mp h
        cases heq
        rw [if_pos ‹_›, ih hinner]
        rfl
      · cases h

/-! ## §2 Attributes -/

/-- How an attribute is read: its name, an equals sign, and a value between two quotes of the same kind. -/
theorem quotedAttribute_eq_ok_iff {a : WrittenAttribute} :
    quotedAttribute cs = .ok (a, rest) ↔
      ∃ afterName afterSign quote value,
        writtenName cs = .ok (a.name, afterName) ∧
          expect ['='] .badTag (skipSpaces afterName) = .ok ((), afterSign) ∧
          skipSpaces afterSign = quote :: value ∧ (quote = '"' ∨ quote = '\'') ∧
          upTo [quote] value = .ok (a.raw, rest) ∧ a.raw.contains '<' = false := by
  unfold quotedAttribute
  constructor
  · intro h
    obtain ⟨⟨name, afterName⟩, hname, h⟩ := Outcome.bind_eq_ok.mp h
    obtain ⟨⟨⟨⟩, afterSign⟩, hsign, h⟩ := Outcome.bind_eq_ok.mp h
    dsimp only at h
    split at h
    · -- only a quote of one of the two kinds is left
      rename_i quote value hvalue
      split at h
      · obtain ⟨⟨raw, _⟩, hraw, h⟩ := Outcome.bind_eq_ok.mp h
        dsimp only at h
        split at h <;> cases h
        exact ⟨afterName, afterSign, quote, value, hname, hsign, hvalue, ‹_›, hraw, eq_false_of_ne_true ‹_›⟩
      · cases h
    · cases h
  · rintro ⟨afterName, afterSign, quote, value, hname, hsign, hvalue, hquote, hraw, hmark⟩
    refine Outcome.bind_eq_ok.mpr ⟨_, hname, Outcome.bind_eq_ok.mpr ⟨_, hsign, ?_⟩⟩
    dsimp only
    rw [hvalue]
    dsimp only
    rw [if_pos hquote]
    refine Outcome.bind_eq_ok.mpr ⟨_, hraw, ?_⟩
    dsimp only
    rw [hmark]
    rfl

/-- An attribute that is read is read also in front of a tag. -/
theorem quotedAttribute_tag {a : WrittenAttribute} (h : quotedAttribute cs = .ok (a, rest)) :
    quotedAttribute (cs ++ '<' :: more) = .ok (a, rest ++ '<' :: more) := by
  obtain ⟨afterName, afterSign, quote, value, hname, hsign, hvalue, hquote, hraw, hmark⟩ :=
    quotedAttribute_eq_ok_iff.mp h
  refine quotedAttribute_eq_ok_iff.mpr
    ⟨afterName ++ '<' :: more, afterSign ++ '<' :: more, quote, value ++ '<' :: more, writtenName_tag hname, ?_, ?_, hquote,
      upTo_tag ?_ hraw, hmark⟩
  · rw [skipSpaces_tag]
    exact expect_tag (by decide) hsign
  · rw [skipSpaces_tag, hvalue]
    rfl
  · -- neither quote is the beginning of a tag
    rcases hquote with rfl | rfl <;> decide

/-- The attributes of an opening tag, each after a blank, and the end of the tag. -/
inductive ReadsAttributes : List Char → List WrittenAttribute → Bool → List Char → Prop where
  | done {cs rest : List Char} (h : skipSpaces cs = '>' :: rest) : ReadsAttributes cs [] false rest
  | closed {cs rest : List Char} (h : skipSpaces cs = '/' :: '>' :: rest) : ReadsAttributes cs [] true rest
  | cons {cs next rest : List Char} {a : WrittenAttribute} {more : List WrittenAttribute} {closed : Bool}
      (hblank : cs.head?.any isSpace = true) (h : quotedAttribute (skipSpaces cs) = .ok (a, next))
      (hmore : ReadsAttributes next more closed rest) : ReadsAttributes cs (a :: more) closed rest

/-- A text that begins as an attribute does not end the tag. -/
theorem quotedAttribute_head {a : WrittenAttribute} (h : quotedAttribute cs = .ok (a, rest)) :
    ∃ c tail, cs = c :: tail ∧ isNameChar c = true := by
  obtain ⟨_, -, -, -, hname, -⟩ := quotedAttribute_eq_ok_iff.mp h
  cases cs with
  | nil => cases hname
  | cons c tail =>
    refine ⟨c, tail, rfl, ?_⟩
    by_contra hc
    simp only [writtenName, List.takeWhile_cons, if_neg hc] at hname
    cases hname

/-- What the bounded scanner finds is what the relation says, and there was a step for each attribute. -/
theorem readsAttributes_of_attributes {bound : Nat} {found : List WrittenAttribute} {closed : Bool}
    (h : attributes bound cs = .ok ((found, closed), rest)) :
    ReadsAttributes cs found closed rest ∧ found.length < bound := by
  -- on the bound, of which each attribute takes one
  induction bound generalizing cs found with
  | zero => cases h
  | succ bound ih =>
    unfold attributes at h
    split at h
    · cases h
    · cases h
      exact ⟨.done ‹_›, Nat.succ_pos _⟩
    · cases h
      exact ⟨.closed ‹_›, Nat.succ_pos _⟩
    · cases h
    · split at h
      · rename_i hblank
        obtain ⟨⟨a, next⟩, ha, h⟩ := Outcome.bind_eq_ok.mp h
        obtain ⟨⟨⟨more, _⟩, _⟩, hmore, h⟩ := Outcome.bind_eq_ok.mp h
        cases h
        obtain ⟨hreads, hbound⟩ := ih hmore
        exact ⟨.cons hblank ha hreads, Nat.succ_lt_succ hbound⟩
      · cases h

/-- With a step for each attribute and one for the end, the scanner finds what the relation says. -/
theorem attributes_of_reads {bound : Nat} {found : List WrittenAttribute} {closed : Bool}
    (h : ReadsAttributes cs found closed rest) (hbound : found.length < bound) :
    attributes bound cs = .ok ((found, closed), rest) := by
  -- on the attributes that are read, for every bound that is large enough
  induction h generalizing bound with
  | done h =>
    obtain ⟨bound, rfl⟩ := Nat.exists_eq_succ_of_ne_zero (Nat.ne_of_gt hbound)
    rw [attributes, h]
    rfl
  | closed h =>
    obtain ⟨bound, rfl⟩ := Nat.exists_eq_succ_of_ne_zero (Nat.ne_of_gt hbound)
    rw [attributes, h]
    rfl
  | cons hblank h _ ih =>
    obtain ⟨bound, rfl⟩ := Nat.exists_eq_succ_of_ne_zero (Nat.ne_of_gt (Nat.zero_lt_of_lt hbound))
    obtain ⟨c, tail, htail, hc⟩ := quotedAttribute_head h
    unfold attributes
    -- the first character is one of a name, so it does not end the tag
    split
    · cases htail.symm.trans ‹_›
    · cases htail.symm.trans ‹_›
      cases hc
    · cases htail.symm.trans ‹_›
      cases hc
    · cases htail.symm.trans ‹_›
      cases hc
    · rw [if_pos hblank, h]
      exact Outcome.bind_eq_ok.mpr ⟨_, rfl, Outcome.bind_eq_ok.mpr ⟨_, ih (Nat.lt_of_succ_lt_succ hbound), rfl⟩⟩

/-- The attributes of a tag are read also if another tag follows. -/
theorem ReadsAttributes.tag {found : List WrittenAttribute} {closed : Bool}
    (h : ReadsAttributes cs found closed rest) :
    ReadsAttributes (cs ++ '<' :: more) found closed (rest ++ '<' :: more) := by
  induction h with
  | done h => exact .done (by rw [skipSpaces_tag, h]; rfl)
  | closed h => exact .closed (by rw [skipSpaces_tag, h]; rfl)
  | @cons cs _ _ _ _ _ hblank h _ ih =>
    refine .cons ?_ (by rw [skipSpaces_tag]; exact quotedAttribute_tag h) ih
    cases cs with
    | nil => cases hblank
    | cons c cs => exact hblank

end Scan

/-! ## §3 Tokens -/

/-- The same token at another place. -/
def Token.placed (place : Nat → Nat) : Token → Token
  | .opening name attributes closed left => .opening name attributes closed (place left)
  | t => t

/-- The same token in a document in which more characters follow. -/
abbrev Token.moved (distance : Nat) : Token → Token := placed (· + distance)

/-- Moving a token and moving it back leaves it as it was. -/
theorem Token.placed_comp_moved (distance : Nat) : placed (· - distance) ∘ moved distance = id := by
  funext t
  cases t <;> simp [placed]

namespace Scan

variable {cs rest more : List Char} {t : Token}

/-- An opening tag: its name, and its attributes up to the end of the tag. -/
theorem openingTag_eq_ok_iff {left : Nat} :
    openingTag left cs = .ok (t, rest) ↔
      ∃ name afterName found closed, writtenName cs = .ok (name, afterName) ∧
        attributes (afterName.length + 1) afterName = .ok ((found, closed), rest) ∧
        t = .opening name found closed left := by
  unfold openingTag
  constructor
  · intro h
    obtain ⟨⟨name, afterName⟩, hname, h⟩ := Outcome.bind_eq_ok.mp h
    obtain ⟨⟨⟨found, closed⟩, _⟩, hfound, h⟩ := Outcome.bind_eq_ok.mp h
    cases h
    exact ⟨name, afterName, found, closed, hname, hfound, rfl⟩
  · rintro ⟨name, afterName, found, closed, hname, hfound, rfl⟩
    exact Outcome.bind_eq_ok.mpr ⟨_, hname, Outcome.bind_eq_ok.mpr ⟨_, hfound, rfl⟩⟩

/-- Only an opening tag knows its place, which is counted from the end and so is the only thing that moves. -/
theorem openingTag_tag {left : Nat} (h : openingTag left cs = .ok (t, rest)) :
    openingTag (left + (more.length + 1)) (cs ++ '<' :: more) =
      .ok (t.moved (more.length + 1), rest ++ '<' :: more) := by
  obtain ⟨name, afterName, found, closed, hname, hfound, rfl⟩ := openingTag_eq_ok_iff.mp h
  -- the scanner has a larger bound in the longer text, so we go through the relation, which has none
  obtain ⟨hreads, hbound⟩ := readsAttributes_of_attributes hfound
  refine openingTag_eq_ok_iff.mpr ⟨name, _, found, closed, writtenName_tag hname, ?_, rfl⟩
  refine attributes_of_reads hreads.tag ?_
  rw [List.length_append]
  omega

theorem closingTag_tag (h : closingTag cs = .ok (t, rest)) :
    closingTag (cs ++ '<' :: more) = .ok (t.moved (more.length + 1), rest ++ '<' :: more) := by
  unfold closingTag at h ⊢
  obtain ⟨⟨name, afterName⟩, hname, h⟩ := Outcome.bind_eq_ok.mp h
  obtain ⟨⟨⟨⟩, _⟩, hend, h⟩ := Outcome.bind_eq_ok.mp h
  cases h
  refine Outcome.bind_eq_ok.mpr ⟨_, writtenName_tag hname, Outcome.bind_eq_ok.mpr ⟨((), rest ++ '<' :: more), ?_, rfl⟩⟩
  rw [skipSpaces_tag]
  exact expect_tag (by decide) hend

theorem instruction_tag (h : instruction cs = .ok (t, rest)) :
    instruction (cs ++ '<' :: more) = .ok (t.moved (more.length + 1), rest ++ '<' :: more) := by
  unfold instruction at h ⊢
  rw [after?_tag (by decide), Option.isSome_map]
  split at h
  · cases h
  · obtain ⟨⟨target, afterTarget⟩, htarget, h⟩ := Outcome.bind_eq_ok.mp h
    obtain ⟨⟨data, _⟩, hdata, h⟩ := Outcome.bind_eq_ok.mp h
    cases h
    rw [if_neg ‹_›]
    refine Outcome.bind_eq_ok.mpr
      ⟨_, plainName_tag htarget, Outcome.bind_eq_ok.mpr ⟨(data, rest ++ '<' :: more), ?_, rfl⟩⟩
    rw [skipSpaces_tag]
    exact upTo_tag (by decide) hdata

theorem comment_tag (h : comment cs = .ok (t, rest)) :
    comment (cs ++ '<' :: more) = .ok (t.moved (more.length + 1), rest ++ '<' :: more) := by
  unfold comment at h ⊢
  obtain ⟨⟨raw, _⟩, hraw, h⟩ := Outcome.bind_eq_ok.mp h
  refine Outcome.bind_eq_ok.mpr ⟨_, upTo_tag (by decide) hraw, ?_⟩
  dsimp only at h ⊢
  split at h <;> cases h
  rw [if_neg ‹_›]
  rfl

theorem literal_tag (h : literal cs = .ok (t, rest)) :
    literal (cs ++ '<' :: more) = .ok (t.moved (more.length + 1), rest ++ '<' :: more) := by
  unfold literal at h ⊢
  obtain ⟨⟨raw, _⟩, hraw, h⟩ := Outcome.bind_eq_ok.mp h
  cases h
  exact Outcome.bind_eq_ok.mpr ⟨_, upTo_tag (by decide) hraw, rfl⟩

/-- A run of text ends at the tag, as it ended at the end of the text before. -/
theorem textRun_tag (h : textRun cs = .ok (t, rest)) :
    textRun (cs ++ '<' :: more) = .ok (t.moved (more.length + 1), rest ++ '<' :: more) := by
  unfold textRun at h ⊢
  rw [takeWhile_tag rfl, dropWhile_tag rfl]
  dsimp only at h ⊢
  split at h
  · cases h
  · split at h <;> cases h
    rw [if_neg ‹_›, if_neg ‹_›]
    rfl

/-- What begins with an angle bracket is an opening tag if none of the other marks follows. -/
theorem token_opening {c : Char} (hend : c ≠ '/') (hinstruction : c ≠ '?') (hmark : c ≠ '!') :
    token ('<' :: c :: cs) = openingTag (cs.length + 2) (c :: cs) := by
  unfold token
  split
  case h_4 heq =>
    cases heq
    rfl
  case h_5 h => exact absurd rfl (h (c :: cs))
  all_goals
    rename_i heq
    cases heq
    contradiction

/-- What does not begin with an angle bracket is text. -/
theorem token_text {c : Char} (hc : c ≠ '<') : token (c :: cs) = textRun (c :: cs) := by
  unfold token
  split
  case h_5 => rfl
  all_goals
    rename_i heq
    cases heq
    contradiction

/-- The first token of a text is the same in front of a tag. -/
theorem token_tag (hcs : cs ≠ []) (h : token cs = .ok (t, rest)) :
    token (cs ++ '<' :: more) = .ok (t.moved (more.length + 1), rest ++ '<' :: more) := by
  -- one case for each kind of token, which its first characters tell
  unfold token at h
  split at h
  · exact closingTag_tag h
  · exact instruction_tag h
  · rename_i cs
    rw [List.cons_append, List.cons_append, token, after?_tag (by decide), after?_tag (by decide)]
    split at h
    · rw [‹Text.after? ['-', '-'] cs = some _›]
      exact comment_tag h
    · rw [‹Text.after? ['-', '-'] cs = none›, ‹Text.after? "[CDATA[".toList cs = some _›]
      exact literal_tag h
    · cases h
  · rename_i tail hend hinstruction hmark
    -- an angle bracket that ends the text is no token, so the tag behind it is never read as a part of one
    cases tail with
    | nil => cases h
    | cons c tail =>
      rw [List.cons_append, List.cons_append, token_opening (fun h => hend tail (by rw [h]))
        (fun h => hinstruction tail (by rw [h])) (fun h => hmark tail (by rw [h]))]
      have hlength : (tail ++ '<' :: more).length + 2 = ('<' :: c :: tail).length + (more.length + 1) := by
        simp only [List.length_append, List.length_cons]
        omega
      rw [hlength]
      exact openingTag_tag h
  · -- no angle bracket begins the text, and the tag behind it does not change that
    rename_i htag
    obtain ⟨c, tail, rfl⟩ := List.exists_cons_of_ne_nil hcs
    have hc : c ≠ '<' := fun h => htag tail (by rw [h])
    rw [List.cons_append, token_text hc]
    exact textRun_tag h

/-- The tokens of a text, one after the other. -/
inductive ReadsTokens : List Char → List Token → Prop where
  | nil : ReadsTokens [] []
  | cons {cs rest : List Char} {t : Token} {ts : List Token} (hcs : cs ≠ []) (h : token cs = .ok (t, rest))
      (hrest : ReadsTokens rest ts) : ReadsTokens cs (t :: ts)

/-- What the bounded scanner finds is what the relation says, with at most a step for each token. -/
theorem readsTokens_of_tokens {bound : Nat} {ts : List Token} (h : tokens bound cs = .ok ts) :
    ReadsTokens cs ts ∧ ts.length ≤ bound := by
  -- on the bound, of which each token takes one; the empty text takes none
  induction bound generalizing cs ts with
  | zero =>
    cases cs with
    | nil =>
      cases h
      exact ⟨.nil, Nat.le_refl _⟩
    | cons c cs => cases h
  | succ bound ih =>
    cases cs with
    | nil =>
      cases h
      exact ⟨.nil, Nat.zero_le _⟩
    | cons c cs =>
      obtain ⟨⟨t, rest⟩, ht, h⟩ := Outcome.bind_eq_ok.mp h
      obtain ⟨more, hmore, h⟩ := Outcome.bind_eq_ok.mp h
      cases h
      obtain ⟨hreads, hbound⟩ := ih hmore
      exact ⟨.cons (List.cons_ne_nil _ _) ht hreads, Nat.succ_le_succ hbound⟩

/-- With a step for each token the scanner finds what the relation says. -/
theorem tokens_of_reads {bound : Nat} {ts : List Token} (h : ReadsTokens cs ts) (hbound : ts.length ≤ bound) :
    tokens bound cs = .ok ts := by
  induction h generalizing bound with
  | nil => cases bound <;> rfl
  | cons hcs h _ ih =>
    obtain ⟨bound, rfl⟩ := Nat.exists_eq_succ_of_ne_zero (Nat.ne_of_gt (Nat.zero_lt_of_lt hbound))
    obtain ⟨c, tail, rfl⟩ := List.exists_cons_of_ne_nil hcs
    exact Outcome.bind_eq_ok.mpr ⟨_, h, Outcome.bind_eq_ok.mpr ⟨_, ih (Nat.le_of_succ_le_succ hbound), rfl⟩⟩

/-- A text in front of a tag has the tokens that it has by itself. -/
theorem ReadsTokens.append {first second : List Token} (h : ReadsTokens cs first)
    (hmore : ReadsTokens ('<' :: more) second) :
    ReadsTokens (cs ++ '<' :: more) (first.map (.moved (more.length + 1)) ++ second) := by
  -- by induction on the tokens of the first text, the last of which is the one that the tag follows
  induction h with
  | nil => exact hmore
  | cons hcs h _ ih => exact .cons (List.append_ne_nil_of_left_ne_nil hcs _) (token_tag hcs h) ih

end Scan

/-! ## §4 Names -/

/-- A name without a colon. -/
def IsPart (cs : List Char) : Prop := Scan.beginsPart cs = true ∧ ∀ c ∈ cs, isNameChar c = true ∧ c ≠ ':'

instance (cs : List Char) : Decidable (IsPart cs) :=
  @instDecidableAnd _ _ _ (List.decidableBAll (fun c => isNameChar c = true ∧ c ≠ ':') cs)

/-- How a name is written: its part after the colon alone, or both of its parts. -/
inductive WrittenName.Spells : WrittenName → List Char → Prop where
  | plain {localName : String} (h : IsPart localName.toList) : Spells ⟨"", localName⟩ localName.toList
  | qualified {qualifier localName : String} (hqualifier : IsPart qualifier.toList) (hlocal : IsPart localName.toList) :
      Spells ⟨qualifier, localName⟩ (qualifier.toList ++ ':' :: localName.toList)

/-- A part of a name is not empty, and begins as a name does. -/
theorem IsPart.head {cs : List Char} (h : IsPart cs) : ∃ c tail, cs = c :: tail ∧ isNameStart c = true := by
  cases cs with
  | nil => cases h.1
  | cons c tail => exact ⟨c, tail, rfl, (Bool.and_eq_true_iff.mp h.1).1⟩

/-- No colon is in a part of a name. -/
theorem IsPart.notColon {cs : List Char} (h : IsPart cs) : ∀ c ∈ cs, (c != ':') = true :=
  fun c hc => bne_iff_ne.mpr (h.2 c hc).2

/-- A name begins with its first part. -/
theorem WrittenName.Spells.head {name : WrittenName} {word : List Char} (h : name.Spells word) :
    ∃ c tail, word = c :: tail ∧ isNameStart c = true := by
  cases h with
  | plain h => exact h.head
  | qualified hqualifier _ =>
    obtain ⟨c, tail, hword, hc⟩ := hqualifier.head
    exact ⟨c, tail ++ ':' :: _, by rw [hword]; rfl, hc⟩

/-- The colon between the two parts is a character of names, too. -/
theorem WrittenName.Spells.nameChars {name : WrittenName} {word : List Char} (h : name.Spells word) :
    ∀ c ∈ word, isNameChar c = true := by
  intro c hc
  cases h with
  | plain h => exact (h.2 c hc).1
  | qualified hqualifier hlocal =>
    rcases List.mem_append.mp hc with hc | hc
    · exact (hqualifier.2 c hc).1
    · rcases List.mem_cons.mp hc with rfl | hc
      · decide
      · exact (hlocal.2 c hc).1

/-- A name is read back if what follows does not go on with it. -/
theorem Scan.writtenName_spelled {name : WrittenName} {word : List Char} {c : Char} {rest : List Char}
    (h : name.Spells word) (hc : isNameChar c = false) :
    writtenName (word ++ c :: rest) = .ok (name, c :: rest) := by
  -- all of the name is taken, and no more
  have htake : (word ++ c :: rest).takeWhile isNameChar = word := by
    rw [List.takeWhile_append_of_pos h.nameChars, List.takeWhile_cons_of_neg (by simp [hc]), List.append_nil]
  have hdrop : (word ++ c :: rest).dropWhile isNameChar = c :: rest := by
    rw [List.dropWhile_append_of_pos h.nameChars, List.dropWhile_cons_of_neg (by simp [hc])]
  unfold writtenName
  dsimp only
  rw [htake, hdrop]
  cases h with
  | @plain localName h =>
    have hword := h.notColon
    rw [List.takeWhile_eq_self_iff.mpr hword, List.dropWhile_eq_nil_iff.mpr hword]
    dsimp only
    rw [if_pos h.1, String.ofList_toList]
  | @qualified qualifier localName hqualifier hlocal =>
    -- the first colon is the one between the parts, since the qualifier holds none
    have hfirst : (qualifier.toList ++ ':' :: localName.toList).takeWhile (· != ':') = qualifier.toList := by
      rw [List.takeWhile_append_of_pos hqualifier.notColon, List.takeWhile_cons_of_neg (by simp), List.append_nil]
    have hsecond : (qualifier.toList ++ ':' :: localName.toList).dropWhile (· != ':') = ':' :: localName.toList := by
      rw [List.dropWhile_append_of_pos hqualifier.notColon, List.dropWhile_cons_of_neg (by simp)]
    -- and there is no second one, which would make the name malformed
    have hone : localName.toList.contains ':' = false :=
      eq_false_of_ne_true fun hmem => (hlocal.2 _ (List.contains_iff_mem.mp hmem)).2 rfl
    rw [hfirst, hsecond]
    dsimp only
    rw [hqualifier.1, hlocal.1, hone, Bool.or_true, String.ofList_toList, String.ofList_toList]
    rfl

end PageTemplates.Markup
