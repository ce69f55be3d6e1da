import PageTemplates.Expression.Scope
import Mathlib.Data.List.TakeWhile

/-!
# The forms of expressions

What it takes for a text to be an expression, said by the pieces that the text is made of and not by the search for
them. The whole of a load-time expression stands between its delimiters, blanks aside (`Delimited`); a run-time
expression may stand anywhere in a text (`RunTimeForm`). By these two forms every text is of one of three kinds
(`classify_eq_iff`).

Trimming takes off the blanks around a text and nothing else (`Text.exists_trimmed`, `Text.trimChars_eq`).
-/

namespace PageTemplates

/-! ## §1 Trimming -/

namespace Text

/-- All characters are blank. -/
def Blank (cs : List Char) : Prop := ∀ c ∈ cs, isBlank c = true

/-- The text begins and ends with characters that are not blank, if it has any. -/
structure Tight (cs : List Char) : Prop where
  head : ∀ c ∈ cs.head?, isBlank c = false
  last : ∀ c ∈ cs.getLast?, isBlank c = false

variable {lead core trail : List Char}

theorem dropWhile_isBlank (hlead : Blank lead) (hcore : ∀ c ∈ core.head?, isBlank c = false) :
    (lead ++ core).dropWhile isBlank = core := by
  have hdropped : lead.dropWhile isBlank = [] := List.dropWhile_eq_nil_iff.mpr hlead
  rw [List.dropWhile_append, hdropped]
  cases core with
  | nil => rfl
  | cons c rest =>
    have hc : isBlank c = false := hcore c rfl
    simp [hc]

/-- Of a text in blanks, trimming leaves the text. -/
theorem trimChars_eq (hlead : Blank lead) (hcore : Tight core) (htrail : Blank trail) :
    trimChars (lead ++ core ++ trail) = core := by
  unfold trimChars trimStart trimEnd
  cases core with
  | nil =>
    -- blanks alone are taken off at once
    have hblank : ∀ c ∈ lead ++ [] ++ trail, isBlank c = true := by
      simpa [or_imp, forall_and] using ⟨hlead, htrail⟩
    rw [List.dropWhile_eq_nil_iff.mpr hblank]
    rfl
  | cons first rest =>
    have hhead : ∀ c ∈ (first :: rest ++ trail).head?, isBlank c = false := hcore.head
    have hlast : ∀ c ∈ (first :: rest).reverse.head?, isBlank c = false := by
      rw [List.head?_reverse]
      exact hcore.last
    have hback : Blank trail.reverse := fun c hc => htrail c (List.mem_reverse.mp hc)
    rw [List.append_assoc, dropWhile_isBlank hlead hhead, List.reverse_append, dropWhile_isBlank hback hlast,
      List.reverse_reverse]

/-- Every text is its trimmed form in blanks. -/
theorem exists_trimmed (cs : List Char) :
    ∃ lead trail, Blank lead ∧ Blank trail ∧ cs = lead ++ trimChars cs ++ trail := by
  let rest := trimStart cs
  refine ⟨cs.takeWhile isBlank, (rest.reverse.takeWhile isBlank).reverse, ?_, ?_, ?_⟩
  · exact fun c hc => List.mem_takeWhile_imp hc
  · exact fun c hc => List.mem_takeWhile_imp (List.mem_reverse.mp hc)
  · -- what is taken off at the end is put back first
    have hrest : trimChars cs ++ (rest.reverse.takeWhile isBlank).reverse = rest := by
      show (rest.reverse.dropWhile isBlank).reverse ++ _ = rest
      rw [← List.reverse_append, List.takeWhile_append_dropWhile, List.reverse_reverse]
    rw [List.append_assoc, hrest]
    exact (trimStart_append cs).symm

/-- A search for a mark with something behind it comes upon one if there is one, because what follows the first mark
includes all that follows a later one. -/
theorem any_afterFirst?_contains {mark : List Char} {ending : Char} (hmark : mark ≠ []) (hending : ending ∉ mark)
    (text : List Char) :
    ((afterFirst? mark text).any fun rest => rest.contains ending) = true ↔
      ∃ before inner after, text = before ++ mark ++ inner ++ ending :: after := by
  induction text with
  | nil =>
    cases mark with
    | nil => exact absurd rfl hmark
    | cons m mark => simp [afterFirst?, after?]
  | cons c text ih =>
    cases hafter : after? mark (c :: text) with
    | some rest =>
      rw [after?_eq_some_iff] at hafter
      simp only [afterFirst?, after?_eq_some_iff.mpr hafter, Option.some_or, Option.any_some, List.contains_iff_mem]
      constructor
      · intro h
        obtain ⟨inner, after, rfl⟩ := List.append_of_mem h
        exact ⟨[], inner, after, by simpa using hafter⟩
      · rintro ⟨before, inner, after, h⟩
        -- the last piece is too short to reach into the first mark, in which the ending does not occur
        have hmem : ending ∈ mark ++ rest := by
          rw [← hafter, h]
          simp
        exact (List.mem_append.mp hmem).resolve_left hending
    | none =>
      simp only [afterFirst?, hafter, Option.none_or, ih]
      constructor
      · rintro ⟨before, inner, after, rfl⟩
        exact ⟨c :: before, inner, after, rfl⟩
      · rintro ⟨before, inner, after, h⟩
        cases before with
        | nil =>
          -- the text does not begin with the mark
          have hbegins : after? mark (c :: text) = some (inner ++ ending :: after) :=
            after?_eq_some_iff.mpr (by simpa using h)
          rw [hafter] at hbegins
          cases hbegins
        | cons d before =>
          simp only [List.cons_append, List.cons.injEq] at h
          exact ⟨before, inner, after, h.2⟩

end Text

/-! ## §2 Forms -/

namespace ExpressionKind

open Text (Blank)

/-- Blanks aside, the text stands between an opening delimiter and the closing one. -/
def Delimited (opening cs : List Char) : Prop :=
  ∃ lead body trail, Blank lead ∧ Blank trail ∧ cs = lead ++ (opening ++ body ++ [closing]) ++ trail

/-- The delimiters of a run-time expression occur in the text, the closing one somewhere behind the opening one. -/
def RunTimeForm (cs : List Char) : Prop :=
  ∃ before body after, cs = before ++ runTimeOpening ++ body ++ closing :: after

section Delimiters

variable {opening cs : List Char}

/-- An expression with its delimiters has no blanks around it. -/
theorem tight_delimited (h : opening = loadTimeOpening ∨ opening = runTimeOpening) (body : List Char) :
    Text.Tight (opening ++ body ++ [closing]) := by
  constructor
  · rcases h with rfl | rfl <;> rintro c hc <;> cases hc <;> decide
  · rintro c hc
    rw [List.getLast?_concat] at hc
    cases hc
    decide

/-- What trimming leaves of such a text are the delimiters and what is between them. -/
theorem delimited_iff (h : opening = loadTimeOpening ∨ opening = runTimeOpening) :
    Delimited opening cs ↔ ∃ body, Text.trimChars cs = opening ++ body ++ [closing] := by
  constructor
  · rintro ⟨lead, body, trail, hlead, htrail, rfl⟩
    exact ⟨body, Text.trimChars_eq hlead (tight_delimited h body) htrail⟩
  · rintro ⟨body, hbody⟩
    obtain ⟨lead, trail, hlead, htrail, hcs⟩ := Text.exists_trimmed cs
    exact ⟨lead, body, trail, hlead, htrail, hbody ▸ hcs⟩

end Delimiters

theorem isLoadTime_iff (cs : List Char) : isLoadTime cs = true ↔ Delimited loadTimeOpening cs := by
  rw [delimited_iff (.inl rfl)]
  constructor
  · intro h
    obtain ⟨hopening, hclosing⟩ := Bool.and_eq_true_iff.mp h
    obtain ⟨rest, hrest⟩ := Option.isSome_iff_exists.mp hopening
    obtain ⟨before, hbefore⟩ := Option.isSome_iff_exists.mp hclosing
    rw [Text.after?_eq_some_iff] at hrest
    rw [Text.before?_eq_some_iff] at hbefore
    -- the closing delimiter is not one of the characters of the opening one
    rcases List.eq_nil_or_concat rest with rfl | ⟨body, last, rfl⟩
    · have hlast := congrArg List.getLast? (hrest.symm.trans hbefore)
      simp [loadTimeOpening, closing] at hlast
    · have hlast : last = closing := by
        have hlast := congrArg List.getLast? (hrest.symm.trans hbefore)
        simpa [← List.append_assoc] using hlast
      subst hlast
      exact ⟨body, by rw [hrest, List.concat_eq_append, List.append_assoc]⟩
  · -- the delimiters are at the two ends
    rintro ⟨body, hbody⟩
    unfold isLoadTime
    rw [hbody]
    have hopening : Text.after? loadTimeOpening (loadTimeOpening ++ body ++ [closing]) = some (body ++ [closing]) :=
      Text.after?_eq_some_iff.mpr (List.append_assoc ..)
    have hclosing : Text.before? [closing] (loadTimeOpening ++ body ++ [closing]) = some (loadTimeOpening ++ body) :=
      Text.before?_eq_some_iff.mpr rfl
    simp only [hopening, hclosing, Option.isSome_some, Bool.and_self]

theorem isRunTime_iff (cs : List Char) : isRunTime cs = true ↔ RunTimeForm cs :=
  Text.any_afterFirst?_contains (by decide) (by decide) cs

/-- A text is of a kind by the forms that it has. The load-time form goes before the other. -/
def Fits (text : String) : ExpressionKind → Prop
  | .loadTime => Delimited loadTimeOpening text.toList
  | .runTime => ¬ Delimited loadTimeOpening text.toList ∧ RunTimeForm text.toList
  | .literal => ¬ Delimited loadTimeOpening text.toList ∧ ¬ RunTimeForm text.toList

theorem classify_eq_iff {text : String} {kind : ExpressionKind} : classify text = kind ↔ kind.Fits text := by
  unfold classify
  split
  · rename_i hload
    have hload := (isLoadTime_iff _).mp hload
    cases kind <;> simp [Fits, hload]
  · rename_i hload
    have hload := mt (isLoadTime_iff _).mpr hload
    split
    · rename_i hrun
      have hrun := (isRunTime_iff _).mp hrun
      cases kind <;> simp [Fits, hload, hrun]
    · rename_i hrun
      have hrun := mt (isRunTime_iff _).mpr hrun
      cases kind <;> simp [Fits, hload, hrun]

end ExpressionKind

end PageTemplates
