import PageTemplates.Proofs.Expression.Variables

/-!
# Texts that are taken for expressions

Attribute text is classified before anything is compiled of it, and what has been kept of it as an expression is taken
apart when it is evaluated or bound. The two look for delimiters in different ways: the one finds a run-time expression
anywhere in a text, the other wants the delimiters around all of it, blanks aside. They agree nevertheless: whatever is
evaluated or bound is an expression of the kind that its opening delimiter says, and every load-time expression can be
evaluated (`recognition_agrees`).

## Structure

- §1 compares the two kinds of delimiters.
- §2 says which texts an evaluator takes for expressions.
-/

namespace PageTemplates

open ExpressionKind (loadTimeOpening runTimeOpening closing classify classify_eq_iff Delimited delimited_iff RunTimeForm)

namespace Expression

/-! ## §1 Delimiters -/

section Delimiters

variable {text : String} {cs : List Char}

/-- A text in the delimiters of a run-time expression is one of those in which they occur. -/
theorem runTimeForm_of_delimited (h : Delimited runTimeOpening cs) : RunTimeForm cs := by
  obtain ⟨lead, body, trail, -, -, hcs⟩ := h
  exact ⟨lead, body, trail, by rw [hcs]; simp⟩

/-- By its first character a text has one opening delimiter at most. -/
theorem not_loadTime_of_delimited (h : Delimited runTimeOpening cs) : ¬ Delimited loadTimeOpening cs := by
  intro hload
  obtain ⟨body, hbody⟩ := (delimited_iff (.inr rfl)).mp h
  obtain ⟨other, hother⟩ := (delimited_iff (.inl rfl)).mp hload
  cases hbody.symm.trans hother

theorem classify_of_delimited (h : Delimited runTimeOpening text.toList) : classify text = .runTime :=
  classify_eq_iff.mpr ⟨not_loadTime_of_delimited h, runTimeForm_of_delimited h⟩

end Delimiters

/-! ## §2 Evaluators -/

/-- The answer is that the text is no expression. -/
def Refused {α : Type} (answer : Except EvaluationError α) : Prop :=
  ∃ expression message, answer = .error (.invalid expression message)

/-- A text is taken for an expression: it can be evaluated, or made a live value, or made a callable, though it may turn
out to have no value. -/
inductive Accepts (ev : Evaluator) (text : String) : Prop where
  | evaluated (scope : Scope) (h : ¬ Refused (ev.evaluate text scope))
  | live (type : ValueType) (h : ¬ Refused (ev.liveValue text type))
  | called (h : ¬ Refused (ev.callable text))

section Evaluators

variable {text : String}

/-- A text has a body if it stands between delimiters of either kind. -/
theorem exists_body_iff :
    (∃ cs, body text = .ok cs) ↔ Delimited loadTimeOpening text.toList ∨ Delimited runTimeOpening text.toList := by
  constructor
  · -- a body was cut out between an opening delimiter and the closing one at the end
    rintro ⟨cs, hbody⟩
    unfold body at hbody
    split at hbody
    · rename_i hchars
      obtain ⟨rest, hrest, hcut⟩ := Option.bind_eq_some_iff.mp hchars
      obtain ⟨inner, hinner, -⟩ := Option.map_eq_some_iff.mp hcut
      rw [Text.before?_eq_some_iff] at hinner
      -- the first of the two opening delimiters that is found is the one of the text
      rcases Option.or_eq_some_iff.mp hrest with hopening | ⟨-, hopening⟩
      · refine .inl ((delimited_iff (.inl rfl)).mpr ⟨inner, ?_⟩)
        rw [Text.after?_eq_some_iff.mp hopening, hinner, List.append_assoc]
      · refine .inr ((delimited_iff (.inr rfl)).mpr ⟨inner, ?_⟩)
        rw [Text.after?_eq_some_iff.mp hopening, hinner, List.append_assoc]
    · cases hbody
  · intro h
    obtain ⟨opening, hopening, inner, hinner⟩ : ∃ opening, (opening = loadTimeOpening ∨ opening = runTimeOpening) ∧
        ∃ inner, Text.trimChars text.toList = opening ++ inner ++ [closing] := by
      rcases h with h | h
      · exact ⟨_, .inl rfl, (delimited_iff (.inl rfl)).mp h⟩
      · exact ⟨_, .inr rfl, (delimited_iff (.inr rfl)).mp h⟩
    -- without the blanks around it the text is what the delimiters and the body make
    obtain ⟨lead, trail, hlead, htrail, htext⟩ := Text.exists_trimmed text.toList
    rw [hinner] at htext
    refine ⟨Text.trimChars inner, ?_⟩
    unfold body
    rw [htext, bodyChars?_delimited hopening hlead htrail]

theorem body_eq_error {e : EvaluationError} (h : body text = .error e) : e = notDelimited text := by
  unfold body at h
  split at h <;> cases h
  rfl

/-- Evaluating a text, making a live value of it and making a callable of it are refused alike: where there is no
body. -/
theorem refused_iff (scope : Scope) (type : ValueType) :
    (Refused (Evaluator.ofScope.evaluate text scope) ↔ ¬ ∃ cs, body text = .ok cs) ∧
      (Refused (Evaluator.ofScope.liveValue text type) ↔ ¬ ∃ cs, body text = .ok cs) ∧
      (Refused (Evaluator.ofScope.callable text) ↔ ¬ ∃ cs, body text = .ok cs) := by
  cases hbody : body text with
  | error e =>
    -- all three look at the body first, and fail in the same way where there is none
    obtain rfl := body_eq_error hbody
    have hnone : ¬ ∃ cs, (.error (notDelimited text) : Except EvaluationError (List Char)) = .ok cs := by
      rintro ⟨_, h⟩
      cases h
    simp only [Evaluator.ofScope, evaluate, hbody, Except.map]
    exact ⟨iff_of_true ⟨_, _, rfl⟩ hnone, iff_of_true ⟨_, _, rfl⟩ hnone, iff_of_true ⟨_, _, rfl⟩ hnone⟩
  | ok cs =>
    simp only [Evaluator.ofScope, evaluate, hbody, Except.map]
    have hsome : ¬ ¬ ∃ ds, (.ok cs : Except EvaluationError (List Char)) = .ok ds := not_not.mpr ⟨cs, rfl⟩
    refine ⟨iff_of_false ?_ hsome, iff_of_false ?_ hsome, iff_of_false ?_ hsome⟩ <;> rintro ⟨_, _, h⟩
    · -- a variable that is not bound is another failure
      split at h <;> cases h
    · cases h
    · cases h

theorem accepts_iff :
    Accepts .ofScope text ↔ Delimited loadTimeOpening text.toList ∨ Delimited runTimeOpening text.toList := by
  rw [← exists_body_iff]
  constructor
  · intro h
    cases h with
    | evaluated scope h => exact not_not.mp fun hnone => h ((refused_iff scope .object).1.mpr hnone)
    | live type h => exact not_not.mp fun hnone => h ((refused_iff .empty type).2.1.mpr hnone)
    -- the scope and the type of a live value have nothing to do with it
    | called h => exact not_not.mp fun hnone => h ((refused_iff .empty .object).2.2.mpr hnone)
  · intro h
    exact .called fun hrefused => (refused_iff .empty .object).2.2.mp hrefused h

end Evaluators

/-- **Classifying and evaluating agree.** A text is a load-time expression if it stands between the delimiters of one,
otherwise a run-time expression if those of one occur in it, and otherwise a literal. No load-time expression is refused
for being none when it is evaluated. Whatever is evaluated, made a live value or made a callable without being refused
stands between the delimiters of the kind that it is classified as. -/
theorem recognition_agrees (text : String) :
    (classify text = .loadTime ↔ Delimited loadTimeOpening text.toList) ∧
      (classify text = .runTime ↔ ¬ Delimited loadTimeOpening text.toList ∧ RunTimeForm text.toList) ∧
      (classify text = .literal ↔ ¬ Delimited loadTimeOpening text.toList ∧ ¬ RunTimeForm text.toList) ∧
      (classify text = .loadTime → ∀ scope, ¬ Refused (Evaluator.ofScope.evaluate text scope)) ∧
      (Accepts .ofScope text ↔
        (Delimited loadTimeOpening text.toList ∧ classify text = .loadTime) ∨
          (Delimited runTimeOpening text.toList ∧ classify text = .runTime)) := by
  have hload : classify text = .loadTime ↔ Delimited loadTimeOpening text.toList := classify_eq_iff
  refine ⟨hload, classify_eq_iff, classify_eq_iff, fun h scope hrefused => ?_, ?_⟩
  · exact (refused_iff scope .object).1.mp hrefused (exists_body_iff.mpr (.inl (hload.mp h)))
  · rw [accepts_iff]
    constructor
    · -- what is taken for an expression is classified by the same delimiters
      rintro (h | h)
      · exact .inl ⟨h, hload.mpr h⟩
      · exact .inr ⟨h, classify_of_delimited h⟩
    · rintro (⟨h, -⟩ | ⟨h, -⟩)
      · exact .inl h
      · exact .inr h

/-- The delimiters of a run-time expression inside those of a load-time expression do not count. -/
theorem nested_delimiters_recognised :
    let text := " $\x7ba #\x7bb\x7d\x7d"
    classify text = .loadTime ∧ ¬ Refused (Evaluator.ofScope.evaluate text .empty) := by
  intro text
  have hload : classify text = .loadTime := by decide
  exact ⟨hload, (recognition_agrees text).2.2.2.1 hload .empty⟩

/-- A text in which a run-time expression is embedded is classified as one, but is refused as a whole. -/
example : classify "Hello #\x7bname\x7d!" = .runTime ∧
    bodyChars? "Hello #\x7bname\x7d!".toList = none := by decide

end Expression

end PageTemplates
