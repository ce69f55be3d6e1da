import PageTemplates.Proofs.Program.Runs

/-!
# Runs with one handler

What is put to a handler in the course of a run, the answers being its own: each is the one that the handler gives in
the state that it has come to (`Answers`). Where a statement about all runs is too weak, because it depends on what the
handler remembers, it is made of these.
-/

namespace PageTemplates.Program

variable {R : Type} {A : R → Type} {α σ : Type} {handle : Handler A σ}

/-- A handler gives the answers that are listed, and goes from one state to another meanwhile. -/
inductive Answers (handle : Handler A σ) : σ → List (Event A) → σ → Prop where
  | nil (s : σ) : Answers handle s [] s
  | cons (r : R) {s t : σ} {events : List (Event A)} (h : Answers handle (handle r s).2 events t) :
      Answers handle s (⟨r, (handle r s).1⟩ :: events) t

theorem answers_trace (handle : Handler A σ) (p : Program A α) (s : σ) :
    Answers handle s (p.trace handle s).2 (p.run handle s).2 := by
  induction p generalizing s with
  | done a => exact .nil s
  | ask r next ih => exact .cons r (ih _ _)

/-- Listing the requests does not change the result. -/
theorem trace_fst (handle : Handler A σ) (p : Program A α) (s : σ) : (p.trace handle s).1 = (p.run handle s).1 := by
  induction p generalizing s with
  | done a => rfl
  | ask r next ih => exact ih _ _

theorem answers_cons {s t : σ} {e : Event A} {events : List (Event A)} (h : Answers handle s (e :: events) t) :
    e.answer = (handle e.request s).1 ∧ Answers handle (handle e.request s).2 events t := by
  cases h with
  | cons r h => exact ⟨rfl, h⟩

theorem answers_append {s t : σ} {first second : List (Event A)} :
    Answers handle s (first ++ second) t ↔ ∃ m, Answers handle s first m ∧ Answers handle m second t := by
  -- by induction on the first part, from whatever state it starts in
  induction first generalizing s with
  | nil =>
    constructor
    · intro h
      exact ⟨s, .nil s, h⟩
    · rintro ⟨m, hfirst, hsecond⟩
      cases hfirst
      exact hsecond
  | cons e rest ih =>
    constructor
    · intro h
      cases h with
      | cons r h =>
        obtain ⟨m, hrest, hsecond⟩ := ih.mp h
        exact ⟨m, .cons r hrest, hsecond⟩
    · rintro ⟨m, hfirst, hsecond⟩
      cases hfirst with
      | cons r h => exact .cons r (ih.mpr ⟨m, h, hsecond⟩)

/-- Every answer is one of the handler's, in some state. -/
theorem Answers.exists_state {s t : σ} {events : List (Event A)} (h : Answers handle s events t) {e : Event A}
    (he : e ∈ events) : ∃ m, e.answer = (handle e.request m).1 := by
  induction h with
  | nil s => cases he
  | cons r _ ih =>
    rcases List.mem_cons.mp he with rfl | he
    · exact ⟨_, rfl⟩
    · exact ih he

/-- A run in which a handler gives the answers is what the handler makes of the program. -/
theorem run_of_answers {p : Program A α} {s t : σ} {events : List (Event A)} {a : α} (h : p.Runs events a)
    (hanswers : Answers handle s events t) : p.run handle s = (a, t) := by
  -- the run and the answers go through the same requests
  induction h generalizing s with
  | done a =>
    cases hanswers
    rfl
  | ask r answer _ ih =>
    cases hanswers with
    | cons r hrest => exact ih hrest

/-- Of several parts each is answered, from some state on. -/
theorem Answers.exists_part {ι : Type} {f : ι → List (Event A)} {l : List ι} {s t : σ}
    (h : Answers handle s (l.flatMap f) t) {x : ι} (hx : x ∈ l) : ∃ s' t', Answers handle s' (f x) t' := by
  obtain ⟨before, after, rfl⟩ := List.append_of_mem hx
  rw [List.flatMap_append, List.flatMap_cons] at h
  obtain ⟨s', -, hrest⟩ := answers_append.mp h
  obtain ⟨t', hpart, -⟩ := answers_append.mp hrest
  exact ⟨s', t', hpart⟩

end PageTemplates.Program
