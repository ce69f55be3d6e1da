import PageTemplates.Error
import PageTemplates.Program
import PageTemplates.Proofs.Program.Outcome

/-!
# Runs of programs

What a program may do when nothing is known of its surroundings: a run lists the requests that are put, each with
some answer, and ends in a result. A statement about all runs holds for every handler, whatever state the handler
keeps and however its answers change from one request to the next.

The main tool is the inversion of a sequence (`runs_bind`, and `runs_bind_except` for programs that may fail): a
run of a sequence is a run of its first part, followed by a run of the second part unless the first part failed.
-/

namespace PageTemplates.Program

variable {R : Type} {A : R → Type} {α β : Type}

/-! ## §1 Runs -/

/-- A possible run of a program: each request gets some answer. -/
inductive Runs : Program A α → List (Event A) → α → Prop where
  /-- A finished program asks nothing. -/
  | done (a : α) : Runs (.done a) [] a
  /-- A request is answered, and the run goes on with the answer. -/
  | ask (r : R) {next : A r → Program A α} (answer : A r) {events : List (Event A)} {a : α}
      (h : Runs (next answer) events a) : Runs (.ask r next) (⟨r, answer⟩ :: events) a

/-- What a handler makes of a program is one of its runs. -/
theorem runs_trace {σ : Type} (handle : Handler A σ) (p : Program A α) (s : σ) :
    p.Runs (p.trace handle s).2 (p.trace handle s).1 := by
  induction p generalizing s with
  | done a => exact .done a
  | ask r next ih => exact .ask r _ (ih _ _)

/-! ## §2 Inversion -/

theorem runs_done {a b : α} {events : List (Event A)} :
    (Program.done a : Program A α).Runs events b ↔ events = [] ∧ b = a := by
  constructor
  · intro h
    cases h
    exact ⟨rfl, rfl⟩
  · rintro ⟨rfl, rfl⟩
    exact .done b

theorem runs_ask {r : R} {next : A r → Program A α} {events : List (Event A)} {a : α} :
    (Program.ask r next).Runs events a ↔
      ∃ answer rest, events = ⟨r, answer⟩ :: rest ∧ (next answer).Runs rest a := by
  constructor
  · intro h
    cases h with
    | ask _ answer h => exact ⟨answer, _, rfl, h⟩
  · rintro ⟨answer, rest, rfl, h⟩
    exact .ask r answer h

theorem runs_bind {p : Program A α} {f : α → Program A β} {events : List (Event A)} {b : β} :
    (p >>= f).Runs events b ↔
      ∃ a first second, events = first ++ second ∧ p.Runs first a ∧ (f a).Runs second b := by
  -- by induction on the first program: each request of it is the first one of the sequence
  induction p generalizing events with
  | done a =>
    rw [bind_done]
    constructor
    · intro h
      exact ⟨a, [], events, rfl, .done a, h⟩
    · rintro ⟨c, first, second, rfl, hp, hf⟩
      obtain ⟨rfl, rfl⟩ := runs_done.mp hp
      exact hf
  | ask r next ih =>
    rw [bind_ask, runs_ask]
    constructor
    · rintro ⟨answer, rest, rfl, h⟩
      obtain ⟨a, first, second, rfl, hp, hf⟩ := (ih answer).mp h
      exact ⟨a, ⟨r, answer⟩ :: first, second, rfl, .ask r answer hp, hf⟩
    · rintro ⟨a, first, second, rfl, hp, hf⟩
      obtain ⟨answer, rest, rfl, hnext⟩ := runs_ask.mp hp
      exact ⟨answer, rest ++ second, rfl, (ih answer).mpr ⟨a, rest, second, rfl, hnext, hf⟩⟩

/-- The first part of a run that belongs to a longer one belongs to it too. -/
theorem infix_left {E : Type} {first second all : List E} (h : first ++ second <:+: all) : first <:+: all :=
  (List.prefix_append first second).isInfix.trans h

theorem infix_right {E : Type} {first second all : List E} (h : first ++ second <:+: all) : second <:+: all :=
  (List.suffix_append first second).isInfix.trans h

/-! ## §3 Programs that may fail -/

/-- A run of a sequence of programs that may fail: the first part fails and nothing follows, or it succeeds and is
followed by a run of the second part. -/
theorem runs_bind_except {p : ExceptT Error (Program A) α} {f : α → ExceptT Error (Program A) β}
    {events : List (Event A)} {result : Except Error β} :
    Runs (p >>= f : ExceptT Error (Program A) β) events result ↔
      (∃ e, result = .error e ∧ Runs p events (.error e)) ∨
        ∃ a first second, events = first ++ second ∧ Runs p first (.ok a) ∧ Runs (f a) second result := by
  -- a sequence of programs that may fail is a sequence of programs, whose second one looks at the outcome
  have unfolded : (p >>= f : ExceptT Error (Program A) β) =
      (show Program A (Except Error α) from p) >>= ExceptT.bindCont f := rfl
  rw [unfolded, runs_bind]
  constructor
  · rintro ⟨a, first, second, rfl, hp, hf⟩
    cases a with
    | error e =>
      obtain ⟨rfl, rfl⟩ := runs_done.mp hf
      exact .inl ⟨e, rfl, by rwa [List.append_nil]⟩
    | ok a => exact .inr ⟨a, first, second, rfl, hp, hf⟩
  · rintro (⟨e, rfl, hp⟩ | ⟨a, first, second, rfl, hp, hf⟩)
    · exact ⟨.error e, events, [], (List.append_nil _).symm, hp, .done _⟩
    · exact ⟨.ok a, first, second, rfl, hp, hf⟩

/-- A run of a sequence that succeeds consists of two successful runs. -/
theorem runs_bind_ok {p : ExceptT Error (Program A) α} {f : α → ExceptT Error (Program A) β}
    {events : List (Event A)} {b : β} (h : Runs (p >>= f : ExceptT Error (Program A) β) events (.ok b)) :
    ∃ a first second, events = first ++ second ∧ Runs p first (.ok a) ∧ Runs (f a) second (.ok b) := by
  rcases runs_bind_except.mp h with ⟨e, he, _⟩ | h
  · cases he
  · exact h

theorem runs_pure_except {a : α} {events : List (Event A)} {result : Except Error α} :
    Runs (pure a : ExceptT Error (Program A) α) events result ↔ events = [] ∧ result = .ok a :=
  runs_done

/-- What a handler makes of a program is a successful run if it is a success. -/
theorem runs_of_isOk {σ : Type} (handle : Handler A σ) (p : ExceptT Error (Program A) α) (s : σ)
    (h : (Program.trace handle p s).1.isOk) : ∃ a, Runs p (Program.trace handle p s).2 (.ok a) := by
  have hruns : Runs p _ _ := runs_trace handle p s
  obtain ⟨a, ha⟩ := Outcome.exists_of_isOk h
  rw [ha] at hruns
  exact ⟨a, hruns⟩

end PageTemplates.Program
