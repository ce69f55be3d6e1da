/-!
# Programs that ask

A program is a computation that may put requests to its surroundings and goes on with their answers. It
does not say how a request is answered: a handler does. Since a program is data, what it asks, in which
order and depending on which answers can be read off it for every handler at once.
-/

namespace PageTemplates

/-- A computation of an `α` that puts requests `r : R` and goes on with answers of type `A r`. -/
inductive Program {R : Type} (A : R → Type) (α : Type) where
  | done (a : α)
  /-- A request, and how to go on with its answer. -/
  | ask (r : R) (next : A r → Program A α)

namespace Program

variable {R : Type} {A : R → Type} {α β : Type}

/-- Goes on with the result of a program. -/
def andThen : Program A α → (α → Program A β) → Program A β
  | .done a, f => f a
  | .ask r next, f => .ask r fun answer => (next answer).andThen f

instance : Monad (Program A) where
  pure := .done
  bind := andThen

/-- Puts one request and returns its answer. -/
def request (r : R) : Program A (A r) := .ask r .done

/-! ## §1 Handlers -/

/-- Answers requests, changing some state. -/
abbrev Handler (A : R → Type) (σ : Type) := (r : R) → σ → A r × σ

def run {σ : Type} (handle : Handler A σ) : Program A α → σ → α × σ
  | .done a, s => (a, s)
  | .ask r next, s =>
    let answered := handle r s
    (next answered.1).run handle answered.2

/-- A request together with its answer. -/
structure Event (A : R → Type) where
  request : R
  answer : A request

/-- Runs a program, and lists the requests it put and what was answered, in order. -/
def trace {σ : Type} (handle : Handler A σ) : Program A α → σ → α × List (Event A)
  | .done a, _ => (a, [])
  | .ask r next, s =>
    let answered := handle r s
    let rest := (next answered.1).trace handle answered.2
    (rest.1, ⟨r, answered.1⟩ :: rest.2)

/-! ## §2 Laws -/

@[simp] theorem pure_eq (a : α) : (pure a : Program A α) = .done a := rfl

@[simp] theorem bind_done (a : α) (f : α → Program A β) : (Program.done a >>= f) = f a := rfl

@[simp] theorem bind_ask (r : R) (next : A r → Program A α) (f : α → Program A β) :
    (Program.ask r next >>= f) = .ask r fun answer => next answer >>= f := rfl

theorem bind_pure' (p : Program A α) : (p >>= Program.done) = p := by
  induction p with
  | done a => rfl
  | ask r next ih => simp [ih]

theorem bind_assoc' {γ : Type} (p : Program A α) (f : α → Program A β) (g : β → Program A γ) :
    (p >>= f >>= g) = p >>= fun a => f a >>= g := by
  induction p with
  | done a => rfl
  | ask r next ih => simp [ih]

/-- Running a sequence of two programs runs one after the other. -/
theorem run_bind {σ : Type} (handle : Handler A σ) (p : Program A α) (f : α → Program A β) (s : σ) :
    (p >>= f).run handle s = (f (p.run handle s).1).run handle (p.run handle s).2 := by
  induction p generalizing s with
  | done a => rfl
  | ask r next ih => simp [run, ih]

end Program

end PageTemplates
