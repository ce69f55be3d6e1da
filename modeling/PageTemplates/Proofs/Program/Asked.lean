import PageTemplates.Proofs.Program.Runs

/-!
# What a program may ask

A program asks within a set of requests if no run of it has any other. Two handlers that agree on these requests, up to
a part of the state that has no influence on the answers, make the same of it (`Asks.run_eq`).
-/

namespace PageTemplates.Program

variable {R : Type} {A : R → Type} {α β σ τ : Type} {P Q : R → Prop}

/-- Each request that may be put is in a set. -/
def Asks (P : R → Prop) (p : Program A α) : Prop := ∀ events a, p.Runs events a → ∀ e ∈ events, P e.request

namespace Asks

theorem anything (p : Program A α) : p.Asks fun _ => True := fun _ _ _ _ _ => trivial

theorem done (a : α) : (Program.done a : Program A α).Asks P := by
  intro events b h
  simp [(runs_done.mp h).1]

theorem ask {r : R} {next : A r → Program A α} (hr : P r) (hnext : ∀ answer, (next answer).Asks P) :
    (Program.ask r next).Asks P := by
  intro events a h
  obtain ⟨answer, rest, rfl, hrest⟩ := runs_ask.mp h
  exact List.forall_mem_cons.mpr ⟨hr, hnext answer _ _ hrest⟩

theorem bind_except {p : ExceptT Error (Program A) α} {f : α → ExceptT Error (Program A) β} (hp : Asks P p)
    (hf : ∀ a, Asks P (f a)) : Asks P (p >>= f : ExceptT Error (Program A) β) := by
  intro events b h
  -- after a failure the second program asks nothing
  rcases runs_bind_except.mp h with ⟨e, rfl, hrun⟩ | ⟨a, first, second, rfl, hfirst, hsecond⟩
  · exact hp _ _ hrun
  · exact List.forall_mem_append.mpr ⟨hp _ _ hfirst, hf a _ _ hsecond⟩

theorem mono {p : Program A α} (hp : p.Asks P) (h : ∀ r, P r → Q r) : p.Asks Q :=
  fun events a hrun e he => h _ (hp events a hrun e he)

/-- Two handlers make the same of a program if they answer alike what it may ask, where `g` turns the states of the
one into states of the other. -/
theorem run_eq {handle : Handler A σ} {other : Handler A τ} {g : σ → τ} {p : Program A α} (hp : p.Asks P)
    (h : ∀ r, P r → ∀ s, other r (g s) = ((handle r s).1, g (handle r s).2)) (s : σ) :
    p.run other (g s) = ((p.run handle s).1, g (p.run handle s).2) := by
  induction p generalizing s with
  | done a => rfl
  | ask r next ih =>
    -- the request is put in the run that the one handler makes
    have hr : P r := hp _ _ (runs_trace handle (.ask r next) s) _ List.mem_cons_self
    have hanswer := h r hr s
    show (next (other r (g s)).1).run other (other r (g s)).2 = _
    rw [hanswer]
    refine ih _ (fun events a hrun e he => ?_) _
    exact hp _ _ (.ask r (handle r s).1 hrun) e (List.mem_cons_of_mem _ he)

end Asks

end PageTemplates.Program
