import PageTemplates.Error
import PageTemplates.Proofs.Program.Answers

/-!
# Programs that differ in the places of their errors

Two programs are alike if they ask the same and end in the same way, except that an error may point to another place in
a text. Parts that are alike make sequences that are alike (`Alike.bind`), so the comparison follows the programs step by
step. Whatever handler answers, programs that are alike cannot be told apart but by those places (`Alike.trace_eq`).
-/

namespace PageTemplates

/-- A failure without the place that it points to. -/
def Error.unlocated : Error → Error
  | .parse reason _ => .parse reason none
  | e => e

namespace Program

variable {R : Type} {A : R → Type} {α β σ : Type}

/-! ## §1 Laws -/

instance : LawfulMonad (Program A) :=
  LawfulMonad.mk' _ bind_pure' bind_done bind_assoc'

/-- A function of the outcome leaves the state alone. -/
theorem run_map (handle : Handler A σ) (f : α → β) (p : Program A α) (s : σ) :
    (f <$> p).run handle s = (f (p.run handle s).1, (p.run handle s).2) := by
  rw [← bind_pure_comp, run_bind]
  rfl

/-- A function of the outcome leaves the events alone. -/
theorem trace_map (handle : Handler A σ) (f : α → β) (p : Program A α) (s : σ) :
    (f <$> p).trace handle s = (f (p.trace handle s).1, (p.trace handle s).2) := by
  induction p generalizing s with
  | done a => rfl
  | ask r next ih =>
    -- the request is put in both programs, and then the rest of the one is compared with the rest of the other
    have hrest := ih (handle r s).1 (handle r s).2
    show (let rest := (f <$> next (handle r s).1).trace handle (handle r s).2; (rest.1, _ :: rest.2)) = _
    rw [hrest]
    rfl

/-! ## §2 Programs that are alike -/

/-- The programs put the same requests and have the same outcome, up to the places of errors. -/
def Alike (p q : ExceptT Error (Program A) α) : Prop :=
  ExceptT.adapt Error.unlocated p = ExceptT.adapt Error.unlocated q

/-- A change of errors acts on a failure directly. -/
theorem adapt_error (g : Error → Error) (e : Error) :
    ExceptT.adapt g (ExceptT.mk (.done (.error e)) : ExceptT Error (Program A) α) = ExceptT.mk (.done (.error (g e))) := rfl

/-- A change of errors acts on both parts of a sequence. -/
theorem adapt_bind (g : Error → Error) (p : ExceptT Error (Program A) α) (f : α → ExceptT Error (Program A) β) :
    ExceptT.adapt g (p >>= f) = ExceptT.adapt g p >>= fun a => ExceptT.adapt g (f a) := by
  refine ExceptT.ext ?_
  rw [ExceptT.run_adapt, ExceptT.run_bind, ExceptT.run_bind, ExceptT.run_adapt, map_bind, bind_map_left]
  refine bind_congr fun outcome => ?_
  -- after a failure the second part is not run, and the failure is changed just once
  cases outcome with
  | error e => rfl
  | ok a => rfl

/-- Programs whose errors are changed have the same events. -/
theorem trace_adapt (handle : Handler A σ) (g : Error → Error) (p : ExceptT Error (Program A) α) (s : σ) :
    trace handle (ExceptT.adapt g p) s = ((trace handle p s).1.mapError g, (trace handle p s).2) :=
  trace_map handle (Except.mapError g) p s

/-- Programs whose errors are changed end in the same state. -/
theorem run_adapt (handle : Handler A σ) (g : Error → Error) (p : ExceptT Error (Program A) α) (s : σ) :
    run handle (ExceptT.adapt g p) s = ((run handle p s).1.mapError g, (run handle p s).2) :=
  run_map handle (Except.mapError g) p s

namespace Alike

variable {p q : ExceptT Error (Program A) α} {f g : α → ExceptT Error (Program A) β}

theorem refl (p : ExceptT Error (Program A) α) : Alike p p := rfl

theorem symm (h : Alike p q) : Alike q p := Eq.symm h

theorem trans {r : ExceptT Error (Program A) α} (h : Alike p q) (h' : Alike q r) : Alike p r := Eq.trans h h'

/-- Sequences are alike if their parts are. -/
theorem bind (h : Alike p q) (hrest : ∀ a, Alike (f a) (g a)) : Alike (p >>= f) (q >>= g) := by
  -- the errors of the first part are forgotten before it is compared, so the second part is run on the same results
  unfold Alike at *
  rw [adapt_bind, adapt_bind, h]
  exact congrArg _ (funext hrest)

/-- No handler can tell the programs apart, but for the places of errors. -/
theorem trace_eq (h : Alike p q) (handle : Handler A σ) (s : σ) :
    (trace handle p s).1.mapError Error.unlocated = (trace handle q s).1.mapError Error.unlocated ∧
      (trace handle p s).2 = (trace handle q s).2 ∧ (run handle p s).2 = (run handle q s).2 := by
  -- the two programs are the same once their errors are forgotten, and so are their traces and their final states
  have htrace : trace handle (ExceptT.adapt Error.unlocated p) s = trace handle (ExceptT.adapt Error.unlocated q) s :=
    congrArg (trace handle · s) h
  have hrun : run handle (ExceptT.adapt Error.unlocated p) s = run handle (ExceptT.adapt Error.unlocated q) s :=
    congrArg (run handle · s) h
  rw [trace_adapt, trace_adapt] at htrace
  rw [run_adapt, run_adapt] at hrun
  obtain ⟨hresult, hevents⟩ := Prod.mk.inj htrace
  exact ⟨hresult, hevents, (Prod.mk.inj hrun).2⟩

end Alike

end Program

end PageTemplates
