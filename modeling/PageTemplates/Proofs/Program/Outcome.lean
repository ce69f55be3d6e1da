import Mathlib.Data.List.Forall2

/-!
# Successes of steps that may fail

How a success of a composed step comes about: each part has succeeded, and the results fit together. A failure is the
failure of one part. These are the inversions that proofs about `Except` go by.
-/

namespace PageTemplates.Outcome

variable {ε α β : Type}

theorem map_eq_ok {f : α → β} {r : Except ε α} {b : β} : r.map f = .ok b ↔ ∃ a, r = .ok a ∧ f a = b := by
  cases r with
  | error e => simp [Except.map]
  | ok a => simp [Except.map]

theorem bind_eq_ok {r : Except ε α} {f : α → Except ε β} {b : β} :
    (r >>= f) = .ok b ↔ ∃ a, r = .ok a ∧ f a = .ok b := by
  cases r with
  | error e => simp [bind, Except.bind]
  | ok a => simp [bind, Except.bind]

theorem bind_eq_error {r : Except ε α} {f : α → Except ε β} {e : ε} :
    (r >>= f) = .error e ↔ r = .error e ∨ ∃ a, r = .ok a ∧ f a = .error e := by
  cases r with
  | error e => simp [bind, Except.bind]
  | ok a => simp [bind, Except.bind]

theorem map_eq_error {f : α → β} {r : Except ε α} {e : ε} : r.map f = .error e ↔ r = .error e := by
  cases r with
  | error e => simp [Except.map]
  | ok a => simp [Except.map]

theorem exists_of_isOk {r : Except ε α} (h : r.isOk) : ∃ a, r = .ok a := by
  cases r with
  | error e => cases h
  | ok a => exact ⟨a, rfl⟩

theorem mapM_eq_ok_iff {f : α → Except ε β} {as : List α} {bs : List β} :
    as.mapM f = .ok bs ↔ List.Forall₂ (fun a b => f a = .ok b) as bs := by
  -- by induction on the list, each member of which has succeeded or there is no result
  induction as generalizing bs with
  | nil =>
    rw [List.mapM_nil, List.forall₂_nil_left_iff]
    exact ⟨fun h => (Except.ok.inj h).symm, fun h => congrArg Except.ok h.symm⟩
  | cons a rest ih =>
    rw [List.mapM_cons, List.forall₂_cons_left_iff]
    constructor
    · intro h
      obtain ⟨first, hfirst, h⟩ := bind_eq_ok.mp h
      obtain ⟨more, hmore, h⟩ := bind_eq_ok.mp h
      cases h
      exact ⟨first, more, hfirst, ih.mp hmore, rfl⟩
    · rintro ⟨first, more, hfirst, hmore, rfl⟩
      exact bind_eq_ok.mpr ⟨first, hfirst, bind_eq_ok.mpr ⟨more, ih.mpr hmore, rfl⟩⟩

/-- A list of successes is made of a success for each member. -/
theorem mem_of_mapM_eq_ok {f : α → Except ε β} {as : List α} {bs : List β} (h : as.mapM f = .ok bs) :
    ∀ b ∈ bs, ∃ a ∈ as, f a = .ok b := by
  have hall := mapM_eq_ok_iff.mp h
  clear h
  induction hall with
  | nil =>
    intro b hb
    cases hb
  | @cons a first _ _ hfirst _ ih =>
    intro b hb
    rcases List.mem_cons.mp hb with rfl | hb
    · exact ⟨a, List.mem_cons_self, hfirst⟩
    · obtain ⟨c, hc, hfc⟩ := ih b hb
      exact ⟨c, List.mem_cons_of_mem a hc, hfc⟩

/-- A list of steps fails as the first of them does that fails. -/
theorem mapM_eq_error_iff {f : α → Except ε β} {as : List α} {e : ε} :
    as.mapM f = .error e ↔
      ∃ before a after, as = before ++ a :: after ∧ (∀ c ∈ before, ∃ b, f c = .ok b) ∧ f a = .error e := by
  induction as with
  | nil => simp [pure, Except.pure]
  | cons first rest ih =>
    rw [List.mapM_cons]
    constructor
    · intro h
      rcases bind_eq_error.mp h with hfirst | ⟨b, hfirst, h⟩
      · exact ⟨[], first, rest, rfl, List.forall_mem_nil _, hfirst⟩
      -- the first step succeeds, so it is one of the others that fails
      rcases bind_eq_error.mp h with hrest | ⟨_, _, h⟩
      · obtain ⟨before, a, after, rfl, hbefore, ha⟩ := ih.mp hrest
        exact ⟨first :: before, a, after, rfl, List.forall_mem_cons.mpr ⟨⟨b, hfirst⟩, hbefore⟩, ha⟩
      · cases h
    · rintro ⟨before, a, after, heq, hbefore, ha⟩
      cases before with
      | nil =>
        cases heq
        rw [ha]
        rfl
      | cons c before =>
        cases heq
        obtain ⟨⟨b, hb⟩, hbefore⟩ := List.forall_mem_cons.mp hbefore
        rw [hb, ih.mpr ⟨before, a, after, rfl, hbefore, ha⟩]
        rfl

/-- Of steps that go on from one another, the first succeeds, and then the others do from what it has given. -/
theorem foldlM_cons_eq_ok_iff {f : β → α → Except ε β} {a : α} {as : List α} {b c : β} :
    (a :: as).foldlM f b = .ok c ↔ ∃ next, f b a = .ok next ∧ as.foldlM f next = .ok c := by
  rw [List.foldlM_cons, bind_eq_ok]

theorem foldlM_append_eq_ok_iff {f : β → α → Except ε β} {as more : List α} {b c : β} :
    (as ++ more).foldlM f b = .ok c ↔ ∃ next, as.foldlM f b = .ok next ∧ more.foldlM f next = .ok c := by
  rw [List.foldlM_append, bind_eq_ok]

end PageTemplates.Outcome
