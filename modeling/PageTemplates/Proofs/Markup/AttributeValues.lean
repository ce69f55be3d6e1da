import PageTemplates.Markup.Reference

/-!
# Attribute values that are read as they are written

What an attribute value stands for is never longer than what is written, since a reference is longer than the character
it stands for. So a value is read as it is written just if it holds no reference, and no blank that would be read as a
space (`attributeContent?_eq_self_iff`).
-/

namespace PageTemplates.Markup

/-- The character stands for itself in an attribute value. -/
def StandsForItself (c : Char) : Prop := c ≠ '&' ∧ c ≠ '\t' ∧ c ≠ '\n' ∧ c ≠ '\r'

/-! ## §1 References -/

section References

variable {cs : List Char} {ws : List WrittenChar} {open? : Option (List Char)}

/-- What is written is at least as long as what it stands for. -/
theorem length_dereference? (h : dereference? open? cs = some ws) : ws.length ≤ cs.length := by
  -- by induction on the characters, inside and outside of a reference alike: a reference that is still open yields its
  -- character only when it is closed
  induction cs generalizing open? ws with
  | nil =>
    cases open? <;> cases h
    exact Nat.le_refl _
  | cons c cs ih =>
    rw [List.length_cons]
    cases open? with
    | none =>
      simp only [dereference?] at h
      split at h
      · exact Nat.le_succ_of_le (ih h)
      · obtain ⟨more, hmore, rfl⟩ := Option.map_eq_some_iff.mp h
        exact Nat.succ_le_succ (ih hmore)
    | some read =>
      simp only [dereference?] at h
      split at h
      · split at h
        · obtain ⟨more, hmore, rfl⟩ := Option.map_eq_some_iff.mp h
          exact Nat.succ_le_succ (ih hmore)
        · cases h
      · exact Nat.le_succ_of_le (ih h)

/-- A reference is longer than what it stands for. -/
theorem length_dereference?_lt (hmem : '&' ∈ cs) (h : dereference? none cs = some ws) : ws.length < cs.length := by
  -- up to the first reference each character yields one; its ampersand is the one that yields none
  induction cs generalizing ws with
  | nil => cases hmem
  | cons c cs ih =>
    rw [List.length_cons]
    simp only [dereference?] at h
    split at h
    · exact Nat.lt_succ_of_le (length_dereference? h)
    · rename_i hc
      obtain ⟨more, hmore, rfl⟩ := Option.map_eq_some_iff.mp h
      exact Nat.succ_lt_succ (ih ((List.mem_cons.mp hmem).resolve_left (Ne.symm hc)) hmore)

/-- Without references every character stands for itself, blanks apart. -/
theorem dereference?_literal (h : '&' ∉ cs) : dereference? none cs = some (cs.map .literal) := by
  induction cs with
  | nil => rfl
  | cons c cs ih =>
    obtain ⟨hc, hcs⟩ := List.ne_and_not_mem_of_not_mem_cons h
    simp only [dereference?]
    rw [if_neg (Ne.symm hc), ih hcs]
    rfl

end References

/-! ## §2 Blanks -/

section Blanks

variable {cs : List Char}

/-- Reading blanks makes no text longer. -/
theorem length_flatten (ws : List WrittenChar) : (flatten ws).length ≤ ws.length := by
  fun_induction flatten ws with
  | case1 => exact Nat.le_refl _
  -- a return and the newline after it are read as one space
  | case2 ws ih =>
    simp only [List.length_cons]
    omega
  | case3 c ws _ ih => exact Nat.succ_le_succ ih
  | case4 c ws ih => exact Nat.succ_le_succ ih

/-- A blank at the beginning is read as a space, whatever follows it. -/
theorem flatten_blank {c : Char} (ws : List WrittenChar) (hc : c = '\r' ∨ c = '\n' ∨ c = '\t') :
    ∃ tail, flatten (.literal c :: ws) = ' ' :: tail := by
  unfold flatten
  split
  case h_1 heq => cases heq
  case h_2 => exact ⟨_, rfl⟩
  case h_3 heq =>
    cases heq
    exact ⟨_, by rw [if_pos hc]⟩
  case h_4 heq => cases heq

/-- What is no blank is read as it is. -/
theorem flatten_other {c : Char} (ws : List WrittenChar) (hc : ¬ (c = '\r' ∨ c = '\n' ∨ c = '\t')) :
    flatten (.literal c :: ws) = c :: flatten ws := by
  have hreturn : c ≠ '\r' := fun h => hc (.inl h)
  rw [flatten, if_neg hc]
  exact fun _ _ => hreturn

/-- Literal characters are read as they are if none of them is read as a space. -/
theorem flatten_literal_eq_iff :
    flatten (cs.map .literal) = cs ↔ ∀ c ∈ cs, c ≠ '\t' ∧ c ≠ '\n' ∧ c ≠ '\r' := by
  induction cs with
  | nil => exact iff_of_true rfl (List.forall_mem_nil _)
  | cons c cs ih =>
    rw [List.map_cons, List.forall_mem_cons]
    -- a character that is read as a space is not a space itself, so the two texts differ at once
    by_cases hc : c = '\r' ∨ c = '\n' ∨ c = '\t'
    · obtain ⟨tail, htail⟩ := flatten_blank (cs.map .literal) hc
      refine iff_of_false (fun h => ?_) ?_
      · obtain rfl : ' ' = c := (List.cons.inj (htail.symm.trans h)).1
        rcases hc with hc | hc | hc <;> cases hc
      · rintro ⟨⟨htab, hnewline, hreturn⟩, -⟩
        rcases hc with hc | hc | hc
        · exact hreturn hc
        · exact hnewline hc
        · exact htab hc
    · rw [flatten_other _ hc, List.cons_eq_cons, ih]
      refine and_congr_left fun _ => iff_of_true rfl ⟨?_, ?_, ?_⟩
      · exact fun h => hc (.inr (.inr h))
      · exact fun h => hc (.inr (.inl h))
      · exact fun h => hc (.inl h)

end Blanks

/-! ## §3 Values -/

section Values

variable {raw value : List Char}

/-- What an attribute value stands for is never longer than what is written. -/
theorem length_attributeContent? (h : attributeContent? raw = some value) : value.length ≤ raw.length := by
  obtain ⟨ws, hws, rfl⟩ := Option.map_eq_some_iff.mp h
  exact Nat.le_trans (length_flatten ws) (length_dereference? hws)

/-- A value is read as it is written just if each of its characters stands for itself. -/
theorem attributeContent?_eq_self_iff : attributeContent? raw = some raw ↔ ∀ c ∈ raw, StandsForItself c := by
  by_cases hmem : '&' ∈ raw
  · refine iff_of_false (fun h => ?_) fun h => (h _ hmem).1 rfl
    obtain ⟨ws, hws, hraw⟩ := Option.map_eq_some_iff.mp h
    -- with a reference in it, what is read is shorter than what is written
    have hshorter := length_dereference?_lt hmem hws
    have hflat := length_flatten ws
    rw [hraw] at hflat
    omega
  · -- without one only the blanks are left to be looked at
    unfold attributeContent?
    rw [dereference?_literal hmem, Option.map_some, Option.some_inj, flatten_literal_eq_iff]
    exact forall₂_congr fun c hc => (and_iff_right fun hand : c = '&' => hmem (hand ▸ hc)).symm

end Values

end PageTemplates.Markup
