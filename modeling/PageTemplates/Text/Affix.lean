/-!
# Beginnings and ends of texts

Taking a known beginning or end off a text, and looking for the occurrences of a mark. All of them work
on lists of characters, so that each step is a recursion on the data.
-/

namespace PageTemplates.Text

/-! ## §1 Taking off a beginning or an end -/

/-- What follows `start`, if the text begins with it. -/
def after? : (start text : List Char) → Option (List Char)
  | [], text => some text
  | _ :: _, [] => none
  | c :: start, d :: text => if c = d then after? start text else none

/-- What stands before `ending`, if the text ends with it. -/
def before? (ending text : List Char) : Option (List Char) :=
  (after? ending.reverse text.reverse).map List.reverse

/-- A text begins with `start` exactly if taking `start` off succeeds, and the rest is what follows. -/
theorem after?_eq_some_iff {start text rest : List Char} :
    after? start text = some rest ↔ text = start ++ rest := by
  induction start generalizing text with
  | nil => simp [after?, eq_comm]
  | cons c start ih =>
    cases text with
    | nil => simp [after?]
    | cons d text =>
      by_cases h : c = d
      · subst h; simp [after?, ih]
      · simp [after?, h, Ne.symm h]

/-- A text ends with `ending` exactly if taking `ending` off succeeds, and the rest stands before it. -/
theorem before?_eq_some_iff {ending text rest : List Char} :
    before? ending text = some rest ↔ text = rest ++ ending := by
  simp only [before?, Option.map_eq_some_iff, after?_eq_some_iff]
  constructor
  · rintro ⟨r, h, rfl⟩
    have := congrArg List.reverse h
    simpa using this
  · intro h
    exact ⟨rest.reverse, by simp [h], by simp⟩

/-! ## §2 Searching -/

/-- What follows the first occurrence of `mark` in a text. -/
def afterFirst? (mark : List Char) : List Char → Option (List Char)
  | [] => after? mark []
  | c :: text => (after? mark (c :: text)).or (afterFirst? mark text)

/-- Some occurrence of `mark` is followed by a rest that `good` accepts. Occurrences are counted from left to
right without overlap: after one has been met, the search goes on behind it (`skip` characters further). -/
def anyAfter (mark : List Char) (good : List Char → Bool) : (skip : Nat) → (text : List Char) → Bool
  | _, [] => false
  | skip + 1, _ :: text => anyAfter mark good skip text
  | 0, c :: text => match after? mark (c :: text) with
    | some rest => good rest || anyAfter mark good (mark.length - 1) text
    | none => anyAfter mark good 0 text

end PageTemplates.Text
