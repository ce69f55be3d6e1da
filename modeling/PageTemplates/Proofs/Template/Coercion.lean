import PageTemplates.Proofs.Build.Collections
import Mathlib.Data.List.Basic

/-!
# Values that have been coerced

A value that has been coerced to a type is one of that type: coercing it again leaves it as it is, whether it came from a
text or from another value. Its text can be read again as well, except that of a double, about which nothing is said
here. For integers it is said exactly what is read and what is accepted (`coercion_settles`).

Integers are written in the usual way, which `Text.WritesInteger` spells out. The scanner reads just these texts
(`Text.integer?_eq_some_iff`), and the text that an integer is shown by is one of them
(`Text.writesInteger_ofInteger`).
-/

namespace PageTemplates

/-! ## §1 Integers in texts -/

namespace Text

/-- One or more ASCII digits. -/
structure AreDigits (cs : List Char) : Prop where
  some : cs ≠ []
  digits : ∀ c ∈ cs, c.isDigit = true

/-- A text writes an integer: in digits, with a sign in front of them or without. -/
inductive WritesInteger : List Char → Int → Prop where
  | unsigned {ds : List Char} (h : AreDigits ds) : WritesInteger ds (Nat.ofDigitChars 10 ds 0)
  | plus {ds : List Char} (h : AreDigits ds) : WritesInteger ('+' :: ds) (Nat.ofDigitChars 10 ds 0)
  | minus {ds : List Char} (h : AreDigits ds) : WritesInteger ('-' :: ds) (-(Nat.ofDigitChars 10 ds 0))

variable {cs : List Char} {n read : Nat} {i : Int}

theorem digit?_eq (c : Char) : digit? c = if c.isDigit then some (c.toNat - '0'.toNat) else none := by
  have hdigit : ('0' ≤ c ∧ c ≤ '9') ↔ c.isDigit = true := by
    rw [Char.isDigit, Bool.and_eq_true, decide_eq_true_iff, decide_eq_true_iff]
    rfl
  exact if_congr hdigit rfl rfl

theorem digitsFrom?_eq_some_iff :
    digitsFrom? read cs = some n ↔ (∀ c ∈ cs, c.isDigit = true) ∧ n = Nat.ofDigitChars 10 cs read := by
  induction cs generalizing read with
  | nil =>
    show some read = some n ↔ _ ∧ n = read
    exact ⟨fun h => ⟨List.forall_mem_nil _, (Option.some.inj h).symm⟩, fun h => congrArg some h.2.symm⟩
  | cons c rest ih =>
    rw [digitsFrom?, digit?_eq, Nat.ofDigitChars_cons, List.forall_mem_cons]
    by_cases hc : c.isDigit = true
    · simp only [hc, if_true, ih, true_and]
    · simp [hc]

theorem natural?_eq_some_iff : natural? cs = some n ↔ AreDigits cs ∧ n = Nat.ofDigitChars 10 cs 0 := by
  cases cs with
  | nil => exact ⟨nofun, fun h => absurd rfl h.1.some⟩
  | cons c rest =>
    rw [natural?, digitsFrom?_eq_some_iff]
    exact and_congr_left fun _ => ⟨fun h => ⟨List.cons_ne_nil c rest, h⟩, AreDigits.digits⟩

theorem integer?_minus (cs : List Char) : integer? ('-' :: cs) = (natural? cs).map fun (n : Nat) => -(n : Int) := by
  rw [integer?]
  cases natural? cs <;> rfl

/-- Reading finds the integer that is written, and fails on every other text. -/
theorem integer?_eq_some_iff : integer? cs = some i ↔ WritesInteger cs i := by
  constructor
  · intro h
    unfold integer? at h
    split at h
    case h_2 rest =>
      obtain ⟨n, hn, rfl⟩ := Option.map_eq_some_iff.mp ((integer?_minus rest).symm.trans h)
      obtain ⟨hdigits, rfl⟩ := natural?_eq_some_iff.mp hn
      exact .minus hdigits
    all_goals
      obtain ⟨n, hn, rfl⟩ := Option.map_eq_some_iff.mp h
      obtain ⟨hdigits, rfl⟩ := natural?_eq_some_iff.mp hn
    · exact .plus hdigits
    · exact .unsigned hdigits
  · intro h
    cases h with
    | plus h =>
      rw [integer?, natural?_eq_some_iff.mpr ⟨h, rfl⟩]
      rfl
    | minus h =>
      rw [integer?_minus, natural?_eq_some_iff.mpr ⟨h, rfl⟩]
      rfl
    | unsigned h =>
      unfold integer?
      split
      · -- a sign is no digit
        exact absurd (h.digits '+' List.mem_cons_self) (by decide)
      · exact absurd (h.digits '-' List.mem_cons_self) (by decide)
      · rw [natural?_eq_some_iff.mpr ⟨h, rfl⟩]
        rfl

theorem areDigits_toDigits (n : Nat) : AreDigits (Nat.toDigits 10 n) :=
  ⟨Nat.toDigits_ne_nil, fun _ hc => Nat.isDigit_of_mem_toDigits (by decide) (by decide) hc⟩

/-- The text of an integer writes it. -/
theorem writesInteger_ofInteger (i : Int) : WritesInteger (ofInteger i).toList i := by
  cases i with
  | ofNat n =>
    have hwritten := WritesInteger.unsigned (areDigits_toDigits n)
    rw [Nat.ofDigitChars_ten_toDigits] at hwritten
    rw [ofInteger, ofNatural, String.toList_ofList]
    exact hwritten
  | negSucc n =>
    have hwritten := WritesInteger.minus (areDigits_toDigits (n + 1))
    rw [Nat.ofDigitChars_ten_toDigits] at hwritten
    simp only [ofInteger, ofNatural, String.toList_append, String.toList_ofList, Int.negSucc_eq]
    exact hwritten

end Text

/-! ## §2 Coercion -/

namespace Coercion

variable {property text : String} {type : ValueType} {v w : Value} {i : Int}

/-- An integer of 32 bits is kept by 64 bits. -/
theorem toInt_ofInt (low : -2147483648 ≤ i) (high : i ≤ 2147483647) : (Int64.ofInt i).toInt = i :=
  Int64.toInt_ofInt_of_le (by omega) (by omega)

/-- The value that a text writes is of the type that it was read as. -/
theorem ofValue_of_writes (h : type.Writes text v) : ofValue property v type = .ok v := by
  cases h with
  | @int i _ low high =>
    refine if_pos (isInt_iff.mpr ?_)
    rw [toInt_ofInt low high]
    exact ⟨low, high⟩
  | object | string | double _ | boolean _ _ => rfl

/-- Coercing a value a second time changes nothing. -/
theorem ofValue_settled (h : ofValue property v type = .ok w) : ofValue property w type = .ok w := by
  have hfirst := h
  unfold ofValue at h
  split at h
  case h_2 =>
    -- a text is read, so what it writes is what has to be kept
    exact ofValue_of_writes (ofText_eq_ok_iff.mp h)
  case h_7 =>
    -- the integer is the one that was accepted
    split at h <;> cases h
    exact hfirst
  -- otherwise the outcome has the type already, or there is none
  all_goals cases h
  all_goals rfl

/-- What a text was read as is read again from its own text. -/
theorem writes_display (htype : type ≠ .double) (h : type.Writes text v) : type.Writes v.display v := by
  cases h with
  | object => exact .object
  | string => exact .string
  | @int i _ low high =>
    refine .int ?_ low high
    rw [Value.display, toInt_ofInt low high]
    exact Text.integer?_eq_some_iff.mpr (Text.writesInteger_ofInteger i)
  | double _ => exact absurd rfl htype
  | boolean flag _ => exact .boolean flag rfl

theorem ofText_int_eq_ok_iff :
    ofText property text .int = .ok w ↔
      ∃ i : Int64, Text.WritesInteger text.toList i.toInt ∧ -2147483648 ≤ i.toInt ∧ i.toInt ≤ 2147483647 ∧
        w = .int i := by
  rw [ofText_eq_ok_iff]
  constructor
  · rintro (_ | _ | @⟨i, hread, low, high⟩)
    have hi := toInt_ofInt low high
    exact ⟨.ofInt i, by rw [hi]; exact Text.integer?_eq_some_iff.mp hread, hi.symm ▸ low, hi.symm ▸ high, rfl⟩
  · rintro ⟨i, hwritten, low, high, rfl⟩
    have hint := ValueType.Writes.int (Text.integer?_eq_some_iff.mpr hwritten) low high
    rwa [Int64.ofInt_toInt] at hint

theorem ofValue_int_eq_ok_iff {i : Int64} :
    ofValue property (.int i) .int = .ok w ↔ -2147483648 ≤ i.toInt ∧ i.toInt ≤ 2147483647 ∧ w = .int i := by
  rw [ofValue, ← and_assoc, ← isInt_iff]
  split
  · rename_i hint
    simp [hint, eq_comm]
  · rename_i hint
    simp [hint]

end Coercion

/-- **Coercion settles a value.** A coerced value is not changed by coercing it again, also if it was read from a text;
and then its own text is read as the same value, unless it is a double. As an integer, a text is accepted if it writes one
of 32 bits, and is read as that one, and among the integers the same ones are accepted. -/
theorem coercion_settles (property : String) (type : ValueType) :
    (∀ v w, Coercion.ofValue property v type = .ok w → Coercion.ofValue property w type = .ok w) ∧
      (∀ text w, Coercion.ofText property text type = .ok w →
        Coercion.ofValue property w type = .ok w ∧
          (type ≠ .double → Coercion.ofText property w.display type = .ok w)) ∧
      (∀ text w, Coercion.ofText property text .int = .ok w ↔
        ∃ i : Int64, Text.WritesInteger text.toList i.toInt ∧ -2147483648 ≤ i.toInt ∧ i.toInt ≤ 2147483647 ∧
          w = .int i) ∧
      (∀ (i : Int64) w, Coercion.ofValue property (.int i) .int = .ok w ↔
        -2147483648 ≤ i.toInt ∧ i.toInt ≤ 2147483647 ∧ w = .int i) := by
  refine ⟨fun v w => Coercion.ofValue_settled, fun text w h => ?_, fun text w => Coercion.ofText_int_eq_ok_iff,
    fun i w => Coercion.ofValue_int_eq_ok_iff⟩
  have hwrites := Coercion.ofText_eq_ok_iff.mp h
  exact ⟨Coercion.ofValue_of_writes hwrites,
    fun htype => Coercion.ofText_eq_ok_iff.mpr (Coercion.writes_display htype hwrites)⟩

end PageTemplates
