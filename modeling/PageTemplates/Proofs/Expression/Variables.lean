import PageTemplates.Proofs.Expression.Forms

/-!
# Which variables can be reached

The body of an expression is looked at as a quoted text, a keyword and a number before it is looked up as a name. None
of these takes a name for its own, apart from three words, in whatever case their letters are written, which are read
as numbers: `inf`, `infinity` and `nan`. So a variable has the value that the scope binds it to exactly if its name is
none of these (`variable_reachable_iff`).

## Structure

- §1 says what a name is, and which texts are expressions for it.
- §2 goes through what is tried before the scope.
- §3 says what a variable evaluates to.
-/

namespace PageTemplates

/-! ## §1 Names -/

namespace Expression

open Text (Blank Tight)
open ExpressionKind (loadTimeOpening runTimeOpening closing)

/-- A name may begin with a letter or an underscore. Beyond ASCII everything that is not blank counts, whatever is taken
for a letter there. -/
def startsName (c : Char) : Bool := c.isAlpha || c == '_' || (decide (128 ≤ c.toNat) && !Text.isBlank c)

/-- A name may go on with a letter, a digit or an underscore. -/
def continuesName (c : Char) : Bool := startsName c || c.isDigit

def IsIdentifier (name : String) : Prop :=
  ∃ first rest, name.toList = first :: rest ∧ startsName first = true ∧ ∀ c ∈ rest, continuesName c = true

/-- The words that stand for values. -/
def keywords : List String := ["true", "false", "null"]

/-- The words that are read as numbers, in any case. -/
def IsNumberWord (name : String) : Prop :=
  name.toList.map Char.toLower ∈ ["inf".toList, "infinity".toList, "nan".toList]

/-- A text is an expression for a name: delimiters of either kind around it, and blanks anywhere but inside them. -/
inductive Names (name : String) : String → Prop where
  | mk {opening lead before after trail : List Char} (h : opening = loadTimeOpening ∨ opening = runTimeOpening)
      (hlead : Blank lead) (hbefore : Blank before) (hafter : Blank after) (htrail : Blank trail) :
      Names name
        (String.ofList (lead ++ (opening ++ (before ++ name.toList ++ after) ++ [closing]) ++ trail))

section Characters

variable {c : Char}

theorem toNat_of_isAlpha (h : c.isAlpha = true) :
    (65 ≤ c.toNat ∧ c.toNat ≤ 90) ∨ (97 ≤ c.toNat ∧ c.toNat ≤ 122) := by
  rcases Bool.or_eq_true_iff.mp h with hupper | hlower
  · exact .inl (of_decide_eq_true hupper)
  · obtain ⟨hlow, hhigh⟩ := Bool.and_eq_true_iff.mp hlower
    exact .inr ⟨of_decide_eq_true hlow, of_decide_eq_true hhigh⟩

theorem toNat_of_startsName (h : startsName c = true) :
    (65 ≤ c.toNat ∧ c.toNat ≤ 90) ∨ c.toNat = 95 ∨ (97 ≤ c.toNat ∧ c.toNat ≤ 122) ∨
      (128 ≤ c.toNat ∧ Text.isBlank c = false) := by
  simp only [startsName, Bool.or_eq_true, Bool.and_eq_true, decide_eq_true_eq, Bool.not_eq_true', beq_iff_eq] at h
  rcases h with (hletter | rfl) | hother
  · rcases toNat_of_isAlpha hletter with hupper | hlower
    · exact .inl hupper
    · exact .inr (.inr (.inl hlower))
  · exact .inr (.inl rfl)
  · exact .inr (.inr (.inr hother))

/-- The ASCII characters that are blank are the space and five controls. -/
theorem isBlank_eq_false (h : 32 < c.toNat) (hascii : c.toNat < 128) : Text.isBlank c = false := by
  simp only [Text.isBlank, Bool.or_eq_false_iff, Bool.and_eq_false_iff, decide_eq_false_iff_not, beq_eq_false_iff_ne]
  omega

theorem not_isBlank_of_startsName (h : startsName c = true) : Text.isBlank c = false := by
  -- a capital, the underscore and a small letter are ASCII, and for the others this is asked for
  rcases toNat_of_startsName h with h | h | h | ⟨-, hblank⟩
  · exact isBlank_eq_false (by omega) (by omega)
  · exact isBlank_eq_false (by omega) (by omega)
  · exact isBlank_eq_false (by omega) (by omega)
  · exact hblank

theorem not_isBlank_of_continuesName (h : continuesName c = true) : Text.isBlank c = false := by
  rcases Bool.or_eq_true_iff.mp h with hstart | hdigit
  · exact not_isBlank_of_startsName hstart
  · obtain ⟨hge, hle⟩ := Bool.and_eq_true_iff.mp hdigit
    have hlow : 48 ≤ c.toNat := of_decide_eq_true hge
    have hhigh : c.toNat ≤ 57 := of_decide_eq_true hle
    exact isBlank_eq_false (by omega) (by omega)

/-- What a name begins with is none of the characters that quoted texts and numbers begin with. -/
theorem toNat_ne_of_startsName (h : startsName c = true) {d : Char} (hd : d.toNat < 65) : c ≠ d := by
  rintro rfl
  rcases toNat_of_startsName h with h | h | h | h <;> omega

theorem digit?_of_startsName (h : startsName c = true) : Text.digit? c = none := by
  unfold Text.digit?
  rw [if_neg]
  rintro ⟨-, hhigh⟩
  have hle : c.toNat ≤ 57 := hhigh
  rcases toNat_of_startsName h with h | h | h | h <;> omega

end Characters

/-- There are no blanks at the ends of a name. -/
theorem IsIdentifier.tight {name : String} (h : IsIdentifier name) : Tight name.toList := by
  obtain ⟨first, rest, hname, hfirst, hrest⟩ := h
  rw [hname]
  constructor
  · rintro c hc
    cases hc
    exact not_isBlank_of_startsName hfirst
  · -- the last character is the first one if there are no others
    intro c hc
    rcases List.mem_cons.mp (List.mem_of_getLast? hc) with rfl | hmem
    · exact not_isBlank_of_startsName hfirst
    · exact not_isBlank_of_continuesName (hrest c hmem)

/-! ## §2 What is tried before the scope -/

/-- The body of an expression is what stands between its delimiters, without the blanks around it. -/
theorem bodyChars?_delimited {opening lead trail : List Char} (h : opening = loadTimeOpening ∨ opening = runTimeOpening)
    (hlead : Blank lead) (htrail : Blank trail) (raw : List Char) :
    bodyChars? (lead ++ (opening ++ raw ++ [closing]) ++ trail) = some (Text.trimChars raw) := by
  unfold bodyChars?
  rw [Text.trimChars_eq hlead (ExpressionKind.tight_delimited h raw) htrail]
  have hbefore : Text.before? [closing] (raw ++ [closing]) = some raw := Text.before?_eq_some_iff.mpr rfl
  -- the delimiter that is looked for first does not match if the text has the other one
  have hopening : (Text.after? loadTimeOpening (opening ++ raw ++ [closing])).or
      (Text.after? runTimeOpening (opening ++ raw ++ [closing])) = some (raw ++ [closing]) := by
    rcases h with rfl | rfl <;> rfl
  simp only [hopening, Option.bind_some, hbefore, Option.map_some]

theorem body_of_names {name text : String} (hname : IsIdentifier name) (h : Names name text) :
    body text = .ok name.toList := by
  obtain ⟨hopening, hlead, hbefore, hafter, htrail⟩ := h
  unfold body
  rw [String.toList_ofList, bodyChars?_delimited hopening hlead htrail, Text.trimChars_eq hbefore hname.tight hafter]

section Constants

variable {c : Char} {rest : List Char}

theorem integer?_of_startsName (h : startsName c = true) : Text.integer? (c :: rest) = none := by
  have hnatural : Text.natural? (c :: rest) = none := by simp [Text.natural?, Text.digitsFrom?, digit?_of_startsName h]
  -- no sign and no digit
  unfold Text.integer?
  split
  · rename_i heq
    cases heq
    exact absurd rfl (toNat_ne_of_startsName h (by decide))
  · rename_i heq
    cases heq
    exact absurd rfl (toNat_ne_of_startsName h (by decide))
  · rw [hnatural]
    rfl

/-- No decimal number begins as a name does, since its first character would be a digit or a point. -/
theorem decimal?_of_startsName (h : startsName c = true) : Double.decimal? (c :: rest) = none := by
  have hdigit : Double.isDigit c = false := by simp [Double.isDigit, digit?_of_startsName h]
  have hpoint : c ≠ '.' := toNat_ne_of_startsName h (by decide)
  unfold Double.decimal?
  simp only [List.takeWhile_cons, List.dropWhile_cons, hdigit, Bool.false_eq_true, if_false]
  split
  · rename_i heq
    cases heq
    exact absurd rfl hpoint
  · rfl

end Constants

/-- Of all names only the number words are read as numbers. -/
theorem ofChars?_eq_none_iff {name : String} (hname : IsIdentifier name) :
    Double.ofChars? name.toList = none ↔ ¬ IsNumberWord name := by
  obtain ⟨first, rest, heq, hfirst, -⟩ := hname
  -- there is no sign in front of a name
  have hunsigned : Double.ofChars? name.toList = Double.unsigned? false name.toList := by
    rw [heq]
    unfold Double.ofChars?
    split
    · rename_i hplus
      cases hplus
      exact absurd rfl (toNat_ne_of_startsName hfirst (by decide))
    · rename_i hminus
      cases hminus
      exact absurd rfl (toNat_ne_of_startsName hfirst (by decide))
    · rfl
  have hdecimal : Double.decimal? name.toList = none := heq ▸ decimal?_of_startsName hfirst
  rw [hunsigned, IsNumberWord]
  -- without a number in digits only the words are left
  unfold Double.unsigned?
  simp only [hdecimal, Option.map_none, List.mem_cons, List.not_mem_nil, or_false]
  split
  · rename_i hinfinite
    simp only [reduceCtorEq, false_iff, not_not]
    exact hinfinite.elim .inl fun h => .inr (.inl h)
  · rename_i hinfinite
    split
    · rename_i hnan
      simp [hnan]
    · rename_i hnan
      simp only [true_iff]
      rintro (h | h | h)
      · exact hinfinite (.inl h)
      · exact hinfinite (.inr h)
      · exact hnan h

/-- A name that is no keyword has a value by itself only if it is read as a number. -/
theorem constant?_of_isIdentifier {name : String} (hname : IsIdentifier name) (hkeyword : name ∉ keywords) :
    constant? name.toList = (Double.ofChars? name.toList).map .double := by
  obtain ⟨first, rest, heq, hfirst, -⟩ := hname
  -- by its first character a name is no quoted text and no integer
  have hquoted : quoted? name.toList = none := by
    have hquote : '\'' ≠ first := (toNat_ne_of_startsName hfirst (by decide)).symm
    simp [heq, quoted?, Text.after?, hquote]
  have hinteger : Text.integerIn? intBounds.1 intBounds.2 name = none := by
    unfold Text.integerIn?
    rw [heq, integer?_of_startsName hfirst]
  simp only [keywords, List.mem_cons, List.not_mem_nil, or_false, not_or] at hkeyword
  obtain ⟨htrue, hfalse, hnull⟩ := hkeyword
  simp only [constant?, hquoted, String.ofList_toList, htrue, hfalse, hnull, hinteger, if_false]

/-! ## §3 Values of variables -/

/-- An expression has one and the same answer in a scope, whether it is evaluated at once, or later as a live value or
by a callable. -/
structure EvaluatesTo (text : String) (scope : Scope) (answer : Except EvaluationError Value) : Prop where
  evaluated : Evaluator.ofScope.evaluate text scope = answer
  live : ∀ type, ∃ b, Evaluator.ofScope.liveValue text type = .ok b ∧ b.value scope = answer
  called : ∃ c, Evaluator.ofScope.callable text = .ok c ∧ ∀ arguments, c.call scope arguments = answer

/-- What keeps a text with delimiters evaluates it later as it is evaluated now. -/
theorem evaluatesTo_of_body {text : String} {cs : List Char} (h : body text = .ok cs) (scope : Scope) :
    EvaluatesTo text scope (evaluate text scope) := by
  refine ⟨rfl, fun type => ⟨⟨text, type⟩, ?_, rfl⟩, .bare .scoped text, ?_, fun _ => rfl⟩
  · simp only [Evaluator.ofScope, h, Except.map]
  · simp only [Evaluator.ofScope, h, Except.map]

/-- Every expression for a name evaluates to what the scope binds the name to, and cannot be resolved if there is
nothing. -/
structure Reachable (name : String) : Prop where
  bound : ∀ text, Names name text → ∀ scope v, scope.get? name = some v → EvaluatesTo text scope (.ok v)
  unbound : ∀ text, Names name text → ∀ scope, scope.get? name = none →
    EvaluatesTo text scope (.error (.unresolvable text))

section Variables

variable {name text : String}

theorem evaluate_of_names (hname : IsIdentifier name) (hkeyword : name ∉ keywords) (h : Names name text)
    (scope : Scope) :
    evaluate text scope = match ((Double.ofChars? name.toList).map Value.double).or (scope.get? name) with
      | some v => .ok v
      | none => .error (.unresolvable text) := by
  have hfound : (constant? name.toList).or (scope.get? (String.ofList name.toList)) =
      ((Double.ofChars? name.toList).map Value.double).or (scope.get? name) := by
    rw [constant?_of_isIdentifier hname hkeyword, String.ofList_toList]
  cases hvalue : ((Double.ofChars? name.toList).map Value.double).or (scope.get? name) with
  | none => simp only [evaluate, body_of_names hname h, hfound, hvalue]
  | some v => simp only [evaluate, body_of_names hname h, hfound, hvalue]

theorem reachable_of_not_isNumberWord (hname : IsIdentifier name) (hkeyword : name ∉ keywords)
    (hnumber : ¬ IsNumberWord name) : Reachable name := by
  -- nothing that is tried before the scope takes the name
  have hnone := (ofChars?_eq_none_iff hname).mpr hnumber
  constructor
  · intro text h scope v hv
    have hvalue := evaluatesTo_of_body (body_of_names hname h) scope
    simpa only [evaluate_of_names hname hkeyword h, hnone, hv, Option.map_none, Option.none_or] using hvalue
  · intro text h scope hv
    have hvalue := evaluatesTo_of_body (body_of_names hname h) scope
    simpa only [evaluate_of_names hname hkeyword h, hnone, hv, Option.map_none, Option.none_or] using hvalue

/-- A number word is the same number in every scope. -/
theorem exists_evaluatesTo_of_isNumberWord (hname : IsIdentifier name) (hkeyword : name ∉ keywords)
    (hnumber : IsNumberWord name) :
    ∃ d, ∀ text, Names name text → ∀ scope, EvaluatesTo text scope (.ok (.double d)) := by
  obtain ⟨d, hd⟩ := Option.ne_none_iff_exists'.mp fun hnone => (ofChars?_eq_none_iff hname).mp hnone hnumber
  refine ⟨d, fun text h scope => ?_⟩
  have hvalue := evaluatesTo_of_body (body_of_names hname h) scope
  simpa only [evaluate_of_names hname hkeyword h, hd, Option.map_some, Option.some_or] using hvalue

/-- Every name has an expression: its delimiters alone. -/
theorem names_plain (name : String) : ∃ text, Names name text :=
  -- there are no blanks anywhere
  ⟨_, .mk (.inl rfl) (List.forall_mem_nil _) (List.forall_mem_nil _) (List.forall_mem_nil _) (List.forall_mem_nil _)⟩

end Variables

/-- **Which variables can be reached.** A variable whose name is no keyword has the value that the scope binds it to
exactly if its name is not a word for a number. Such a word is that number whatever the scope binds it to. -/
theorem variable_reachable_iff {name : String} (hname : IsIdentifier name) (hkeyword : name ∉ keywords) :
    (Reachable name ↔ ¬ IsNumberWord name) ∧
      (IsNumberWord name →
        ∃ d, ∀ text, Names name text → ∀ scope, EvaluatesTo text scope (.ok (.double d))) := by
  refine ⟨⟨fun hreachable hnumber => ?_, reachable_of_not_isNumberWord hname hkeyword⟩,
    exists_evaluatesTo_of_isNumberWord hname hkeyword⟩
  -- a scope that binds the word to something that is no number tells the two apart
  obtain ⟨d, hd⟩ := exists_evaluatesTo_of_isNumberWord hname hkeyword hnumber
  obtain ⟨text, htext⟩ := names_plain name
  let scope := Scope.empty.set name .null
  have hbound : scope.get? name = some .null := (NameMap.find?_insert _ _ _ _).trans (if_pos rfl)
  cases (hreachable.bound text htext scope .null hbound).evaluated.symm.trans (hd text htext scope).evaluated

/-- A name may begin like a word for a number, and hold digits. -/
theorem inf1_reachable : IsIdentifier "_inf1" ∧ "_inf1" ∉ keywords ∧ Reachable "_inf1" := by
  have hname : IsIdentifier "_inf1" := ⟨'_', ['i', 'n', 'f', '1'], rfl, by decide, List.all_eq_true.mp rfl⟩
  have hkeyword : "_inf1" ∉ keywords := by decide
  have hnumber : ¬ IsNumberWord "_inf1" := by
    unfold IsNumberWord
    decide
  exact ⟨hname, hkeyword, (variable_reachable_iff hname hkeyword).1.mpr hnumber⟩

/-- A variable named `nan` cannot be reached: the expression for it is a number, although the scope binds the name to a
text. -/
theorem nan_unreachable :
    IsIdentifier "nan" ∧ "nan" ∉ keywords ∧ Names "nan" "$\x7bnan\x7d" ∧
      (Scope.empty.set "nan" (.text "x")).get? "nan" = some (.text "x") ∧
      Evaluator.ofScope.evaluate "$\x7bnan\x7d" (Scope.empty.set "nan" (.text "x")) = .ok (.double .nan) ∧
      ¬ Reachable "nan" := by
  have hname : IsIdentifier "nan" := ⟨'n', ['a', 'n'], rfl, by decide, List.all_eq_true.mp rfl⟩
  have hnames : Names "nan" "$\x7bnan\x7d" :=
    .mk (.inl rfl) (List.forall_mem_nil _) (List.forall_mem_nil _) (List.forall_mem_nil _) (List.forall_mem_nil _)
  have hbound : (Scope.empty.set "nan" (.text "x")).get? "nan" = some (.text "x") := rfl
  have hvalue : Evaluator.ofScope.evaluate "$\x7bnan\x7d" (Scope.empty.set "nan" (.text "x")) = .ok (.double .nan) := by
    rfl
  -- if it could be reached, its value would be the text
  refine ⟨hname, by decide, hnames, hbound, hvalue, fun hreachable => ?_⟩
  cases (hreachable.bound _ hnames _ _ hbound).evaluated.symm.trans hvalue

end Expression

end PageTemplates
