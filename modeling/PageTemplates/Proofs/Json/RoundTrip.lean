import PageTemplates.Json.Pretty
import PageTemplates.Json.Reader

/-!
# Reading what was written

A value that is written as JSON is read back as it is (`ofText?_toText`). This holds of every value in which no text
is missing and no number occurs (`Whole`), since numbers are written and read without their digits.

The reader counts its steps; that twice the length of a text is enough is part of every statement here
(`ReadsBack`).
-/

namespace PageTemplates.Json

/-! ## §1 Strings -/

section Strings

/-- The number of an escape that is not half of a character stands for a character. -/
theorem join_code {n : Nat} (h : n < 0xD800) (us : List Unit16) :
    join (.code n :: us) = (join us).map (Char.ofNat n :: ·) := by
  have hlow : Markup.between 0xD800 0xDBFF n = false := by simp [Markup.between]; omega
  have hhigh : Markup.between 0xDC00 0xDFFF n = false := by simp [Markup.between]; omega
  have hhalf : Markup.between 0xD800 0xDFFF n = false := by simp [Markup.between]; omega
  cases us with
  | nil => simp [join, hhalf]
  | cons u rest => cases u <;> simp [join, hlow, hhigh, hhalf]

/-- The last two digits of an escape are those of the character's number, which is below 32. -/
theorem hex4?_hexDigit : ∀ n < 0x20, hex4? '0' '0' (hexDigit (n / 16)) (hexDigit (n % 16)) = some n := by decide

/-- The characters that have an escape of one letter. -/
def lettered : List Char := ['"', '\\', '\n', '\r', '\t', '\x08', '\x0c']

/-- A character that has an escape of one letter is read from it. -/
theorem parts_lettered {c : Char} (h : c ∈ lettered) (rest : List Char) :
    parts (escape c ++ rest) = (parts rest).map fun r => (.char c :: r.1, r.2) := by
  simp only [lettered, List.mem_cons, List.not_mem_nil, or_false] at h
  -- each escape is one case of the reader, so the seven cases are read off alike
  rcases h with rfl | rfl | rfl | rfl | rfl | rfl | rfl
  all_goals
    show parts ('\\' :: _ :: rest) = _
    simp only [parts]
    cases parts rest <;> rfl

/-- Any other character is written by its number if it is a control character, and as it is otherwise. -/
theorem escape_of_notMem {c : Char} (h : c ∉ lettered) :
    escape c =
      if c.toNat < 0x20 then ['\\', 'u', '0', '0', hexDigit (c.toNat / 16), hexDigit (c.toNat % 16)] else [c] := by
  simp only [lettered, List.mem_cons, List.not_mem_nil, or_false, not_or] at h
  simp only [escape, h, if_false]

/-- A character that is written in a string is one part of it when it is read. -/
theorem parts_escape (c : Char) (rest : List Char) :
    ∃ u, (∀ us, join (u :: us) = (join us).map (c :: ·)) ∧
      parts (escape c ++ rest) = (parts rest).map fun r => (u :: r.1, r.2) := by
  by_cases hletter : c ∈ lettered
  · exact ⟨.char c, fun _ => rfl, parts_lettered hletter rest⟩
  rw [escape_of_notMem hletter]
  by_cases hcode : c.toNat < 0x20
  · refine ⟨.code c.toNat, fun us => ?_, ?_⟩
    · rw [join_code (by omega), Char.ofNat_toNat]
    · simp only [hcode, if_true, List.cons_append, List.nil_append, parts, hex4?_hexDigit _ hcode]
      cases parts rest <;> rfl
  · refine ⟨.char c, fun _ => rfl, ?_⟩
    have hquote : c ≠ '"' := fun heq => hletter (heq ▸ List.mem_cons_self)
    have hslash : c ≠ '\\' := fun heq => hletter (heq ▸ List.mem_cons_of_mem _ List.mem_cons_self)
    -- the character is written as it is, so the cases of a quote and of a backslash are excluded
    rw [if_neg hcode, List.singleton_append, parts.eq_def]
    split
    case h_5 =>
      rename_i heq
      cases heq
      exact if_neg hcode
    all_goals simp_all

/-- A string is read up to its closing quote. -/
theorem parts_quoted (cs rest : List Char) :
    ∃ us, join us = some cs ∧ parts (cs.flatMap escape ++ '"' :: rest) = some (us, rest) := by
  -- by induction on the characters; each is one part, which is put in front of those of the rest
  induction cs with
  | nil => exact ⟨[], rfl, by simp [parts]⟩
  | cons c cs ih =>
    obtain ⟨us, hjoin, hparts⟩ := ih
    obtain ⟨u, hu, hescape⟩ := parts_escape c (cs.flatMap escape ++ '"' :: rest)
    refine ⟨u :: us, by rw [hu, hjoin]; rfl, ?_⟩
    rw [List.flatMap_cons, List.append_assoc, hescape, hparts]
    rfl

/-- A quoted string in front of a text: its opening quote, its characters, and its closing quote. -/
theorem quote_append (s : String) (rest : List Char) :
    quote s ++ rest = '"' :: (s.toList.flatMap escape ++ '"' :: rest) := by
  simp [quote]

/-- A quoted string is read as itself, and what follows it is left. -/
theorem exists_parts_quote (s : String) (rest : List Char) :
    ∃ us, textOf us = some s ∧ parts (s.toList.flatMap escape ++ '"' :: rest) = some (us, rest) := by
  obtain ⟨us, hjoin, hparts⟩ := parts_quoted s.toList rest
  exact ⟨us, by rw [textOf, hjoin, Option.map_some, String.ofList_toList], hparts⟩

end Strings

/-! ## §2 Blanks -/

section Blanks

variable {c : Char} {cs : List Char}

/-- What is not blank is not passed over. -/
theorem skip_cons (h : isBlank c = false) : skip (c :: cs) = c :: cs := by
  simp [skip, h]

/-- The beginning of a line is passed over. -/
theorem skip_newline (depth : Nat) (cs : List Char) : skip (newline depth ++ cs) = skip cs := by
  -- the line break is blank, and so are the spaces of the indentation, of which there may be any number
  have hspaces : ∀ n, skip (List.replicate n ' ' ++ cs) = skip cs := by
    intro n
    induction n with
    | zero => rfl
    | succ n ih => exact ih
  exact hspaces (2 * depth)

/-- A value may begin on a new line. -/
theorem value_newline (bound depth : Nat) (cs : List Char) : value bound (newline depth ++ cs) = value bound cs := by
  cases bound with
  | zero => simp only [value]
  | succ bound => simp only [value, skip_newline]

/-- Items may begin on a new line, since a value may. -/
theorem items_newline (bound depth : Nat) (cs : List Char) : items bound (newline depth ++ cs) = items bound cs := by
  cases bound with
  | zero => simp only [items]
  | succ bound => simp only [items, value_newline]

/-- Members may begin on a new line. -/
theorem members_newline (bound depth : Nat) (cs : List Char) :
    members bound (newline depth ++ cs) = members bound cs := by
  cases bound with
  | zero => simp only [members]
  | succ bound => simp only [members, skip_newline]

end Blanks

/-! ## §3 Values -/

/-- A value of which all can be written: no text is missing in it, and no number occurs. -/
inductive Whole : Json → Prop where
  | null : Whole .null
  | bool (b : Bool) : Whole (.bool b)
  | text (s : String) : Whole (.text (some s))
  | array {vs : List Json} (h : ∀ v ∈ vs, Whole v) : Whole (.array vs)
  | object {ms : List (Option String × Json)} (hnames : ∀ m ∈ ms, m.1.isSome) (h : ∀ m ∈ ms, Whole m.2) :
      Whole (.object ms)

/-- A value is read back from its text, whatever follows it. -/
def ReadsBack (v : Json) : Prop := ∀ depth bound rest, 2 * (v.pretty depth).length ≤ bound →
  value bound (v.pretty depth ++ rest) = some (v, rest)

/-- There is always a step left to read a value. -/
theorem exists_succ_of_pretty {v : Json} {depth bound : Nat} (h : 2 * (v.pretty depth).length ≤ bound) :
    ∃ b, bound = b + 1 := by
  -- no value is written as the empty text
  have hpositive : 0 < (v.pretty depth).length := by
    cases v with
    | null | number | text => exact Nat.succ_pos _
    | bool b => cases b <;> exact Nat.succ_pos _
    | array vs => cases vs <;> exact Nat.succ_pos _
    | object ms => cases ms <;> exact Nat.succ_pos _
  exact Nat.exists_eq_succ_of_ne_zero (by omega)

/-- The text of a value begins with what is neither blank nor the end of an array. -/
theorem Whole.exists_head {v : Json} (h : v.Whole) (depth : Nat) :
    ∃ c cs, v.pretty depth = c :: cs ∧ isBlank c = false ∧ c ≠ ']' := by
  cases h with
  | null => exact ⟨_, _, rfl, by decide⟩
  | bool b => cases b <;> exact ⟨_, _, rfl, by decide⟩
  | text s => exact ⟨_, _, rfl, by decide⟩
  | @array vs h => cases vs <;> exact ⟨_, _, rfl, by decide⟩
  | @object ms _ h => cases ms <;> exact ⟨_, _, rfl, by decide⟩

/-- A string takes a single step, so every bound that is not zero will do. -/
theorem readsBack_text (s : String) : ReadsBack (.text (some s)) := by
  intro depth bound rest hbound
  obtain ⟨us, htext, hparts⟩ := exists_parts_quote s rest
  obtain ⟨bound, rfl⟩ := exists_succ_of_pretty hbound
  rw [pretty, Option.getD_some, quote_append, value, skip_cons (by decide)]
  simp only [hparts, Option.map_some, htext]

/-- After an item, a bracket ends the array and a comma asks for the next item. -/
theorem items_succ {bound : Nat} {cs more rest : List Char} {v : Json} (hv : value bound cs = some (v, more)) :
    (skip more = ']' :: rest → items (bound + 1) cs = some ([v], rest)) ∧
      (skip more = ',' :: rest → items (bound + 1) cs = (items bound rest).map fun r => (v :: r.1, r.2)) := by
  -- the reader looks at the item first and at the next mark after it, in both cases
  constructor <;>
    · intro hmore
      rw [items, hv]
      simp only [hmore]

/-- The items after the first begin with a comma, which nothing blank precedes. -/
theorem skip_prettyItems (depth : Nat) (v : Json) (vs : List Json) (rest : List Char) :
    skip (prettyItems depth (v :: vs) ++ rest) =
      ',' :: (newline depth ++ (v.pretty depth ++ (prettyItems depth vs ++ rest))) := by
  rw [prettyItems, List.cons_append, skip_cons (by decide)]
  simp only [List.append_assoc]

/-- Items are read back up to the closing bracket, if each of them is read back. -/
theorem items_pretty {vs : List Json} {v : Json} (h : ∀ x ∈ v :: vs, ReadsBack x) (depth outer : Nat) {bound : Nat}
    (rest : List Char) (hbound : 2 * (v.pretty depth ++ prettyItems depth vs).length < bound) :
    items bound (v.pretty depth ++ (prettyItems depth vs ++ (newline outer ++ ']' :: rest))) =
      some (v :: vs, rest) := by
  -- by induction on the items after the first one, for every first item. Each comma costs a step, and it is a character
  -- more, so that twice the length pays for it
  induction vs generalizing v bound with
  | nil =>
    obtain ⟨bound, rfl⟩ : ∃ b, bound = b + 1 := Nat.exists_eq_succ_of_ne_zero (by omega)
    rw [List.length_append] at hbound
    have hv := List.forall_mem_singleton.mp h depth bound (prettyItems depth [] ++ (newline outer ++ ']' :: rest))
      (by omega)
    exact (items_succ hv).1 (skip_newline outer _)
  | cons w more ih =>
    obtain ⟨bound, rfl⟩ : ∃ b, bound = b + 1 := Nat.exists_eq_succ_of_ne_zero (by omega)
    obtain ⟨hv, hmore⟩ := List.forall_mem_cons.mp h
    simp only [prettyItems, List.length_append, List.length_cons] at hbound
    have hvalue := hv depth bound (prettyItems depth (w :: more) ++ (newline outer ++ ']' :: rest)) (by omega)
    rw [(items_succ hvalue).2 (skip_prettyItems depth w more _), items_newline,
      ih hmore (by rw [List.length_append]; omega)]
    rfl

/-- After a member, a brace ends the object and a comma asks for the next member. -/
theorem members_succ {bound : Nat} {cs after : List Char} {us : List Unit16} {v : Json} {more rest : List Char}
    (hparts : parts cs = some (us, ':' :: after)) (hv : value bound after = some (v, more)) :
    (skip more = '\x7d' :: rest → members (bound + 1) ('"' :: cs) = some ([(textOf us, v)], rest)) ∧
      (skip more = ',' :: rest →
        members (bound + 1) ('"' :: cs) = (members bound rest).map fun r => ((textOf us, v) :: r.1, r.2)) := by
  constructor <;>
    · intro hmore
      rw [members, skip_cons (by decide)]
      simp only [hparts, skip_cons (show isBlank ':' = false by decide), hv, hmore]

/-- The members after the first begin with a comma, which nothing blank precedes. -/
theorem skip_prettyMembers (depth : Nat) (name : String) (v : Json) (ms : List (Option String × Json))
    (rest : List Char) :
    skip (prettyMembers depth ((some name, v) :: ms) ++ rest) = ',' :: (newline depth ++ (quote name ++
      (':' :: ' ' :: (v.pretty depth ++ (prettyMembers depth ms ++ rest))))) := by
  rw [prettyMembers, List.cons_append, skip_cons (by decide)]
  simp only [Option.getD_some, List.append_assoc, List.cons_append]

/-- The space after a colon is passed over. -/
theorem value_space (bound : Nat) (cs : List Char) : value bound (' ' :: cs) = value bound cs := by
  cases bound with
  | zero => simp only [value]
  | succ bound =>
    have hspace : skip (' ' :: cs) = skip cs := rfl
    simp only [value, hspace]

/-- Members are read back up to the closing brace, if their values are. -/
theorem members_pretty {ms : List (Option String × Json)} {name : String} {v : Json} (hv : ReadsBack v)
    (hnames : ∀ m ∈ ms, m.1.isSome) (h : ∀ m ∈ ms, ReadsBack m.2) (depth outer : Nat) {bound : Nat}
    (rest : List Char)
    (hbound : 2 * (quote name ++ (':' :: ' ' :: (v.pretty depth ++ prettyMembers depth ms))).length < bound) :
    members bound (quote name ++ (':' :: ' ' :: (v.pretty depth ++
      (prettyMembers depth ms ++ (newline outer ++ '\x7d' :: rest))))) = some ((some name, v) :: ms, rest) := by
  -- as for items, by induction on the members after the first one; a name is read at once, without a step
  induction ms generalizing name v bound with
  | nil =>
    obtain ⟨bound, rfl⟩ : ∃ b, bound = b + 1 := Nat.exists_eq_succ_of_ne_zero (by omega)
    simp only [List.length_append, List.length_cons] at hbound
    obtain ⟨us, htext, hparts⟩ := exists_parts_quote name (':' :: ' ' :: (v.pretty depth ++
      (prettyMembers depth [] ++ (newline outer ++ '\x7d' :: rest))))
    have hvalue := hv depth bound (prettyMembers depth [] ++ (newline outer ++ '\x7d' :: rest)) (by omega)
    rw [← value_space] at hvalue
    rw [quote_append, (members_succ hparts hvalue).1 (skip_newline outer _), htext]
  | cons m more ih =>
    obtain ⟨key, w⟩ := m
    obtain ⟨bound, rfl⟩ : ∃ b, bound = b + 1 := Nat.exists_eq_succ_of_ne_zero (by omega)
    obtain ⟨hkey, hmoreNames⟩ := List.forall_mem_cons.mp hnames
    obtain ⟨hw, hmore⟩ := List.forall_mem_cons.mp h
    obtain ⟨key, rfl⟩ := Option.isSome_iff_exists.mp hkey
    simp only [prettyMembers, List.length_append, List.length_cons, Option.getD_some] at hbound
    obtain ⟨us, htext, hparts⟩ := exists_parts_quote name (':' :: ' ' :: (v.pretty depth ++
      (prettyMembers depth ((some key, w) :: more) ++ (newline outer ++ '\x7d' :: rest))))
    have hvalue := hv depth bound
      (prettyMembers depth ((some key, w) :: more) ++ (newline outer ++ '\x7d' :: rest)) (by omega)
    rw [← value_space] at hvalue
    rw [quote_append, (members_succ hparts hvalue).2 (skip_prettyMembers depth key w more _), members_newline, htext,
      ih hw hmoreNames hmore (by simp only [List.length_append, List.length_cons]; omega)]
    rfl

/-- A bracket that no closing bracket follows is followed by items. -/
theorem value_array {bound : Nat} {c : Char} {cs rest : List Char} (hskip : skip rest = c :: cs)
    (hclosing : c ≠ ']') :
    value (bound + 1) ('[' :: rest) = (items bound (c :: cs)).map fun r => (.array r.1, r.2) := by
  rw [value, skip_cons (by decide)]
  simp only [hskip]
  split
  · rename_i heq
    exact absurd (List.cons.inj heq).1 hclosing
  · rfl

/-- A brace that a quote follows is followed by members. -/
theorem value_object {bound : Nat} {cs rest : List Char} (hskip : skip rest = '"' :: cs) :
    value (bound + 1) ('\x7b' :: rest) = (members bound ('"' :: cs)).map fun r => (.object r.1, r.2) := by
  rw [value, skip_cons (by decide)]
  simp only [hskip]
  rfl

/-- An array is read back if its items are. That they are whole is needed too: the reader asks whether the array is
closed before it reads an item. -/
theorem readsBack_array {vs : List Json} (hwhole : ∀ v ∈ vs, Whole v) (h : ∀ v ∈ vs, ReadsBack v) :
    ReadsBack (.array vs) := by
  intro depth bound rest hbound
  obtain ⟨bound, rfl⟩ := exists_succ_of_pretty hbound
  cases vs with
  | nil => rfl
  | cons v vs =>
    simp only [pretty, List.length_cons, List.length_append, newline] at hbound
    have hlength : 2 * (v.pretty (depth + 1) ++ prettyItems (depth + 1) vs).length < bound := by
      rw [List.length_append]
      omega
    have hitems := items_pretty h (depth + 1) depth rest hlength
    -- the first item does not look like the end of the array
    obtain ⟨c, cs, hhead, hblank, hclosing⟩ := (hwhole v List.mem_cons_self).exists_head (depth + 1)
    rw [hhead] at hitems
    simp only [pretty, List.cons_append, List.append_assoc, List.nil_append]
    rw [value_array (by rw [skip_newline, hhead]; exact skip_cons hblank) hclosing]
    exact congrArg (Option.map _) hitems

/-- An object is read back if its members are. -/
theorem readsBack_object {ms : List (Option String × Json)} (hnames : ∀ m ∈ ms, m.1.isSome)
    (h : ∀ m ∈ ms, ReadsBack m.2) : ReadsBack (.object ms) := by
  intro depth bound rest hbound
  obtain ⟨bound, rfl⟩ := exists_succ_of_pretty hbound
  cases ms with
  | nil => rfl
  | cons m ms =>
    obtain ⟨name, v⟩ := m
    obtain ⟨hname, hmore⟩ := List.forall_mem_cons.mp hnames
    obtain ⟨hv, hrest⟩ := List.forall_mem_cons.mp h
    obtain ⟨name, rfl⟩ := Option.isSome_iff_exists.mp hname
    simp only [pretty, List.length_cons, List.length_append, newline, Option.getD_some] at hbound
    have hlength : 2 * (quote name ++
        (':' :: ' ' :: (v.pretty (depth + 1) ++ prettyMembers (depth + 1) ms))).length < bound := by
      simp only [List.length_append, List.length_cons]
      omega
    have hmembers := members_pretty hv hmore hrest (depth + 1) depth rest hlength
    rw [quote_append] at hmembers
    simp only [pretty, Option.getD_some, List.cons_append, List.append_assoc, List.nil_append]
    -- the first member begins with the quote of its name, so the object does not end here
    rw [value_object (by rw [skip_newline, quote_append]; exact skip_cons (by decide))]
    exact congrArg (Option.map _) hmembers

/-- A whole value is read back. -/
theorem Whole.readsBack {v : Json} (h : v.Whole) : v.ReadsBack := by
  -- an array and an object are read back as soon as what they hold is
  induction h with
  | null =>
    intro depth bound rest hbound
    obtain ⟨bound, rfl⟩ := exists_succ_of_pretty hbound
    rfl
  | bool b =>
    intro depth bound rest hbound
    obtain ⟨bound, rfl⟩ := exists_succ_of_pretty hbound
    cases b <;> rfl
  | text s => exact readsBack_text s
  | array h ih => exact readsBack_array h ih
  | object hnames _ ih => exact readsBack_object hnames ih

/-- **A value that is written is read back.** -/
theorem ofText?_toText {v : Json} (h : v.Whole) : ofText? v.toText = some v := by
  -- the bound that the reader is given is twice the length of the text and some more, as the invariant asks
  have hread := h.readsBack 0 (2 * v.toText.length + 2) [] (by simp [toText])
  rw [List.append_nil] at hread
  have hlist : v.toText.toList = v.pretty 0 := String.toList_ofList
  rw [ofText?, hlist, hread]
  rfl

end PageTemplates.Json
