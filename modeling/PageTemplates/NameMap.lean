/-!
# Maps keyed by names

A map from names to values, kept as a list of entries in the order of their names (by code point). Writing
under a name that is there already replaces its value. The order of the entries is the order in which
facets are visited and properties are shown.

Main statements: what `find?` answers after `insert` and after `erase`.
-/

namespace PageTemplates

/-- A map from names to values. -/
structure NameMap (α : Type) where
  entries : List (String × α)
  deriving Inhabited

namespace NameMap

variable {α : Type}

/-! ## §1 Operations -/

/-- The map without entries. -/
def empty : NameMap α := ⟨[]⟩

/-- The value of the first entry of a name. -/
def lookup (name : String) : List (String × α) → Option α
  | [] => none
  | (n, a) :: rest => if n = name then some a else lookup name rest

/-- Puts an entry at its place in a list ordered by name. -/
def place (name : String) (a : α) : List (String × α) → List (String × α)
  | [] => [(name, a)]
  | (n, b) :: rest =>
    if n = name then (name, a) :: rest
    else if name < n then (name, a) :: (n, b) :: rest
    else (n, b) :: place name a rest

/-- The value under a name. -/
def find? (m : NameMap α) (name : String) : Option α := lookup name m.entries

/-- Writes a value under a name, in place of an earlier one. -/
def insert (m : NameMap α) (name : String) (a : α) : NameMap α := ⟨place name a m.entries⟩

/-- Drops the entry of a name. -/
def erase (m : NameMap α) (name : String) : NameMap α := ⟨m.entries.filter fun e => e.1 != name⟩

/-- The number of entries. -/
def size (m : NameMap α) : Nat := m.entries.length

/-- The map of a list of entries, the last one of a name counting. -/
def ofList (entries : List (String × α)) : NameMap α :=
  entries.foldl (fun m e => m.insert e.1 e.2) empty

/-! ## §2 What an operation does to a look-up -/

private theorem lookup_place (name other : String) (a : α) (entries : List (String × α)) :
    lookup other (place name a entries) = if name = other then some a else lookup other entries := by
  induction entries with
  | nil => simp [place, lookup]
  | cons e rest ih =>
    obtain ⟨n, b⟩ := e
    by_cases hn : n = name
    · subst hn
      by_cases ho : n = other <;> simp [place, lookup, ho]
    · by_cases hlt : name < n
      · simp [place, hn, hlt, lookup]
      · by_cases ho : n = other
        · subst ho; simp [place, hn, hlt, lookup, Ne.symm hn]
        · simp [place, hn, hlt, lookup, ho, ih]

private theorem lookup_filter (name other : String) (entries : List (String × α)) :
    lookup other (entries.filter fun e => e.1 != name) =
      if name = other then none else lookup other entries := by
  induction entries with
  | nil => simp [lookup]
  | cons e rest ih =>
    obtain ⟨n, b⟩ := e
    by_cases hn : n = name
    · subst hn
      by_cases ho : n = other
      · subst ho; simpa using ih
      · simp [lookup, ho, ih]
    · by_cases ho : n = other
      · subst ho; simp [hn, lookup, Ne.symm hn]
      · simp [hn, lookup, ho, ih]

@[simp] theorem find?_empty (name : String) : (empty : NameMap α).find? name = none := rfl

theorem find?_insert (m : NameMap α) (name other : String) (a : α) :
    (m.insert name a).find? other = if name = other then some a else m.find? other :=
  lookup_place name other a m.entries

theorem find?_erase (m : NameMap α) (name other : String) :
    (m.erase name).find? other = if name = other then none else m.find? other :=
  lookup_filter name other m.entries

end NameMap

end PageTemplates
