import PageTemplates.Component.Basic

/-!
# The store of components

Components live in a store and are known by their place in it. A component under construction is an
`Instance`; once it is finished, the value that stands for it is a `Handle`. Places are never reused, so a
place is an identity.
-/

namespace PageTemplates

/-- A component under construction. -/
structure Instance where
  /-- Its place in the store. -/
  ref : Nat
  typeName : String
  deriving DecidableEq, Repr

/-- All components that have been constructed. -/
structure Store where
  /-- The components by their places. -/
  cells : Array Component

namespace Store

/-- The store without components. -/
def empty : Store := ⟨#[]⟩

/-- The component at a place. -/
def get? (s : Store) (ref : Nat) : Option Component := s.cells[ref]?

/-- Puts a new component into the store. -/
def add (s : Store) (c : Component) : Instance × Store :=
  (⟨s.cells.size, c.typeName⟩, ⟨s.cells.push c⟩)

/-- Replaces the component at a place. -/
def set (s : Store) (ref : Nat) (c : Component) : Store := ⟨s.cells.setIfInBounds ref c⟩

/-- Applies a write to the component at a place. -/
def write (s : Store) (ref : Nat) (w : Write) : Except WriteError Unit × Store :=
  match s.get? ref with
  | none => (.ok (), s)
  | some c => ((c.write w).1, s.set ref (c.write w).2)

/-- The finished component at a place, as a value. -/
def handle (s : Store) (i : Instance) : Handle :=
  ⟨i.ref, i.typeName, (s.get? i.ref).bind Component.yields⟩

/-- A new component is found at the place it was given. -/
theorem get?_add (s : Store) (c : Component) : (s.add c).2.get? (s.add c).1.ref = some c := by
  simp [add, get?]

end Store

end PageTemplates
