import PageTemplates.Template.Factory

/-!
# Memos of factories

A memo remembers the factories that have been found, by the address of the definition and the name of the
property. It keeps each definition that it has an entry for, so an address in a memo always belongs to the
definition of that entry. Failures are not remembered.

There may be several memos; each template says which one it is compiled with.
-/

namespace PageTemplates

/-- A remembered factory. -/
structure MemoEntry where
  /-- The definition that the factory is for. -/
  definition : Definition
  /-- The property that the factory is for. -/
  property : String
  factory : Factory

/-- The entry is for the definition at an address and for a property. -/
def MemoEntry.isFor (address : Nat) (property : String) (e : MemoEntry) : Bool :=
  e.definition.address == address && e.property == property

/-- Remembered factories, the latest last. -/
structure Memo where
  /-- At most one entry for an address and a property. -/
  entries : List MemoEntry

namespace Memo

/-- The memo that remembers nothing. -/
def empty : Memo := ⟨[]⟩

/-- The place of the entry for an address and a property. -/
def index? (m : Memo) (address : Nat) (property : String) : Option Nat :=
  m.entries.findIdx? (MemoEntry.isFor address property)

def find? (m : Memo) (address : Nat) (property : String) : Option MemoEntry :=
  m.entries.find? (MemoEntry.isFor address property)

/-- The number of remembered factories. -/
def size (m : Memo) : Nat := m.entries.length

/-- The factory for a property of a definition: the remembered one, or else a new one, which is remembered. -/
def obtainFactory (m : Memo) (d : Definition) (property : String) : Except Error Factory × Memo :=
  match m.find? d.address property with
  | some e => (.ok e.factory, m)
  | none => match Factory.ofProperty d property with
    | .ok f => (.ok f, ⟨m.entries ++ [⟨d, property, f⟩]⟩)
    | .error e => (.error e, m)

end Memo

/-- All memos, by number. -/
abbrev Memos := Nat → Memo

namespace Memos

/-- Memos that remember nothing. -/
def empty : Memos := fun _ => Memo.empty

def set (ms : Memos) (which : Nat) (m : Memo) : Memos := fun i => if i = which then m else ms i

def obtainFactory (ms : Memos) (which : Nat) (d : Definition) (property : String) : Except Error Factory × Memos :=
  let found := (ms which).obtainFactory d property
  (found.1, ms.set which found.2)

end Memos

end PageTemplates
