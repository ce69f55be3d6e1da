import PageTemplates.Error
import PageTemplates.Tree.Control

/-!
# Trees

A tree is made of its root by attaching children and facets. An index that no control of the tree has is an
error, and so is a facet name that is taken already; in both cases the tree stays as it is.
-/

namespace PageTemplates

/-- A tree of controls. -/
structure Tree where
  root : Control
  /-- The number of controls, which is also the next index. -/
  size : Nat

namespace Tree

/-- The tree of a root alone. -/
def ofRoot (t : Template) : Tree := ⟨.leaf 0 t, 1⟩

/-- The control of an index, with the index of its parent. -/
def locate? (t : Tree) (index : Nat) : Option (Option Nat × Control) :=
  (t.root.preorder none).find? fun e => e.2.index == index

def get? (t : Tree) (index : Nat) : Option Control := (t.locate? index).map Prod.snd

/-- The index of the parent of a control. -/
def parent? (t : Tree) (index : Nat) : Option Nat := (t.locate? index).bind Prod.fst

/-- Attaches one more child to a control, and gives its index. -/
def addChild (t : Tree) (parent : Nat) (object : Template) : Except Error (Nat × Tree) :=
  match t.get? parent with
  | none => .error (.foreignNode parent)
  | some _ => .ok (t.size, ⟨t.root.modify parent (Control.withChild (.leaf t.size object)), t.size + 1⟩)

/-- Attaches a facet to a control, and gives its index. -/
def addFacet (t : Tree) (parent : Nat) (name : String) (object : Template) : Except Error (Nat × Tree) :=
  match t.get? parent with
  | none => .error (.foreignNode parent)
  | some c => match c.facet? name with
    | some _ => .error (.duplicateFacet c.tag name)
    | none => .ok (t.size, ⟨t.root.modify parent (Control.withFacet name (.leaf t.size object)), t.size + 1⟩)

/-- Replaces the template of a control. -/
def setTemplate (t : Tree) (index : Nat) (object : Template) : Tree :=
  { t with root := t.root.modify index (Control.withTemplate object) }

end Tree

end PageTemplates
