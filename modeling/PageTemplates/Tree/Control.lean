import PageTemplates.Template.Basic

/-!
# Trees of controls

A control is a template in its place: it has an index, children in order, and facets by name. Indices are
given out in the order of creation, the root having index zero. A control is attached once, when it is
created, so every control has one parent, which was created earlier.
-/

namespace PageTemplates

/-- A template in its place in a tree. -/
inductive Control where
  /-- The control of an index, with its children in order and its facets by name. -/
  | node (index : Nat) (template : Template) (children : List Control) (facets : List (String × Control))

namespace Control

/-! ## §1 Parts -/

def index : Control → Nat
  | node i _ _ _ => i

def template : Control → Template
  | node _ t _ _ => t

/-- The children, in order. -/
def children : Control → List Control
  | node _ _ cs _ => cs

/-- The facets, by name. -/
def facets : Control → List (String × Control)
  | node _ _ _ fs => fs

def tag (c : Control) : String := c.template.tag

def facet? (c : Control) (name : String) : Option Control := NameMap.lookup name c.facets

/-- A control without children and facets. -/
def leaf (index : Nat) (t : Template) : Control := node index t [] []

/-! ## §2 Listing -/

mutual

/-- All controls with the indices of their parents: a control, those below its children, those below its
facets. -/
def preorder (parent : Option Nat) : Control → List (Option Nat × Control)
  | node i t cs fs => (parent, node i t cs fs) :: (preorderAll i cs ++ preorderFacets i fs)

/-- All controls below the children of one. -/
def preorderAll (parent : Nat) : List Control → List (Option Nat × Control)
  | [] => []
  | c :: rest => c.preorder (some parent) ++ preorderAll parent rest

/-- All controls below the facets of one. -/
def preorderFacets (parent : Nat) : List (String × Control) → List (Option Nat × Control)
  | [] => []
  | (_, c) :: rest => c.preorder (some parent) ++ preorderFacets parent rest

end

/-! ## §3 Changing one control -/

mutual

/-- Changes the control of an index. -/
def modify (index : Nat) (f : Control → Control) : Control → Control
  | node i t cs fs =>
    if i = index then f (node i t cs fs)
    else node i t (modifyAll index f cs) (modifyFacets index f fs)

/-- Changes the control of an index in a list of trees. -/
def modifyAll (index : Nat) (f : Control → Control) : List Control → List Control
  | [] => []
  | c :: rest => c.modify index f :: modifyAll index f rest

/-- Changes the control of an index in facets. -/
def modifyFacets (index : Nat) (f : Control → Control) : List (String × Control) → List (String × Control)
  | [] => []
  | (name, c) :: rest => (name, c.modify index f) :: modifyFacets index f rest

end

/-- One more child, after the others. -/
def withChild (child : Control) : Control → Control
  | node i t cs fs => node i t (cs ++ [child]) fs

def withFacet (name : String) (facet : Control) : Control → Control
  | node i t cs fs => node i t cs (NameMap.place name facet fs)

def withTemplate (t : Template) : Control → Control
  | node i _ cs fs => node i t cs fs

end Control

end PageTemplates
