import PageTemplates.Build.Apply
import PageTemplates.Tree.Control

/-!
# Building trees

A tree of controls is built into a graph of live components. A control that is not to be built is left out
together with everything below it; nothing below it is constructed, checked or evaluated. Of a control that
is built, the component comes first, then the children in order, then the facets by name.
-/

namespace PageTemplates

/-- A component with the components below it. -/
inductive LiveNode where
  /-- A component with its children in order and its facets by name. -/
  | node (component : Instance) (children : List LiveNode) (facets : List (String × LiveNode))

namespace LiveNode

def component : LiveNode → Instance
  | node c _ _ => c

mutual

/-- The number of components, facets included. -/
def count : LiveNode → Nat
  | node _ cs fs => 1 + countAll cs + countFacets fs

/-- The number of components in a list of graphs. -/
def countAll : List LiveNode → Nat
  | [] => 0
  | n :: rest => n.count + countAll rest

/-- The number of components in facets. -/
def countFacets : List (String × LiveNode) → Nat
  | [] => 0
  | (_, n) :: rest => n.count + countFacets rest

end

end LiveNode

namespace Control

mutual

/-- Builds a control and what is below it, unless it is not to be built. -/
def buildLive : Control → Build (Option LiveNode)
  | node _ t cs fs => do
    match ← t.component? with
    | none => pure none
    | some i => do
      let children ← buildLiveAll cs
      let facets ← buildLiveFacets fs
      pure (some (.node i children facets))

/-- Builds those of some controls that are to be built, in order. -/
def buildLiveAll : List Control → Build (List LiveNode)
  | [] => pure []
  | c :: rest => do
    let built ← c.buildLive
    let more ← buildLiveAll rest
    pure (built.toList ++ more)

/-- Builds those of some facets that are to be built, by name. -/
def buildLiveFacets : List (String × Control) → Build (List (String × LiveNode))
  | [] => pure []
  | (name, c) :: rest => do
    let built ← c.buildLive
    let more ← buildLiveFacets rest
    pure ((built.map fun n => (name, n)).toList ++ more)

end

end Control

end PageTemplates
