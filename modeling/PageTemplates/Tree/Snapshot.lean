import PageTemplates.Template.Summary
import PageTemplates.Tree.Basic

/-!
# Snapshots of trees

A snapshot is the shape of a tree and what its setters do, in words.
-/

namespace PageTemplates

/-- The shape of a tree and what its setters do. -/
structure Snapshot where
  /-- The namespace of the tag. -/
  namespaceUri : String
  tag : String
  /-- What the setters do, in order. -/
  setters : List SetterSummary
  /-- Whether the control is built, in words, if something is said about it. -/
  loaded : Option String
  children : List Snapshot
  facets : List (String × Snapshot)

namespace Control

mutual

/-- The snapshot of a control and everything below it. -/
def snapshot : Control → Snapshot
  | node _ t cs fs =>
    ⟨t.definition.namespaceUri, t.tag, t.setters.map Setter.summary, t.loaded.map BuildCondition.text,
      snapshotAll cs, snapshotFacets fs⟩

/-- The snapshots of some controls. -/
def snapshotAll : List Control → List Snapshot
  | [] => []
  | c :: rest => c.snapshot :: snapshotAll rest

/-- The snapshots of some facets. -/
def snapshotFacets : List (String × Control) → List (String × Snapshot)
  | [] => []
  | (name, c) :: rest => (name, c.snapshot) :: snapshotFacets rest

end

end Control

def Tree.snapshot (t : Tree) : Snapshot := t.root.snapshot

end PageTemplates
