import PageTemplates.Build.LiveTree
import PageTemplates.Proofs.Tree.Shown
import PageTemplates.Tree.Snapshot

/-!
# Following the links of an arena

What is made of a tree by a recursion over its nodes can be made of an arena by following the links of each node
(`Arena.follow`). An arena that is not a tree might keep one going round for ever, so that the number of steps is
limited. Links lead to larger indices, so that as many steps as there are nodes are enough, and the result is that of
the tree (`Arena.Shows.follow_eq`). The recursions of a listing, of a snapshot and of a build are of this kind.
-/

namespace PageTemplates

/-! ## §1 Recursion by links -/

/-- Makes a result for a node of the results for the nodes that it lists, following links as long as there are steps
left. -/
def Arena.follow {β : Type} (f : Nat → ArenaNode → List β → List (String × β) → β) (a : Arena) : Nat → Nat → Option β
  | 0, _ => none
  | steps + 1, i => do
    let n ← a.nodes[i]?
    let children ← n.children.mapM (a.follow f steps)
    let facets ← n.facets.mapM fun e => (a.follow f steps e.2).map (e.1, ·)
    pure (f i n children facets)

/-- A recursion over the controls of a tree looks at each of them as it is in an arena. -/
def Control.Recurs {β : Type} (f : Nat → ArenaNode → List β → List (String × β) → β) (F : Control → β) : Prop :=
  ∀ parent c, F c = f c.index (c.shown parent) (c.children.map F) (c.facets.map fun e => (e.1, F e.2))

theorem mapM_eq_some_map {α β : Type} {l : List α} {g : α → Option β} {h : α → β} (hg : ∀ x ∈ l, g x = some (h x)) :
    l.mapM g = some (l.map h) := by
  -- all steps have a result, so there is one for the list
  induction l with
  | nil => rfl
  | cons x rest ih =>
    rw [List.mapM_cons, hg x List.mem_cons_self, ih fun y hy => hg y (List.mem_cons_of_mem _ hy)]
    rfl

/-- Following the links ends, and gives what the recursion over the tree gives. -/
theorem Arena.Shows.follow_eq {β : Type} {f : Nat → ArenaNode → List β → List (String × β) → β} {F : Control → β}
    (hF : Control.Recurs f F) {a : Arena} {t : Tree} (h : a.Shows t) (ht : t.Numbered) (hl : a.Linked)
    {parent : Option Nat} {c : Control} (hc : (parent, c) ∈ t.root.preorder none) {steps : Nat}
    (hsteps : t.size ≤ c.index + steps) : a.follow f steps c.index = some (F c) := by
  -- by induction on what is attached to the control, with any number of steps that is large enough
  induction c using Control.attached_induction generalizing parent steps with
  | step c ih =>
    have hlocate := ht.locate?_eq_some.mpr ⟨hc, rfl⟩
    have hlt : c.index < t.size := Nat.not_le.mp fun hle => by
      rw [ht.locate?_eq_none.mpr hle] at hlocate
      cases hlocate
    cases steps with
    | zero => exact absurd hsteps (Nat.not_le.mpr hlt)
    | succ steps =>
      have hnode : a.nodes[c.index]? = some (c.shown parent) := by rw [h.node, hlocate, Option.map_some]
      -- what is attached has a larger index, so that fewer steps are enough for it
      have hattached : ∀ d ∈ c.attached, a.follow f steps d.index = some (F d) := by
        intro d hd
        have hmem := Control.mem_preorder_of_attached hc hd
        have hparent : a.parent? d.index = some c.index := by
          rw [h.parent?_eq, Tree.parent?, ht.locate?_eq_some.mpr ⟨hmem, rfl⟩]
          rfl
        have hbelow := hl.lt_of_parent? hparent
        exact ih d hd hmem (by omega)
      have hchildren : (c.shown parent).children.mapM (a.follow f steps) = some (c.children.map F) := by
        rw [Control.shown, List.mapM_map]
        exact mapM_eq_some_map fun d hd => hattached d (List.mem_append_left _ hd)
      have hfacets : (c.shown parent).facets.mapM (fun e => (a.follow f steps e.2).map (e.1, ·)) =
          some (c.facets.map fun e => (e.1, F e.2)) := by
        rw [Control.shown, List.mapM_map]
        refine mapM_eq_some_map fun e he => ?_
        have hd := hattached e.2 (List.mem_append_right _ (List.mem_map_of_mem he))
        simp [hd]
      rw [hF parent c]
      simp only [follow, hnode, hchildren, hfacets, Option.bind_eq_bind, Option.bind_some, Option.pure_def]

/-! ## §2 Recursions -/

namespace ArenaNode

/-- Lists a node before those below its children and its facets. -/
def visit (i : Nat) (_ : ArenaNode) (children : List (List Nat)) (facets : List (String × List Nat)) : List Nat :=
  i :: (children.flatten ++ (facets.map Prod.snd).flatten)

def snapshot (_ : Nat) (n : ArenaNode) (children : List Snapshot) (facets : List (String × Snapshot)) : Snapshot :=
  ⟨n.object.definition.namespaceUri, n.object.tag, n.object.setters.map Setter.summary,
    n.object.loaded.map BuildCondition.text, children, facets⟩

/-- Builds one after another, and keeps what is built. -/
def buildAll : List (Build (Option LiveNode)) → Build (List LiveNode)
  | [] => pure []
  | p :: rest => do
    let built ← p
    let more ← buildAll rest
    pure (built.toList ++ more)

/-- The same for facets. -/
def buildFacets : List (String × Build (Option LiveNode)) → Build (List (String × LiveNode))
  | [] => pure []
  | (name, p) :: rest => do
    let built ← p
    let more ← buildFacets rest
    pure ((built.map fun n => (name, n)).toList ++ more)

/-- Builds the component of a node, and then what is below it if there is one. -/
def build (_ : Nat) (n : ArenaNode) (children : List (Build (Option LiveNode)))
    (facets : List (String × Build (Option LiveNode))) : Build (Option LiveNode) := do
  match ← n.object.component? with
  | none => pure none
  | some i => do
    let children ← buildAll children
    let facets ← buildFacets facets
    pure (some (.node i children facets))

end ArenaNode

namespace Control

theorem recurs_indices : Recurs ArenaNode.visit indices := by
  intro parent c
  rw [indices_eq, attached, List.flatMap_append, ArenaNode.visit, List.flatMap_def, List.flatMap_def, List.map_map,
    List.map_map]
  rfl

theorem recurs_snapshot : Recurs ArenaNode.snapshot snapshot := by
  intro parent c
  obtain ⟨i, t, cs, fs⟩ := c
  -- the recursion of a snapshot goes through lists of its own, which are maps
  have hchildren : ∀ cs, snapshotAll cs = cs.map snapshot := by
    intro cs
    induction cs with
    | nil => rfl
    | cons c rest ih => rw [snapshotAll, ih, List.map_cons]
  have hfacets : ∀ fs, snapshotFacets fs = fs.map fun e => (e.1, e.2.snapshot) := by
    intro fs
    induction fs with
    | nil => rfl
    | cons e rest ih => rw [snapshotFacets, ih, List.map_cons]
  rw [snapshot, hchildren, hfacets]
  rfl

theorem recurs_buildLive : Recurs ArenaNode.build buildLive := by
  intro parent c
  obtain ⟨i, t, cs, fs⟩ := c
  -- as for snapshots
  have hchildren : ∀ cs, buildLiveAll cs = ArenaNode.buildAll (cs.map buildLive) := by
    intro cs
    induction cs with
    | nil => rfl
    | cons c rest ih => rw [buildLiveAll, ih, List.map_cons, ArenaNode.buildAll]
  have hfacets : ∀ fs, buildLiveFacets fs = ArenaNode.buildFacets (fs.map fun e => (e.1, e.2.buildLive)) := by
    intro fs
    induction fs with
    | nil => rfl
    | cons e rest ih => rw [buildLiveFacets, ih, List.map_cons, ArenaNode.buildFacets]
  rw [buildLive, hchildren, hfacets]
  rfl

end Control

/-! ## §3 Trees that have grown -/

/-- A control without a parent is the root. -/
theorem Control.eq_of_parentless {parent : Option Nat} {c d : Control} (h : (none, d) ∈ c.preorder parent) :
    parent = none ∧ d = c := by
  induction c using attached_induction generalizing parent with
  | step c ih =>
    rw [preorder_eq] at h
    rcases List.mem_cons.mp h with h | h
    · cases h
      exact ⟨rfl, rfl⟩
    · obtain ⟨b, hb, h⟩ := List.mem_flatMap.mp h
      -- whatever is below the control has one as its parent
      exact absurd (ih b hb h).1 (Option.some_ne_none _)

/-- The first node is the root. -/
theorem Arena.Shows.get?_zero {a : Arena} {t : Tree} (h : a.Shows t) (ht : t.Numbered) (hl : a.Linked) :
    t.get? 0 = some t.root := by
  have hroot := hl.root
  rw [h.node, Option.map_map, Option.map_eq_some_iff] at hroot
  obtain ⟨⟨parent, c⟩, hfound, hparent⟩ := hroot
  obtain rfl : parent = none := hparent
  have hc := (ht.locate?_eq_some.mp hfound).1
  rw [Tree.get?, hfound, Option.map_some, (Control.eq_of_parentless hc).2]

/-- What finds no node, or no room for one, leaves the tree as it is. -/
theorem Tree.perform_unchanged {t : Tree} {operation : TreeOperation}
    (h : ∀ i, (t.perform operation).1 ≠ .ok (some i)) : (t.perform operation).2 = t := by
  cases operation with
  | addChild parent object =>
    unfold Tree.perform at h ⊢
    dsimp only at h ⊢
    split at h
    · exact absurd rfl (h _)
    · rfl
  | addFacet parent name object =>
    unfold Tree.perform at h ⊢
    dsimp only at h ⊢
    split at h
    · exact absurd rfl (h _)
    · rfl
  | setTemplate index object =>
    have hnone : t.get? index = none := by
      cases hc : t.get? index with
      | none => rfl
      | some c => exact absurd (by simp [perform, hc]) (h c.index)
    -- no control of the tree has the index, so none is changed
    have hindex : index ∉ t.root.indices := fun hmem => by
      obtain ⟨parent, c, hfound, -⟩ := exists_locate? hmem
      rw [get?, hfound] at hnone
      cases hnone
    show t.setTemplate index object = t
    rw [setTemplate, Control.modify_of_notMem hindex]

/-- An arena that a tree might as well be kept in. -/
structure Arena.Describes (a : Arena) (t : Tree) : Prop where
  /-- It has the same nodes. -/
  shows : a.Shows t
  /-- Its links make it a tree. -/
  linked : a.Linked
  root : t.get? 0 = some t.root
  /-- In the tree itself, what is attached to a control is what has it as its parent. -/
  inverse : ∀ p c, t.get? p = some c → ∀ i, i ∈ c.attached.map Control.index ↔ t.parent? i = some p
  /-- It gives the same answers. -/
  answer : ∀ operation, (a.perform operation).1 = (t.perform operation).1
  refused : ∀ operation e, (t.perform operation).1 = .error e ↔ a.Refuses operation e
  /-- What fails changes nothing. -/
  unchanged : ∀ operation, (∀ i, (t.perform operation).1 ≠ .ok (some i)) →
    (t.perform operation).2 = t ∧ (a.perform operation).2 = a
  /-- Following the links from the first node ends, and comes to each node once. -/
  visited : ∃ visited, visited.Perm (List.range t.size) ∧
    ∀ steps, t.size ≤ steps → a.follow ArenaNode.visit steps 0 = some visited
  /-- So do the recursions of a snapshot and of a build, from any node. -/
  followed : ∀ i c, t.get? i = some c → ∀ steps, t.size ≤ i + steps →
    a.follow ArenaNode.snapshot steps i = some c.snapshot ∧ a.follow ArenaNode.build steps i = some c.buildLive

/-- Whatever is done to a tree, and whatever of it fails, its links make it a tree. -/
theorem Tree.describes_grown (root : Template) (operations : List TreeOperation) :
    (Arena.grown root operations).Describes (Tree.grown root operations) := by
  have hreached := Tree.reached_grown root operations
  have ht := hreached.numbered
  have hl := Arena.linked_grown root operations
  have hs := Arena.shows_grown root operations
  have hanswer := fun operation => (hs.perform ht operation (hreached.perform operation).numbered).1
  -- the three recursions are followed in the same way
  have follows {β : Type} {f : Nat → ArenaNode → List β → List (String × β) → β} {F : Control → β}
      (hF : Control.Recurs f F) {i : Nat} {c : Control} (hc : (Tree.grown root operations).get? i = some c)
      {steps : Nat} (hsteps : (Tree.grown root operations).size ≤ i + steps) :
      (Arena.grown root operations).follow f steps i = some (F c) := by
    obtain ⟨⟨parent, d⟩, hfound, rfl⟩ := Option.map_eq_some_iff.mp hc
    obtain ⟨hmem, rfl⟩ := ht.locate?_eq_some.mp hfound
    exact hs.follow_eq hF ht hl hmem hsteps
  constructor
  · exact hs
  · exact hl
  · exact hs.get?_zero ht hl
  · intro p c hc i
    obtain ⟨parent, -, hnode⟩ := hs.getElem?_eq_some hc
    rw [← Control.links_shown parent, hl.listed p _ hnode, hs.parent?_eq]
  · exact hanswer
  · intro operation e
    rw [← hanswer, Arena.perform_eq_error]
  · intro operation h
    exact ⟨Tree.perform_unchanged h, Arena.perform_unchanged (hanswer operation ▸ h)⟩
  · refine ⟨_, ht.indices, fun steps hsteps => ?_⟩
    exact follows Control.recurs_indices (hs.get?_zero ht hl) (by rwa [Nat.zero_add])
  · intro i c hc steps hsteps
    exact ⟨follows Control.recurs_snapshot hc hsteps, follows Control.recurs_buildLive hc hsteps⟩

end PageTemplates
