import PageTemplates.Proofs.Tree.Arena

/-!
# Trees shown by arenas

An arena shows a tree if it has the same nodes by index, each with its template, its parent, its children and its
facets (`Arena.Shows`). A tree and an arena that begin with the same root and go through the same operations give the
same answers, and the one shows the other at each moment (`Arena.Shows.perform`, `Arena.shows_grown`).
-/

namespace PageTemplates

/-! ## §1 Nodes of a tree -/

namespace NameMap

variable {α β : Type}

theorem map_place (g : α → β) (name : String) (a : α) (entries : List (String × α)) :
    (place name a entries).map (fun e => (e.1, g e.2)) = place name (g a) (entries.map fun e => (e.1, g e.2)) := by
  induction entries with
  | nil => rfl
  | cons e rest ih =>
    obtain ⟨n, b⟩ := e
    -- names are compared, and these stay the same
    by_cases hn : n = name
    · simp [place, hn]
    · by_cases hlt : name < n <;> simp [place, hn, hlt, ih]

theorem lookup_map (g : α → β) (name : String) (entries : List (String × α)) :
    lookup name (entries.map fun e => (e.1, g e.2)) = (lookup name entries).map g := by
  induction entries with
  | nil => rfl
  | cons e rest ih =>
    obtain ⟨n, b⟩ := e
    by_cases hn : n = name <;> simp [lookup, hn, ih]

end NameMap

namespace Control

variable {k : Nat} {f : Control → Control}

theorem mem_preorder_self (parent : Option Nat) (c : Control) : (parent, c) ∈ c.preorder parent := by
  rw [preorder_eq]
  exact List.mem_cons_self

/-- What is attached to a node is a node with that one as its parent. -/
theorem mem_preorder_of_attached {parent q : Option Nat} {c d e : Control} (h : (q, d) ∈ c.preorder parent)
    (he : e ∈ d.attached) : (some d.index, e) ∈ c.preorder parent := by
  -- by induction on what is attached: the node is the control itself, or below it
  induction c using attached_induction generalizing parent with
  | step c ih =>
    rw [preorder_eq] at h ⊢
    rcases List.mem_cons.mp h with h | h
    · cases h
      exact List.mem_cons_of_mem _ (List.mem_flatMap.mpr ⟨e, he, mem_preorder_self _ e⟩)
    · obtain ⟨b, hb, h⟩ := List.mem_flatMap.mp h
      exact List.mem_cons_of_mem _ (List.mem_flatMap.mpr ⟨b, hb, ih b hb h⟩)

theorem index_modify (hindex : ∀ d, (f d).index = d.index) (c : Control) : (c.modify k f).index = c.index := by
  by_cases h : c.index = k
  · rw [modify_of_index_eq h, hindex]
  · rw [modify_eq h]
    rfl

/-- The nodes are still there, with the same parents, after one of them got more attached to it. -/
theorem mem_preorder_modify {parent q : Option Nat} {c d : Control} (hnodup : c.indices.Nodup)
    (hindex : ∀ d, (f d).index = d.index) (hf : ∀ d ∈ c.nodes, d.index = k → d.attached ⊆ (f d).attached)
    (h : (q, d) ∈ c.preorder parent) : (q, d.modify k f) ∈ (c.modify k f).preorder parent := by
  -- by induction on what is attached; either the control is the one that is changed, or it only passes the change on
  induction c using attached_induction generalizing parent with
  | step c ih =>
    rw [preorder_eq] at h ⊢
    rw [indices_eq, List.nodup_cons] at hnodup
    rcases List.mem_cons.mp h with h | h
    · cases h
      exact List.mem_cons_self
    · obtain ⟨b, hb, h⟩ := List.mem_flatMap.mp h
      rw [index_modify hindex]
      refine List.mem_cons_of_mem _ (List.mem_flatMap.mpr ?_)
      by_cases hk : c.index = k
      · -- nothing below has the index
        have hd : d.modify k f = d := modify_of_notMem fun hkd => hnodup.1 <| by
          have hdb : d ∈ b.nodes := map_snd_preorder (some c.index) b ▸ List.mem_map_of_mem h
          exact List.mem_flatMap.mpr ⟨b, hb, ((nodes_sublist_of_mem hdb).map index).subset (hk ▸ hkd)⟩
        rw [modify_of_index_eq hk, hd]
        exact ⟨b, hf c c.self_mem_nodes hk hb, h⟩
      · rw [attached_modify hk]
        have hbelow : ∀ e ∈ b.nodes, e ∈ c.nodes := fun e he => by
          rw [nodes_eq]
          exact List.mem_cons_of_mem _ (List.mem_flatMap.mpr ⟨b, hb, he⟩)
        have hnodupb := (List.nodup_flatMap.mp hnodup.2).1 b hb
        exact ⟨b.modify k f, List.mem_map_of_mem hb, ih b hb hnodupb (fun e he => hf e (hbelow e he)) h⟩

theorem index_withChild (child c : Control) : (Control.withChild child c).index = c.index := by
  cases c
  rfl

theorem index_withFacet (name : String) (facet c : Control) : (Control.withFacet name facet c).index = c.index := by
  cases c
  rfl

theorem attached_withChild (child c : Control) : (Control.withChild child c).attached.Perm (child :: c.attached) := by
  obtain ⟨i, t, cs, fs⟩ := c
  simp only [attached, withChild, children, facets, List.append_assoc, List.singleton_append]
  exact List.perm_middle

theorem attached_withFacet {name : String} (facet : Control) {c : Control} (h : c.facet? name = none) :
    (Control.withFacet name facet c).attached.Perm (facet :: c.attached) := by
  obtain ⟨i, t, cs, fs⟩ := c
  exact (((NameMap.place_perm facet h).map Prod.snd).append_left _).trans List.perm_middle

/-- A node as it is in an arena. -/
def shown (parent : Option Nat) (c : Control) : ArenaNode :=
  ⟨c.template, parent, c.children.map index, c.facets.map fun e => (e.1, e.2.index)⟩

theorem links_shown (parent : Option Nat) (c : Control) : (c.shown parent).links = c.attached.map index := by
  simp [shown, ArenaNode.links, attached, Function.comp_def]

/-- A change elsewhere cannot be seen. -/
theorem shown_modify (hindex : ∀ d, (f d).index = d.index) {c : Control} (h : c.index ≠ k) (parent : Option Nat) :
    (c.modify k f).shown parent = c.shown parent := by
  rw [modify_eq h]
  simp [shown, template, children, facets, Function.comp_def, index_modify hindex]

theorem shown_withChild (parent : Option Nat) (child c : Control) :
    (Control.withChild child c).shown parent = (c.shown parent).listChild child.index := by
  obtain ⟨i, t, cs, fs⟩ := c
  simp [shown, withChild, ArenaNode.listChild, children, template, facets]

theorem shown_withFacet (parent : Option Nat) (name : String) (facet c : Control) :
    (Control.withFacet name facet c).shown parent = (c.shown parent).listFacet name facet.index := by
  obtain ⟨i, t, cs, fs⟩ := c
  simp [shown, withFacet, ArenaNode.listFacet, children, template, facets, NameMap.map_place index]

theorem shown_withTemplate (parent : Option Nat) (object : Template) (c : Control) :
    (c.withTemplate object).shown parent = { c.shown parent with object := object } := by
  obtain ⟨i, t, cs, fs⟩ := c
  rfl

end Control

namespace Tree

variable {t : Tree} {i : Nat}

theorem Numbered.mem_indices (h : t.Numbered) : i ∈ t.root.indices ↔ i < t.size := by
  rw [h.indices.mem_iff, List.mem_range]

/-- A node is found with its parent. -/
theorem Numbered.locate?_eq_some (h : t.Numbered) {parent : Option Nat} {c : Control} :
    t.locate? i = some (parent, c) ↔ (parent, c) ∈ t.root.preorder none ∧ c.index = i := by
  constructor
  · intro hfound
    exact ⟨List.mem_of_find?_eq_some hfound, by simpa using List.find?_some hfound⟩
  · rintro ⟨hc, rfl⟩
    have hindex : c.index ∈ t.root.indices := List.mem_map_of_mem (List.mem_map_of_mem hc)
    obtain ⟨q, d, hfound, hd, hsame⟩ := exists_locate? hindex
    -- no two nodes have the same index, so the one that is found is the node in question
    have hnodup : ((t.root.preorder none).map fun e => e.2.index).Nodup := by
      have := h.indices.nodup_iff.mpr List.nodup_range
      rwa [Control.indices, Control.nodes, List.map_map] at this
    rw [hfound]
    exact congrArg some (List.inj_on_of_nodup_map hnodup hd hc hsame)

theorem Numbered.locate?_eq_none (h : t.Numbered) : t.locate? i = none ↔ t.size ≤ i := by
  rw [← Nat.not_lt, ← h.mem_indices]
  constructor
  · intro hnone hi
    obtain ⟨q, c, hfound, -⟩ := exists_locate? hi
    rw [hnone] at hfound
    cases hfound
  · intro hi
    -- whatever is found has an index of the tree
    cases hfound : t.locate? i with
    | none => rfl
    | some e =>
      obtain ⟨hmem, rfl⟩ := h.locate?_eq_some.mp hfound
      exact absurd (List.mem_map_of_mem (List.mem_map_of_mem hmem)) hi

end Tree

/-! ## §2 Trees and arenas -/

/-- An arena shows a tree: each node with its template, its parent, its children and its facets. -/
structure Arena.Shows (a : Arena) (t : Tree) : Prop where
  size : a.size = t.size
  node : ∀ i, a.nodes[i]? = (t.locate? i).map fun e => e.2.shown e.1

namespace Arena.Shows

variable {a : Arena} {t : Tree}

theorem parent?_eq (h : a.Shows t) (i : Nat) : a.parent? i = t.parent? i := by
  rw [Arena.parent?, h.node, Tree.parent?, Option.bind_map]
  rfl

theorem getElem?_eq_none (h : a.Shows t) {i : Nat} (hi : t.get? i = none) : a.nodes[i]? = none := by
  rw [h.node, Option.map_eq_none_iff]
  exact Option.map_eq_none_iff.mp hi

theorem getElem?_eq_some (h : a.Shows t) {i : Nat} {c : Control} (hc : t.get? i = some c) :
    ∃ parent, t.locate? i = some (parent, c) ∧ a.nodes[i]? = some (c.shown parent) := by
  obtain ⟨⟨parent, d⟩, hfound, rfl⟩ := Option.map_eq_some_iff.mp hc
  exact ⟨parent, hfound, by rw [h.node, hfound, Option.map_some]⟩

theorem ofRoot (root : Template) : (Arena.ofRoot root).Shows (.ofRoot root) := by
  refine ⟨rfl, fun i => ?_⟩
  cases i with
  | zero => rfl
  | succ i => rfl

variable {p : Nat} {c : Control} {object : Template} {f : ArenaNode → ArenaNode} {g : Control → Control}

/-- One node more, in the tree and in the arena. -/
theorem attach (h : a.Shows t) (ht : t.Numbered) (hc : t.get? p = some c) (hindex : ∀ d, (g d).index = d.index)
    (hattached : (g c).attached.Perm (.leaf t.size object :: c.attached))
    (hshown : ∀ parent d, (g d).shown parent = f (d.shown parent))
    (hgrown : Tree.Numbered ⟨t.root.modify p g, t.size + 1⟩) :
    ((a.push p object).update p f).Shows ⟨t.root.modify p g, t.size + 1⟩ := by
  obtain ⟨parent, hlocate, hnode⟩ := h.getElem?_eq_some hc
  obtain ⟨hmem, rfl⟩ := ht.locate?_eq_some.mp hlocate
  have hp : c.index < a.size := (List.getElem?_eq_some_iff.mp hnode).1
  have hnodup : t.root.indices.Nodup := ht.indices.nodup_iff.mpr List.nodup_range
  have hkept : c.attached ⊆ (g c).attached := fun d hd => hattached.mem_iff.mpr (List.mem_cons_of_mem _ hd)
  have hnew : Control.leaf t.size object ∈ (g c).attached := hattached.mem_iff.mpr List.mem_cons_self
  -- the nodes that there were, each changed if it is the one that got the new node
  have hold : ∀ {q d}, (q, d) ∈ t.root.preorder none →
      (q, d.modify c.index g) ∈ (t.root.modify c.index g).preorder none := fun hd =>
    Control.mem_preorder_modify hnodup hindex
      (fun d hd heq => ht.eq_of_index hd (List.mem_map_of_mem hmem) heq ▸ hkept) hd
  refine ⟨by rw [Arena.size_attach, h.size], fun i => ?_⟩
  rw [Arena.getElem?_attach hp]
  split
  · rename_i hi
    have hleaf : (some c.index, Control.leaf t.size object) ∈ (t.root.modify c.index g).preorder none := by
      have hchanged := hold hmem
      rw [Control.modify_of_index_eq rfl] at hchanged
      have := Control.mem_preorder_of_attached hchanged hnew
      rwa [hindex] at this
    rw [hgrown.locate?_eq_some.mpr ⟨hleaf, (hi.trans h.size).symm⟩]
    rfl
  · rename_i hi
    rw [h.node]
    cases hfound : t.locate? i with
    | none =>
      have hi' : i ≠ t.size := h.size ▸ hi
      have hbeyond : t.size + 1 ≤ i := by
        have := ht.locate?_eq_none.mp hfound
        omega
      rw [hgrown.locate?_eq_none.mpr hbeyond]
      rfl
    | some e =>
      obtain ⟨q, d⟩ := e
      -- an old node is where it was, and differs if it is the parent of the new one
      obtain ⟨hd, rfl⟩ := ht.locate?_eq_some.mp hfound
      have hd' : Tree.locate? ⟨t.root.modify c.index g, t.size + 1⟩ d.index = some (q, d.modify c.index g) :=
        hgrown.locate?_eq_some.mpr ⟨hold hd, Control.index_modify hindex d⟩
      rw [hd']
      simp only [Option.map_some, Option.some_inj]
      by_cases heq : c.index = d.index
      · rw [if_pos heq, Control.modify_of_index_eq heq.symm, hshown]
      · rw [if_neg heq, Control.shown_modify hindex (Ne.symm heq)]

/-- Another template for one node, in the tree and in the arena. -/
theorem relabel (h : a.Shows t) (ht : t.Numbered) (hnew : (t.setTemplate p object).Numbered) :
    (a.update p fun n => { n with object := object }).Shows (t.setTemplate p object) := by
  -- a template says nothing about the links
  have hindex : ∀ d : Control, (d.withTemplate object).index = d.index := fun ⟨_, _, _, _⟩ => rfl
  have hattached : ∀ d : Control, d.attached ⊆ (d.withTemplate object).attached := fun ⟨_, _, _, _⟩ _ h => h
  have hnodup : t.root.indices.Nodup := ht.indices.nodup_iff.mpr List.nodup_range
  refine ⟨by simp [Arena.update, Arena.size, ← h.size, Tree.setTemplate], fun i => ?_⟩
  rw [Arena.update, List.getElem?_modify, h.node]
  cases hfound : t.locate? i with
  | none =>
    have hbeyond : (t.setTemplate p object).size ≤ i := ht.locate?_eq_none.mp hfound
    rw [hnew.locate?_eq_none.mpr hbeyond]
    rfl
  | some e =>
    obtain ⟨q, d⟩ := e
    obtain ⟨hd, rfl⟩ := ht.locate?_eq_some.mp hfound
    have hd' := Control.mem_preorder_modify (k := p) hnodup hindex (fun d _ _ => hattached d) hd
    rw [hnew.locate?_eq_some.mpr ⟨hd', Control.index_modify hindex d⟩]
    simp only [Option.map_some, Option.map_eq_map, Option.some_inj]
    by_cases heq : p = d.index
    · rw [if_pos heq, Control.modify_of_index_eq heq.symm, Control.shown_withTemplate]
    · rw [if_neg heq, Control.shown_modify hindex (Ne.symm heq)]

/-- An arena and a tree that show the same give the same answers, and show the same afterwards. -/
theorem perform (h : a.Shows t) (ht : t.Numbered) (operation : TreeOperation)
    (hgrown : (t.perform operation).2.Numbered) :
    (a.perform operation).1 = (t.perform operation).1 ∧ (a.perform operation).2.Shows (t.perform operation).2 := by
  cases operation with
  | addChild parent object =>
    show (a.addChild parent object).1 = _ ∧ (a.addChild parent object).2.Shows _
    cases hc : t.get? parent with
    | none => simpa [Tree.perform, Tree.addChild, Arena.addChild, hc, h.getElem?_eq_none hc] using h
    | some c =>
      obtain ⟨q, -, hnode⟩ := h.getElem?_eq_some hc
      simp only [Tree.perform, Tree.addChild, hc] at hgrown
      simp only [Tree.perform, Tree.addChild, Arena.addChild, hc, hnode, h.size, true_and]
      exact h.attach ht hc (Control.index_withChild _) (Control.attached_withChild _ c)
        (fun q d => Control.shown_withChild q _ d) hgrown
  | addFacet parent name object =>
    show (a.addFacet parent name object).1 = _ ∧ (a.addFacet parent name object).2.Shows _
    cases hc : t.get? parent with
    | none => simpa [Tree.perform, Tree.addFacet, Arena.addFacet, hc, h.getElem?_eq_none hc] using h
    | some c =>
      obtain ⟨q, -, hnode⟩ := h.getElem?_eq_some hc
      have hlookup : NameMap.lookup name (c.shown q).facets = (c.facet? name).map Control.index :=
        NameMap.lookup_map Control.index name c.facets
      cases hname : c.facet? name with
      | some d =>
        rw [hname] at hlookup
        simpa [Tree.perform, Tree.addFacet, Arena.addFacet, hc, hnode, hname, hlookup] using ⟨rfl, h⟩
      | none =>
        rw [hname] at hlookup
        simp only [Tree.perform, Tree.addFacet, hc, hname] at hgrown
        simp only [Tree.perform, Tree.addFacet, Arena.addFacet, hc, hnode, hname, hlookup, Option.map_none, h.size,
          true_and]
        exact h.attach ht hc (Control.index_withFacet name _) (Control.attached_withFacet _ hname)
          (fun q d => Control.shown_withFacet q _ _ d) hgrown
  | setTemplate index object =>
    refine ⟨?_, h.relabel ht hgrown⟩
    show Except.ok ((a.nodes[index]?).map fun _ => index) = .ok ((t.get? index).map Control.index)
    cases hc : t.get? index with
    | none => rw [h.getElem?_eq_none hc]; rfl
    | some c =>
      obtain ⟨q, -, hnode⟩ := h.getElem?_eq_some hc
      rw [hnode, Option.map_some, Option.map_some, (Tree.mem_nodes_of_get? hc).2]

end Arena.Shows

/-- What is done to a tree makes a tree that can come about. -/
theorem Tree.Reached.perform {t : Tree} (h : t.Reached) (operation : TreeOperation) :
    (t.perform operation).2.Reached := by
  cases operation with
  | addChild parent object =>
    unfold Tree.perform
    dsimp only
    split
    · rename_i hadd
      exact h.addChild hadd
    · exact h
  | addFacet parent name object =>
    unfold Tree.perform
    dsimp only
    split
    · rename_i hadd
      exact h.addFacet hadd
    · exact h
  | setTemplate index object => exact h.setTemplate index object

theorem Tree.reached_grown (root : Template) (operations : List TreeOperation) : (grown root operations).Reached :=
  List.foldlRecOn operations _ (.ofRoot root) fun _ h operation _ => h.perform operation

/-- The same operations make an arena that shows the tree. -/
theorem Arena.shows_grown (root : Template) (operations : List TreeOperation) :
    (Arena.grown root operations).Shows (Tree.grown root operations) := by
  have both : ∀ (a : Arena) (t : Tree), a.Shows t → t.Reached →
      Shows (operations.foldl (fun a operation => (a.perform operation).2) a)
        (operations.foldl (fun t operation => (t.perform operation).2) t) := by
    induction operations with
    | nil => exact fun _ _ h _ => h
    | cons operation rest ih =>
      intro a t h ht
      have hnext := ht.perform operation
      exact ih _ _ (h.perform ht.numbered operation hnext.numbered).2 hnext
  exact both _ _ (.ofRoot root) (.ofRoot root)

end PageTemplates
