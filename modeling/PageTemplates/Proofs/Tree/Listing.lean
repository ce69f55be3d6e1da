import PageTemplates.Tree.Basic
import Mathlib.Data.List.Perm.Basic
import Mathlib.Data.List.Nodup
import Mathlib.Data.String.Basic

/-!
# The controls of a tree

A control has others attached to it: its children in order, then its facets by name (`Control.attached`). What is said
of all controls of a tree goes by this one list: the order in which they are listed (`preorder_eq`, `nodes_eq`), the
induction that goes with it (`attached_induction`), and what changing one of them does to the others (`modify_eq`).

In a tree that is `Numbered` every index below its size belongs to one control, and the facets of each control are in
the order of their names.
-/

namespace PageTemplates

/-! ## §1 Entries in the order of their names -/

namespace NameMap

variable {α : Type}

/-- Entries are in the order of their names, and no two of them have the same name. -/
def Ordered (entries : List (String × α)) : Prop := (entries.map Prod.fst).Pairwise (· < ·)

theorem ordered_cons {e : String × α} {rest : List (String × α)} :
    Ordered (e :: rest) ↔ (∀ n ∈ rest.map Prod.fst, e.1 < n) ∧ Ordered rest := by
  rw [Ordered, List.map_cons, List.pairwise_cons]
  rfl

/-- An entry under a new name is one more entry. -/
theorem place_perm {name : String} {entries : List (String × α)} (a : α) (h : lookup name entries = none) :
    (place name a entries).Perm ((name, a) :: entries) := by
  induction entries with
  | nil => exact .refl _
  | cons e rest ih =>
    obtain ⟨n, b⟩ := e
    by_cases hn : n = name
    · simp [lookup, hn] at h
    · have hrest : lookup name rest = none := by simpa [lookup, hn] using h
      -- the new entry comes here, or further behind
      by_cases hlt : name < n
      · simp [place, hn, hlt]
      · simp only [place, hn, hlt, if_false]
        exact ((ih hrest).cons _).trans (.swap _ _ _)

/-- What is there once an entry has been put in its place is that entry or was there before. -/
theorem mem_place {name : String} {a : α} {e : String × α} {entries : List (String × α)}
    (h : e ∈ place name a entries) : e = (name, a) ∨ e ∈ entries := by
  induction entries with
  | nil => exact .inl (List.mem_singleton.mp h)
  | cons first rest ih =>
    obtain ⟨n, b⟩ := first
    by_cases hn : n = name
    · simp only [place, hn, if_true] at h
      exact (List.mem_cons.mp h).imp_right (List.mem_cons_of_mem _)
    · by_cases hlt : name < n
      · simp only [place, hn, hlt, if_false, if_true] at h
        exact List.mem_cons.mp h
      · simp only [place, hn, hlt, if_false] at h
        rcases List.mem_cons.mp h with rfl | h
        · exact .inr List.mem_cons_self
        · exact (ih h).imp_right (List.mem_cons_of_mem _)

theorem Ordered.place {entries : List (String × α)} (h : Ordered entries) (name : String) (a : α) :
    Ordered (place name a entries) := by
  induction entries with
  | nil => simp [Ordered, NameMap.place]
  | cons e rest ih =>
    obtain ⟨n, b⟩ := e
    obtain ⟨hbelow, hrest⟩ := ordered_cons.mp h
    by_cases hn : n = name
    · subst hn
      simp only [NameMap.place, if_true]
      exact ordered_cons.mpr ⟨hbelow, hrest⟩
    · -- the entry comes before all the others, or somewhere behind this one
      by_cases hlt : name < n
      · simp only [NameMap.place, hn, hlt, if_false, if_true]
        refine ordered_cons.mpr ⟨fun m hm => ?_, h⟩
        rcases List.mem_cons.mp hm with rfl | hm
        · exact hlt
        · exact lt_trans hlt (hbelow m hm)
      · simp only [NameMap.place, hn, hlt, if_false]
        refine ordered_cons.mpr ⟨fun m hm => ?_, ih hrest⟩
        obtain ⟨e, he, rfl⟩ := List.mem_map.mp hm
        rcases mem_place he with rfl | he
        · exact lt_of_le_of_ne (not_lt.mp hlt) hn
        · exact hbelow e.1 (List.mem_map_of_mem he)

end NameMap

/-! ## §2 What is attached to a control -/

namespace Control

/-- The controls attached to a control: its children in order, then its facets by name. -/
def attached (c : Control) : List Control := c.children ++ c.facets.map Prod.snd

theorem sizeOf_lt_of_mem_attached {c d : Control} (h : d ∈ c.attached) : sizeOf d < sizeOf c := by
  obtain ⟨i, t, cs, fs⟩ := c
  -- a child, or the second part of an entry for a facet
  rcases List.mem_append.mp h with h | h
  · have := List.sizeOf_lt_of_mem (show d ∈ cs from h)
    simp only [node.sizeOf_spec]
    omega
  · obtain ⟨⟨name, e⟩, he, rfl⟩ := List.mem_map.mp h
    have := List.sizeOf_lt_of_mem (show (name, e) ∈ fs from he)
    simp only [node.sizeOf_spec, Prod.mk.sizeOf_spec] at this ⊢
    omega

/-- What passes from the controls attached to a control to the control itself holds of every control. -/
@[elab_as_elim]
theorem attached_induction {motive : Control → Prop}
    (step : ∀ c : Control, (∀ d ∈ c.attached, motive d) → motive c) (c : Control) : motive c :=
  step c fun d _ => attached_induction step d
-- the recursion is well founded because what is attached is smaller
termination_by sizeOf c
decreasing_by exact sizeOf_lt_of_mem_attached ‹_›

theorem preorderAll_eq_flatMap (i : Nat) (cs : List Control) :
    preorderAll i cs = cs.flatMap (preorder (some i)) := by
  induction cs with
  | nil => rfl
  | cons c rest ih => rw [preorderAll, List.flatMap_cons, ih]

theorem preorderFacets_eq_flatMap (i : Nat) (fs : List (String × Control)) :
    preorderFacets i fs = (fs.map Prod.snd).flatMap (preorder (some i)) := by
  induction fs with
  | nil => rfl
  | cons f rest ih => rw [preorderFacets, List.map_cons, List.flatMap_cons, ih]

theorem preorder_eq (parent : Option Nat) (c : Control) :
    c.preorder parent = (parent, c) :: c.attached.flatMap (preorder (some c.index)) := by
  obtain ⟨i, t, cs, fs⟩ := c
  rw [preorder, preorderAll_eq_flatMap, preorderFacets_eq_flatMap, ← List.flatMap_append]
  rfl

/-- A control and all controls below it, in the order of the listing. -/
def nodes (c : Control) : List Control := (c.preorder none).map Prod.snd

theorem map_snd_preorder (parent : Option Nat) (c : Control) : (c.preorder parent).map Prod.snd = c.nodes := by
  -- the parent is looked at by the first entry alone
  rw [nodes, preorder_eq, preorder_eq none]
  rfl

theorem nodes_eq (c : Control) : c.nodes = c :: c.attached.flatMap nodes := by
  rw [nodes, preorder_eq, List.map_cons, List.map_flatMap]
  simp only [map_snd_preorder]

theorem self_mem_nodes (c : Control) : c ∈ c.nodes := by
  rw [nodes_eq]
  exact List.mem_cons_self

theorem nodes_sublist_of_mem {c d : Control} (h : d ∈ c.nodes) : d.nodes.Sublist c.nodes := by
  -- by induction on what is attached: the control is this one, or it is below one that is attached
  induction c using attached_induction with
  | step c ih =>
    rw [nodes_eq] at h
    rcases List.mem_cons.mp h with rfl | h
    · exact .refl _
    · obtain ⟨e, he, hd⟩ := List.mem_flatMap.mp h
      rw [nodes_eq c]
      have hpart : e.nodes.Sublist (c.attached.flatMap nodes) := by
        rw [List.flatMap_def]
        exact List.sublist_flatten_of_mem (List.mem_map_of_mem he)
      exact ((ih e he hd).trans hpart).cons _

/-- The indices of a control and of all controls below it. -/
def indices (c : Control) : List Nat := c.nodes.map index

theorem indices_eq (c : Control) : c.indices = c.index :: c.attached.flatMap indices := by
  rw [indices, nodes_eq, List.map_cons, List.map_flatMap]
  rfl

/-- The facets of a control, and those of all controls below it, are in the order of their names. -/
def NamesOrdered (c : Control) : Prop := ∀ d ∈ c.nodes, NameMap.Ordered d.facets

theorem namesOrdered_iff {c : Control} :
    c.NamesOrdered ↔ NameMap.Ordered c.facets ∧ ∀ d ∈ c.attached, d.NamesOrdered := by
  unfold NamesOrdered
  rw [nodes_eq]
  simp only [List.forall_mem_cons, List.mem_flatMap]
  exact and_congr_right fun _ => ⟨fun h d hd e he => h e ⟨d, hd, he⟩, fun h e ⟨d, hd, he⟩ => h d hd e he⟩

/-! ## §3 Changing one control -/

section Modify

variable {k n : Nat} {f : Control → Control}

theorem modifyAll_eq_map (cs : List Control) : modifyAll k f cs = cs.map (modify k f) := by
  induction cs with
  | nil => rfl
  | cons c rest ih => rw [modifyAll, List.map_cons, ih]

theorem modifyFacets_eq_map (fs : List (String × Control)) :
    modifyFacets k f fs = fs.map fun e => (e.1, e.2.modify k f) := by
  induction fs with
  | nil => rfl
  | cons e rest ih => rw [modifyFacets, List.map_cons, ih]

theorem modify_of_index_eq {c : Control} (h : c.index = k) : c.modify k f = f c := by
  obtain ⟨i, t, cs, fs⟩ := c
  exact if_pos h

/-- A control of another index stays as it is, and what is attached to it is changed. -/
theorem modify_eq {c : Control} (h : c.index ≠ k) :
    c.modify k f =
      .node c.index c.template (c.children.map (modify k f)) (c.facets.map fun e => (e.1, e.2.modify k f)) := by
  obtain ⟨i, t, cs, fs⟩ := c
  have hi : i ≠ k := h
  rw [modify, if_neg hi, modifyAll_eq_map, modifyFacets_eq_map]
  rfl

theorem attached_modify {c : Control} (h : c.index ≠ k) :
    (c.modify k f).attached = c.attached.map (modify k f) := by
  rw [modify_eq h]
  simp [attached, children, facets]

theorem modify_of_notMem {c : Control} (h : k ∉ c.indices) : c.modify k f = c := by
  induction c using attached_induction with
  | step c ih =>
    rw [indices_eq, List.mem_cons, not_or] at h
    obtain ⟨hindex, hbelow⟩ := h
    -- what is attached does not have the index in it either
    have same : ∀ d ∈ c.attached, d.modify k f = d := fun d hd =>
      ih d hd fun hk => hbelow (List.mem_flatMap.mpr ⟨d, hd, hk⟩)
    rw [modify_eq (Ne.symm hindex)]
    obtain ⟨i, t, cs, fs⟩ := c
    have hchildren : cs.map (modify k f) = cs :=
      (List.map_congr_left fun d hd => same d (List.mem_append_left _ hd)).trans (List.map_id cs)
    have hfacets : (fs.map fun e => (e.1, e.2.modify k f)) = fs := by
      refine (List.map_congr_left fun e he => ?_).trans (List.map_id fs)
      rw [same e.2 (List.mem_append_right _ (List.mem_map_of_mem he))]
      rfl
    simp only [children, facets, index, template, hchildren, hfacets]

theorem indices_modify (hf : ∀ d, (f d).indices = d.indices) (c : Control) : (c.modify k f).indices = c.indices := by
  induction c using attached_induction with
  | step c ih =>
    -- the control itself is changed, and nothing below it, or the other way round
    by_cases h : c.index = k
    · rw [modify_of_index_eq h, hf]
    · rw [indices_eq, attached_modify h, indices_eq c, List.flatMap_map, List.flatMap_congr ih, modify_eq h]
      rfl

/-- If one of several controls has the index in it, and gets one more control there, that is one more control of all. -/
theorem flatMap_indices_modify_perm {ds : List Control} (hnodup : (ds.flatMap indices).Nodup)
    (hk : k ∈ ds.flatMap indices)
    (each : ∀ d ∈ ds, d.indices.Nodup → k ∈ d.indices → (d.modify k f).indices.Perm (n :: d.indices)) :
    ((ds.map (modify k f)).flatMap indices).Perm (n :: ds.flatMap indices) := by
  induction ds with
  | nil => cases hk
  | cons d rest ih =>
    rw [List.flatMap_cons] at hnodup hk
    obtain ⟨hd, hrest, hdisjoint⟩ := List.nodup_append'.mp hnodup
    rw [List.map_cons, List.flatMap_cons, List.flatMap_cons]
    -- exactly one of the controls has the index in it, and the others stay as they are
    rcases List.mem_append.mp hk with hk | hk
    · have hothers : rest.map (modify k f) = rest := by
        refine (List.map_congr_left fun e he => ?_).trans (List.map_id rest)
        exact modify_of_notMem fun hke => hdisjoint hk (List.mem_flatMap.mpr ⟨e, he, hke⟩)
      rw [hothers]
      exact (each d List.mem_cons_self hd hk).append_right _
    · rw [modify_of_notMem fun hkd => hdisjoint hkd hk]
      have hmore := ih hrest hk fun e he => each e (List.mem_cons_of_mem _ he)
      exact (hmore.append_left _).trans List.perm_middle

/-- One more control below the one of an index is one more control. -/
theorem indices_modify_perm {c : Control} (hnodup : c.indices.Nodup) (hk : k ∈ c.indices)
    (hf : ∀ d ∈ c.nodes, d.index = k → (f d).indices.Perm (n :: d.indices)) :
    (c.modify k f).indices.Perm (n :: c.indices) := by
  -- by induction on what is attached; where the index is below, it is below exactly one of them
  induction c using attached_induction with
  | step c ih =>
    by_cases h : c.index = k
    · rw [modify_of_index_eq h]
      exact hf c c.self_mem_nodes h
    · rw [indices_eq c] at hnodup hk ⊢
      rw [nodes_eq] at hf
      have hbelow : k ∈ c.attached.flatMap indices := (List.mem_cons.mp hk).resolve_left (Ne.symm h)
      have hattached := flatMap_indices_modify_perm (List.nodup_cons.mp hnodup).2 hbelow fun d hd hdn hkd =>
        ih d hd hdn hkd fun e he => hf e (List.mem_cons_of_mem _ (List.mem_flatMap.mpr ⟨d, hd, he⟩))
      rw [indices_eq, attached_modify h, modify_eq h]
      exact (hattached.cons _).trans (.swap _ _ _)

theorem NamesOrdered.modify {c : Control} (h : c.NamesOrdered)
    (hf : ∀ d : Control, d.NamesOrdered → (f d).NamesOrdered) : (c.modify k f).NamesOrdered := by
  induction c using attached_induction with
  | step c ih =>
    -- below the control that is changed nothing is looked at
    by_cases hindex : c.index = k
    · rw [modify_of_index_eq hindex]
      exact hf c h
    · obtain ⟨hfacets, hbelow⟩ := namesOrdered_iff.mp h
      rw [namesOrdered_iff, attached_modify hindex]
      constructor
      · rw [modify_eq hindex]
        simpa [NameMap.Ordered, facets, Function.comp_def] using hfacets
      · intro d hd
        obtain ⟨e, he, rfl⟩ := List.mem_map.mp hd
        exact ih e he (hbelow e he)

end Modify

end Control

/-! ## §4 Numbered trees -/

/-- Every index below the size of the tree belongs to one control, and the facets of each control are in the order of
their names. -/
structure Tree.Numbered (t : Tree) : Prop where
  /-- The indices are those below the size, each once. -/
  indices : t.root.indices.Perm (List.range t.size)
  /-- The facets are in the order of their names. -/
  names : t.root.NamesOrdered

/-- A control is found under the index of any node of the tree. -/
theorem Tree.exists_locate? {t : Tree} {index : Nat} (h : index ∈ t.root.indices) :
    ∃ parent c, t.locate? index = some (parent, c) ∧ (parent, c) ∈ t.root.preorder none ∧ c.index = index := by
  obtain ⟨c, hc, rfl⟩ := List.mem_map.mp h
  obtain ⟨entry, hentry, rfl⟩ := List.mem_map.mp hc
  -- the search finds the first node of the index, which may be looked for by any node
  have hfound : (t.locate? entry.2.index).isSome := List.find?_isSome.mpr ⟨entry, hentry, beq_self_eq_true _⟩
  obtain ⟨⟨parent, d⟩, hd⟩ := Option.isSome_iff_exists.mp hfound
  exact ⟨parent, d, hd, List.mem_of_find?_eq_some hd, by simpa using List.find?_some hd⟩

end PageTemplates
