import PageTemplates.Proofs.Markup.Mirror

/-!
# Trees that can come about

A tree begins as a root alone or is compiled from a document. It grows by children and facets, and the template of a
control may be replaced. Whatever is done to it in this way, it stays `Numbered` (`Reached.numbered`).
-/

namespace PageTemplates

open Program (Event Runs)

/-! ## §1 Operations -/

/-- A tree can come about. -/
inductive Tree.Reached : Tree → Prop where
  | ofRoot (object : Template) : Reached (.ofRoot object)
  | compiled {s : Markup.Setting} {root : Markup.Element} {events : List (Event CompileRequest.Answer)} {t : Tree}
      (h : Runs (Markup.compileDocument s root) events (.ok t)) : Reached t
  | addChild {t t' : Tree} {parent index : Nat} {object : Template} (h : t.Reached)
      (hadd : t.addChild parent object = .ok (index, t')) : Reached t'
  | addFacet {t t' : Tree} {parent index : Nat} {name : String} {object : Template} (h : t.Reached)
      (hadd : t.addFacet parent name object = .ok (index, t')) : Reached t'
  | setTemplate {t : Tree} (h : t.Reached) (index : Nat) (object : Template) : Reached (t.setTemplate index object)

/-! ## §2 One operation -/

namespace Control

/-- A leaf holds its own index alone. -/
theorem indices_leaf (index : Nat) (object : Template) : (leaf index object).indices = [index] := indices_eq _

/-- A leaf has no facets whose names could be out of order. -/
theorem namesOrdered_leaf (index : Nat) (object : Template) : (leaf index object).NamesOrdered :=
  namesOrdered_iff.mpr ⟨.nil, nofun⟩

/-- A child brings its indices to those that are there. -/
theorem indices_withChild (child d : Control) :
    (Control.withChild child d).indices.Perm (child.indices ++ d.indices) := by
  obtain ⟨i, t, cs, fs⟩ := d
  rw [withChild, indices_eq, indices_eq (node i t cs fs)]
  simp only [attached, children, facets, index, List.flatMap_append, List.flatMap_singleton, List.append_assoc]
  -- the new child comes after the index and the other children
  exact ((List.perm_append_comm_assoc _ _ _).cons i).trans List.perm_middle.symm

/-- A facet brings its indices to those that are there, if its name was free. -/
theorem indices_withFacet {name : String} {d : Control} (facet : Control) (h : d.facet? name = none) :
    (Control.withFacet name facet d).indices.Perm (facet.indices ++ d.indices) := by
  obtain ⟨i, t, cs, fs⟩ := d
  -- facets are kept by name, so the new one may stand anywhere among them
  have hplace := ((NameMap.place_perm facet h).map Prod.snd).flatMap_right indices
  rw [List.map_cons, List.flatMap_cons] at hplace
  rw [withFacet, indices_eq, indices_eq (node i t cs fs)]
  simp only [attached, children, facets, index, List.flatMap_append]
  exact (((hplace.append_left _).trans (List.perm_append_comm_assoc _ _ _)).cons i).trans List.perm_middle.symm

/-- Replacing the template of a control moves no index. -/
theorem indices_withTemplate (object : Template) (d : Control) : (d.withTemplate object).indices = d.indices := by
  obtain ⟨i, t, cs, fs⟩ := d
  rw [withTemplate, indices_eq, indices_eq (node i t cs fs)]
  rfl

/-- A child does not touch the facets, and brings its own in order. -/
theorem NamesOrdered.withChild {d child : Control} (h : d.NamesOrdered) (hchild : child.NamesOrdered) :
    (Control.withChild child d).NamesOrdered := by
  obtain ⟨i, t, cs, fs⟩ := d
  obtain ⟨hfacets, hattached⟩ := namesOrdered_iff.mp h
  refine namesOrdered_iff.mpr ⟨hfacets, fun e he => ?_⟩
  rcases List.mem_append.mp he with he | he
  · rcases List.mem_append.mp (show e ∈ cs ++ [child] from he) with he | he
    · exact hattached e (List.mem_append_left _ he)
    · exact List.mem_singleton.mp he ▸ hchild
  · exact hattached e (List.mem_append_right _ he)

/-- A facet is put at the place of its name. -/
theorem NamesOrdered.withFacet {d facet : Control} {name : String} (h : d.NamesOrdered) (hfacet : facet.NamesOrdered) :
    (Control.withFacet name facet d).NamesOrdered := by
  obtain ⟨i, t, cs, fs⟩ := d
  obtain ⟨hfacets, hattached⟩ := namesOrdered_iff.mp h
  refine namesOrdered_iff.mpr ⟨hfacets.place name facet, fun e he => ?_⟩
  rcases List.mem_append.mp he with he | he
  · exact hattached e (List.mem_append_left _ he)
  · obtain ⟨f, hf, rfl⟩ := List.mem_map.mp he
    rcases NameMap.mem_place hf with rfl | hf
    · exact hfacet
    · exact hattached f.2 (List.mem_append_right _ (List.mem_map_of_mem hf))

/-- The template says nothing about the names of facets. -/
theorem NamesOrdered.withTemplate {d : Control} (h : d.NamesOrdered) (object : Template) :
    (d.withTemplate object).NamesOrdered := by
  obtain ⟨i, t, cs, fs⟩ := d
  obtain ⟨hfacets, hattached⟩ := namesOrdered_iff.mp h
  exact namesOrdered_iff.mpr ⟨hfacets, hattached⟩

end Control

namespace Tree

variable {t : Tree}

/-- What is found by an index is a control of the tree, and has that index. -/
theorem mem_nodes_of_get? {index : Nat} {c : Control} (h : t.get? index = some c) :
    c ∈ t.root.nodes ∧ c.index = index := by
  obtain ⟨⟨parent, d⟩, hd, rfl⟩ := Option.map_eq_some_iff.mp h
  exact ⟨List.mem_map_of_mem (List.mem_of_find?_eq_some hd), by simpa using List.find?_some hd⟩

/-- A control that is found is the only one of its index. -/
theorem Numbered.eq_of_index {c d : Control} (h : t.Numbered) (hc : c ∈ t.root.nodes) (hd : d ∈ t.root.nodes)
    (heq : c.index = d.index) : c = d :=
  List.inj_on_of_nodup_map (h.indices.nodup_iff.mpr List.nodup_range) hc hd heq

/-- A tree that has one control more, with the next index, stays numbered. -/
theorem Numbered.grow {parent : Nat} {c : Control} {f : Control → Control} (h : t.Numbered)
    (hfound : t.get? parent = some c) (hf : (f c).indices.Perm (t.size :: c.indices))
    (hnames : ∀ d : Control, d.NamesOrdered → (f d).NamesOrdered) :
    Numbered ⟨t.root.modify parent f, t.size + 1⟩ := by
  obtain ⟨hc, rfl⟩ := mem_nodes_of_get? hfound
  constructor
  · -- no index occurs twice, so it is the found control that grows, and no other
    have hnodup : t.root.indices.Nodup := h.indices.nodup_iff.mpr List.nodup_range
    have hmore : (t.root.modify c.index f).indices.Perm (t.size :: t.root.indices) := by
      refine Control.indices_modify_perm hnodup (List.mem_map_of_mem hc) fun d hd hindex => ?_
      rwa [h.eq_of_index hd hc hindex]
    rw [List.range_succ]
    exact hmore.trans ((h.indices.cons _).trans (List.perm_append_singleton _ _).symm)
  · exact h.names.modify hnames

/-! ## §3 All operations -/

/-- A tree that can come about is numbered. -/
theorem Reached.numbered (h : t.Reached) : t.Numbered := by
  -- a root has index 0, a document is numbered as it is read, and each control that is added gets the next index
  induction h with
  | ofRoot object => exact ⟨.of_eq (Control.indices_leaf 0 object), Control.namesOrdered_leaf 0 object⟩
  | compiled h =>
    -- a compiled tree mirrors its document, which says how its controls are numbered
    have hmirrors := Markup.mirrors_of_runs h
    refine ⟨hmirrors.size ▸ hmirrors.indices, fun c hc => ?_⟩
    obtain ⟨⟨parent, c⟩, hmem, rfl⟩ := List.mem_map.mp hc
    obtain ⟨w, e, hnode⟩ := hmirrors.nodes parent c hmem
    exact hnode.names
  | @addChild t t' parent index object _ hadd ih =>
    unfold Tree.addChild at hadd
    split at hadd
    · cases hadd
    · rename_i c hfound
      cases hadd
      refine ih.grow hfound ?_ fun d hd => hd.withChild (Control.namesOrdered_leaf _ _)
      have hindices := Control.indices_withChild (.leaf t.size object) c
      rwa [Control.indices_leaf] at hindices
  | @addFacet t t' parent index name object _ hadd ih =>
    unfold Tree.addFacet at hadd
    split at hadd
    · cases hadd
    · rename_i c hfound
      split at hadd
      · cases hadd
      · -- the name is free, as otherwise the operation fails
        rename_i hfree
        cases hadd
        refine ih.grow hfound ?_ fun d hd => hd.withFacet (Control.namesOrdered_leaf _ _)
        have hindices := Control.indices_withFacet (.leaf t.size object) hfree
        rwa [Control.indices_leaf] at hindices
  | setTemplate _ index object ih =>
    refine ⟨?_, ih.names.modify fun d hd => hd.withTemplate object⟩
    rw [Tree.setTemplate, Control.indices_modify (Control.indices_withTemplate object)]
    exact ih.indices

end Tree

end PageTemplates
