import PageTemplates.Proofs.Json.RoundTrip
import PageTemplates.Proofs.Tree.Reached
import PageTemplates.Tree.SnapshotJson

/-!
# Snapshots are read back

The snapshot of a tree is read back from its text as it is (`snapshot_read_back`). What is left out of the text when it
is empty is what reading supplies when it is missing. The facets of a control are in the order of their names, so that
putting them into a map one after the other gives the same list again.

A reader refuses values that are nested too deep. What it makes of a value is therefore said with the nesting of the
value (`Json.nesting`): it is what was written if the nesting is below the greatest depth, and nothing otherwise.
-/

namespace PageTemplates

/-! ## §1 Nesting -/

namespace Json

mutual

/-- How deep arrays and objects stand in one another. -/
def nesting : Json → Nat
  | .null | .bool _ | .number | .text _ => 0
  | .array items => nestingItems items + 1
  | .object members => nestingMembers members + 1

/-- The nesting of the deepest item. -/
def nestingItems : List Json → Nat
  | [] => 0
  | v :: rest => max v.nesting (nestingItems rest)

/-- The nesting of the deepest member. -/
def nestingMembers : List (Option String × Json) → Nat
  | [] => 0
  | (_, v) :: rest => max v.nesting (nestingMembers rest)

end

theorem nestingMembers_append (ms more : List (Option String × Json)) :
    nestingMembers (ms ++ more) = max (nestingMembers ms) (nestingMembers more) := by
  induction ms with
  | nil => simp [nestingMembers]
  | cons m rest ih => simp only [List.cons_append, nestingMembers, ih, Nat.max_assoc]

theorem deeper_eq (depth : Nat) : deeper (depth + 1) = if 0 < depth then some depth else none := by
  unfold deeper
  by_cases h : 0 < depth
  · rw [if_neg (by omega), if_pos h]
    rfl
  · rw [if_pos (by omega), if_neg h]

end Json

/-- What is read at a depth, if it is not nested too deep. -/
def Json.within {α : Type} (nesting depth : Nat) (a : α) : Option α := if nesting < depth then some a else none

section Within

variable {α β : Type}

theorem Json.within_bind {m n depth : Nat} {a : α} {b : β} {g : α → Option β} (h : g a = within n depth b) :
    (within m depth a).bind g = within (max m n) depth b := by
  unfold within at *
  by_cases hm : m < depth <;> by_cases hn : n < depth <;> simp [hm, hn, h]

/-- Items are read one by one. -/
theorem Json.mapM_within {read : Json → Option α} {write : α → Json} {depth : Nat} (hdepth : 0 < depth)
    {as : List α} (h : ∀ a ∈ as, read (write a) = within (write a).nesting depth a) :
    (as.map write).mapM read = within (nestingItems (as.map write)) depth as := by
  induction as with
  | nil => simp [within, nestingItems, hdepth]
  | cons a rest ih =>
    obtain ⟨ha, hrest⟩ := List.forall_mem_cons.mp h
    rw [List.map_cons, List.mapM_cons, ha, ih hrest, nestingItems]
    refine within_bind ?_
    unfold within
    split <;> rfl

end Within

/-- An entry whose name is greater than all others comes last. -/
theorem NameMap.place_last {α : Type} {name : String} {entries : List (String × α)} (a : α)
    (h : ∀ n ∈ entries.map Prod.fst, n < name) : place name a entries = entries ++ [(name, a)] := by
  induction entries with
  | nil => rfl
  | cons e rest ih =>
    obtain ⟨n, b⟩ := e
    obtain ⟨hn, hrest⟩ := List.forall_mem_cons.mp h
    have hne : n ≠ name := ne_of_lt hn
    have hnot : ¬ name < n := not_lt_of_gt hn
    rw [place, if_neg hne, if_neg hnot, ih hrest, List.cons_append]

/-! ## §2 Setters -/

namespace SetterSummary

theorem whole_toJson (s : SetterSummary) : s.toJson.Whole :=
  .object (by simp [Json.member]) (by
    simp only [List.mem_cons, List.not_mem_nil, or_false]
    rintro m (rfl | rfl | rfl) <;> exact .text _)

theorem ofJson?_toJson (s : SetterSummary) (depth : Nat) :
    ofJson? depth s.toJson = Json.within s.toJson.nesting depth s := by
  have hnesting : s.toJson.nesting = 1 := rfl
  unfold ofJson? Json.deeper Json.within
  rw [hnesting]
  by_cases h : depth ≤ 1
  · rw [if_pos h, if_neg (by omega)]
    rfl
  · rw [if_neg h, if_pos (by omega)]
    simp [toJson, readMembers, Json.member, Json.once, Json.string?, Json.ofString]

theorem listOfJson?_toJson (ss : List SetterSummary) (depth : Nat) :
    listOfJson? depth (.array (ss.map toJson)) = Json.within (Json.array (ss.map toJson)).nesting depth ss := by
  cases depth with
  | zero => rfl
  | succ depth =>
    rw [listOfJson?, Json.deeper_eq, Json.nesting]
    by_cases h : 0 < depth
    · rw [if_pos h, Option.bind_eq_bind, Option.bind_some]
      dsimp only
      rw [Json.mapM_within h fun s _ => ofJson?_toJson s depth]
      simp [Json.within]
    · rw [if_neg h, Json.within, if_neg (by omega)]
      rfl

end SetterSummary

/-! ## §3 Snapshots -/

namespace Snapshot

theorem childrenJson_eq_map (ss : List Snapshot) : childrenJson ss = ss.map toJson := by
  induction ss with
  | nil => rfl
  | cons s rest ih => rw [childrenJson, ih, List.map_cons]

theorem facetsJson_eq_map (fs : List (String × Snapshot)) :
    facetsJson fs = fs.map fun f => Json.member f.1 f.2.toJson := by
  induction fs with
  | nil => rfl
  | cons f rest ih => rw [facetsJson, ih, List.map_cons]

theorem childItems_eq_mapM (depth : Nat) (vs : List Json) : childItems depth vs = vs.mapM (ofJson? depth) := by
  induction vs with
  | nil => rfl
  | cons v rest ih =>
    rw [childItems, ih, List.mapM_cons]
    rfl

/-- A snapshot is read back, unless it is nested too deep. -/
def ReadsBack (s : Snapshot) : Prop := ∀ depth, ofJson? depth s.toJson = Json.within s.toJson.nesting depth s

section Parts

variable {depth : Nat} {children : List Snapshot} {facets : List (String × Snapshot)}

theorem childrenOfJson?_eq (h : ∀ s ∈ children, s.ReadsBack) (depth : Nat) :
    childrenOfJson? depth (.array (childrenJson children)) =
      Json.within (Json.array (childrenJson children)).nesting depth children := by
  rw [childrenJson_eq_map]
  cases depth with
  | zero => rfl
  | succ depth =>
    rw [childrenOfJson?, Json.deeper_eq, Json.nesting]
    by_cases hdepth : 0 < depth
    · rw [if_pos hdepth]
      dsimp only
      rw [childItems_eq_mapM, Json.mapM_within hdepth fun s hs => h s hs depth]
      simp [Json.within]
    · rw [if_neg hdepth, Json.within, if_neg (by omega)]

/-- Facets that come in the order of their names are put one after the other. -/
theorem facetMembers_eq (hdepth : 0 < depth) (h : ∀ f ∈ facets, f.2.ReadsBack) (read : NameMap Snapshot)
    (hordered : NameMap.Ordered (read.entries ++ facets)) : facetMembers depth read (facetsJson facets) =
      Json.within (Json.nestingMembers (facetsJson facets)) depth ⟨read.entries ++ facets⟩ := by
  -- by induction on the facets, whatever has been read before; each comes after all of these
  induction facets generalizing read with
  | nil => simp [facetsJson, facetMembers, Json.within, Json.nestingMembers, hdepth]
  | cons f rest ih =>
    obtain ⟨name, s⟩ := f
    obtain ⟨hs, hrest⟩ := List.forall_mem_cons.mp h
    -- the name is greater than those that have been read
    have hplace : (read.insert name s).entries = read.entries ++ [(name, s)] := by
      refine NameMap.place_last s fun n hn => ?_
      rw [NameMap.Ordered, List.map_append, List.pairwise_append] at hordered
      exact hordered.2.2 n hn name List.mem_cons_self
    have hstep := ih hrest (read.insert name s) (by rw [hplace, List.append_assoc]; exact hordered)
    rw [hplace, List.append_assoc] at hstep
    rw [facetsJson, Json.member, facetMembers, hs depth, Json.nestingMembers]
    exact Json.within_bind hstep

theorem facetsOfJson?_eq (h : ∀ f ∈ facets, f.2.ReadsBack) (hordered : NameMap.Ordered facets) (depth : Nat) :
    facetsOfJson? depth (.object (facetsJson facets)) =
      Json.within (Json.object (facetsJson facets)).nesting depth ⟨facets⟩ := by
  cases depth with
  | zero => rfl
  | succ depth =>
    rw [facetsOfJson?, Json.deeper_eq, Json.nesting]
    -- a reader that may not go any deeper reads nothing
    by_cases hdepth : 0 < depth
    · rw [if_pos hdepth]
      dsimp only
      rw [facetMembers_eq hdepth h .empty hordered]
      simp [Json.within, NameMap.empty]
    · rw [if_neg hdepth, Json.within, if_neg (by omega)]

/-! ### The fields of a snapshot -/

variable {f : Fields} {rest : List (Option String × Json)}

theorem readMembers_required (ns tag : String) (setters : List SetterSummary) :
    readMembers depth .none (Json.member "namespace_uri" (.ofString ns) :: Json.member "tag" (.ofString tag) ::
      Json.member "setters" (.array (setters.map SetterSummary.toJson)) :: rest) =
        (Json.within (Json.array (setters.map SetterSummary.toJson)).nesting depth ()).bind fun _ =>
          readMembers depth ⟨some ns, some tag, some setters, none, none, none⟩ rest := by
  rw [Json.member, Json.member, Json.member, readMembers, if_pos rfl]
  show readMembers depth { Fields.none with namespaceUri := some ns } _ = _
  rw [readMembers, if_neg (by decide), if_pos rfl]
  show readMembers depth { Fields.none with namespaceUri := some ns, tag := some tag } _ = _
  rw [readMembers, if_neg (by decide), if_neg (by decide), if_pos rfl, SetterSummary.listOfJson?_toJson]
  unfold Json.within
  split <;> rfl

theorem readMembers_loaded (hf : f.loaded = none) (loaded : Option String) :
    readMembers depth f ((loaded.map fun text => Json.member "loaded" (.ofString text)).toList ++ rest) =
      readMembers depth { f with loaded := loaded.map some } rest := by
  cases loaded with
  | none =>
    cases f
    cases hf
    rfl
  | some text =>
    rw [Option.map_some, Option.toList_some, List.singleton_append, Json.member, readMembers, if_neg (by decide),
      if_neg (by decide), if_neg (by decide), if_pos rfl, hf]
    rfl

theorem readMembers_children (hdepth : 0 < depth) (hf : f.children = none) (h : ∀ s ∈ children, s.ReadsBack) :
    readMembers depth f (omitIf children.isEmpty "children" (.array (childrenJson children)) ++ rest) =
      (Json.within (Json.nestingMembers (omitIf children.isEmpty "children" (.array (childrenJson children)))) depth
        ()).bind fun _ =>
          readMembers depth { f with children := if children.isEmpty then none else some children } rest := by
  cases children with
  | nil =>
    cases f
    cases hf
    simp [omitIf, Json.within, Json.nestingMembers, hdepth]
  | cons s more =>
    rw [omitIf, List.isEmpty_cons, if_neg (by decide), if_neg (by decide), List.singleton_append, Json.member,
      readMembers, if_neg (by decide), if_neg (by decide), if_neg (by decide), if_neg (by decide), if_pos rfl, hf,
      childrenOfJson?_eq h]
    simp only [Json.within, Json.nestingMembers, Nat.max_zero]
    split <;> rfl

theorem readMembers_facets (hdepth : 0 < depth) (hf : f.facets = none) (h : ∀ e ∈ facets, e.2.ReadsBack)
    (hordered : NameMap.Ordered facets) :
    readMembers depth f (omitIf facets.isEmpty "facets" (.object (facetsJson facets))) =
      Json.within (Json.nestingMembers (omitIf facets.isEmpty "facets" (.object (facetsJson facets)))) depth
        { f with facets := if facets.isEmpty then none else some ⟨facets⟩ } := by
  cases facets with
  | nil =>
    cases f
    cases hf
    simp [omitIf, Json.within, Json.nestingMembers, hdepth, readMembers]
  | cons e more =>
    rw [omitIf, List.isEmpty_cons, if_neg (by decide), if_neg (by decide), Json.member, readMembers,
      if_neg (by decide), if_neg (by decide), if_neg (by decide), if_neg (by decide), if_neg (by decide), if_pos rfl,
      hf, facetsOfJson?_eq h hordered]
    simp only [Json.within, Json.nestingMembers, Nat.max_zero]
    split <;> rfl

/-- The nesting of the deepest field of a snapshot. -/
def fieldNesting (setters : List SetterSummary) (children : List Snapshot) (facets : List (String × Snapshot)) : Nat :=
  max (Json.array (setters.map SetterSummary.toJson)).nesting
    (max (Json.nestingMembers (omitIf children.isEmpty "children" (.array (childrenJson children))))
      (Json.nestingMembers (omitIf facets.isEmpty "facets" (.object (facetsJson facets)))))

theorem nesting_toJson (ns tag : String) (setters : List SetterSummary) (loaded : Option String)
    (children : List Snapshot) (facets : List (String × Snapshot)) :
    (toJson ⟨ns, tag, setters, loaded, children, facets⟩).nesting = fieldNesting setters children facets + 1 := by
  have hloaded : Json.nestingMembers (loaded.map fun text => Json.member "loaded" (.ofString text)).toList = 0 := by
    cases loaded <;> rfl
  simp only [toJson, Json.nesting, Json.nestingMembers_append, hloaded, Nat.zero_max, fieldNesting]
  simp [Json.nestingMembers, Json.member, Json.ofString, Json.nesting]

/-- What is read of a snapshot makes the snapshot: what is empty has been left out, and is supplied again. -/
theorem ofJson?_toJson (hdepth : 0 < depth) (ns tag : String) (setters : List SetterSummary) (loaded : Option String)
    (hchildren : ∀ s ∈ children, s.ReadsBack) (hfacets : ∀ f ∈ facets, f.2.ReadsBack)
    (hordered : NameMap.Ordered facets) :
    ofJson? (depth + 1) (toJson ⟨ns, tag, setters, loaded, children, facets⟩) =
      Json.within (fieldNesting setters children facets) depth ⟨ns, tag, setters, loaded, children, facets⟩ := by
  rw [toJson, ofJson?, Json.deeper_eq, if_pos hdepth]
  simp only [List.cons_append, List.nil_append]
  -- field after field, each of which may be nested too deep
  rw [readMembers_required, Option.bind_assoc]
  refine Json.within_bind ?_
  rw [readMembers_loaded rfl, readMembers_children hdepth rfl hchildren, Option.bind_assoc]
  refine Json.within_bind ?_
  rw [readMembers_facets hdepth rfl hfacets hordered]
  unfold Json.within
  split
  · cases loaded <;> cases children <;> cases facets <;> rfl
  · rfl

end Parts

theorem readsBack_of_parts {s : Snapshot} (hchildren : ∀ c ∈ s.children, c.ReadsBack)
    (hfacets : ∀ f ∈ s.facets, f.2.ReadsBack) (hordered : NameMap.Ordered s.facets) : s.ReadsBack := by
  obtain ⟨ns, tag, setters, loaded, children, facets⟩ := s
  intro depth
  rw [nesting_toJson]
  cases depth with
  | zero => rfl
  | succ depth =>
    -- the depth runs out at the snapshot itself, or somewhere in its fields
    by_cases hdepth : 0 < depth
    · rw [ofJson?_toJson hdepth ns tag setters loaded hchildren hfacets hordered]
      simp [Json.within]
    · rw [toJson, ofJson?, Json.deeper_eq, if_neg hdepth, Json.within, if_neg (by omega)]

theorem whole_of_parts {s : Snapshot} (hchildren : ∀ c ∈ s.children, c.toJson.Whole)
    (hfacets : ∀ f ∈ s.facets, f.2.toJson.Whole) : s.toJson.Whole := by
  obtain ⟨ns, tag, setters, loaded, children, facets⟩ := s
  -- a member is there with its value, or is left out
  have optional : ∀ (empty : Bool) (name : String) {v : Json}, v.Whole →
      ∀ m ∈ omitIf empty name v, m.1.isSome ∧ m.2.Whole := by
    intro empty name v hv m hm
    unfold omitIf at hm
    split at hm
    · cases hm
    · obtain rfl := List.mem_singleton.mp hm
      exact ⟨rfl, hv⟩
  have hsetters : (Json.array (setters.map SetterSummary.toJson)).Whole :=
    .array (List.forall_mem_map.mpr fun s _ => s.whole_toJson)
  have hloaded : ∀ m ∈ (loaded.map fun text => Json.member "loaded" (.ofString text)).toList,
      m.1.isSome ∧ m.2.Whole := by
    cases loaded with
    | none => exact List.forall_mem_nil _
    | some text => exact List.forall_mem_singleton.mpr ⟨rfl, .text text⟩
  have hchildrenJson : (Json.array (childrenJson children)).Whole := by
    rw [childrenJson_eq_map]
    exact .array (List.forall_mem_map.mpr hchildren)
  have hfacetsJson : (Json.object (facetsJson facets)).Whole := by
    rw [facetsJson_eq_map]
    exact .object (List.forall_mem_map.mpr fun _ _ => rfl) (List.forall_mem_map.mpr hfacets)
  have hrequired : ∀ m ∈ [Json.member "namespace_uri" (.ofString ns), Json.member "tag" (.ofString tag),
      Json.member "setters" (.array (setters.map SetterSummary.toJson))], m.1.isSome ∧ m.2.Whole := by
    intro m hm
    simp only [List.mem_cons, List.not_mem_nil, or_false] at hm
    rcases hm with rfl | rfl | rfl
    · exact ⟨rfl, .text ns⟩
    · exact ⟨rfl, .text tag⟩
    · exact ⟨rfl, hsetters⟩
  -- the other members may be left out
  have hattached := List.forall_mem_append.mpr
    ⟨optional children.isEmpty "children" hchildrenJson, optional facets.isEmpty "facets" hfacetsJson⟩
  have hoptional := List.forall_mem_append.mpr ⟨hloaded, hattached⟩
  have hmembers := List.forall_mem_append.mpr ⟨hrequired, hoptional⟩
  rw [toJson]
  exact .object (fun m hm => (hmembers m hm).1) fun m hm => (hmembers m hm).2

end Snapshot

/-! ## §4 Trees -/

namespace Control

theorem snapshotAll_eq_map (cs : List Control) : snapshotAll cs = cs.map snapshot := by
  induction cs with
  | nil => rfl
  | cons c rest ih => rw [snapshotAll, ih, List.map_cons]

theorem snapshotFacets_eq_map (fs : List (String × Control)) :
    snapshotFacets fs = fs.map fun f => (f.1, f.2.snapshot) := by
  induction fs with
  | nil => rfl
  | cons f rest ih => rw [snapshotFacets, ih, List.map_cons]

/-- What is said of a snapshot by its parts is said of that of a control by what is attached to it. -/
theorem forall_parts_snapshot {P : Snapshot → Prop} {c : Control} (h : ∀ d ∈ c.attached, P d.snapshot) :
    (∀ s ∈ c.snapshot.children, P s) ∧ ∀ f ∈ c.snapshot.facets, P f.2 := by
  obtain ⟨i, t, cs, fs⟩ := c
  obtain ⟨hchildren, hfacets⟩ := List.forall_mem_append.mp h
  rw [snapshot, snapshotAll_eq_map, snapshotFacets_eq_map]
  exact ⟨List.forall_mem_map.mpr hchildren, List.forall_mem_map.mpr fun f hf => hfacets _ (List.mem_map_of_mem hf)⟩

theorem ordered_facets_snapshot {c : Control} (h : NameMap.Ordered c.facets) : NameMap.Ordered c.snapshot.facets := by
  obtain ⟨i, t, cs, fs⟩ := c
  rw [snapshot, snapshotFacets_eq_map, NameMap.Ordered, List.map_map]
  exact h

theorem whole_snapshot (c : Control) : c.snapshot.toJson.Whole := by
  -- by induction on what is attached, like the reading of snapshots below
  induction c using attached_induction with
  | step c ih =>
    obtain ⟨hchildren, hfacets⟩ := forall_parts_snapshot (P := fun s => s.toJson.Whole) ih
    exact Snapshot.whole_of_parts hchildren hfacets

theorem readsBack_snapshot {c : Control} (h : c.NamesOrdered) : c.snapshot.ReadsBack := by
  induction c using attached_induction with
  | step c ih =>
    obtain ⟨hordered, hattached⟩ := namesOrdered_iff.mp h
    obtain ⟨hchildren, hfacets⟩ := forall_parts_snapshot fun d hd => ih d hd (hattached d hd)
    exact Snapshot.readsBack_of_parts hchildren hfacets (ordered_facets_snapshot hordered)

end Control

namespace Tree

variable {t u : Tree}

/-- The text of a tree is read back as its snapshot, unless the snapshot is nested too deep for the reader. -/
theorem Reached.readsBack (h : t.Reached) (depth : Nat) :
    (Json.ofText? t.snapshot.toText).bind (Snapshot.ofJson? depth) =
      if t.snapshot.toJson.nesting < depth then some t.snapshot else none := by
  have htext : Json.ofText? t.snapshot.toText = some t.snapshot.toJson :=
    Json.ofText?_toText (Control.whole_snapshot t.root)
  rw [htext, Option.bind_some]
  exact Control.readsBack_snapshot h.numbered.names depth

/-- **Nothing of a snapshot is lost in its text.** Whatever the tree, its text is read back as its snapshot by any
reader that goes deep enough, and by no other; and trees with different snapshots have different texts. -/
theorem snapshot_read_back (h : t.Reached) :
    (∀ depth, (Json.ofText? t.snapshot.toText).bind (Snapshot.ofJson? depth) =
      if t.snapshot.toJson.nesting < depth then some t.snapshot else none) ∧
    ∀ u : Tree, u.Reached → u.snapshot.toText = t.snapshot.toText → u.snapshot = t.snapshot := by
  refine ⟨h.readsBack, fun u hu htext => ?_⟩
  -- a reader that goes deep enough for both trees reads the same from both texts
  have hread := hu.readsBack (max u.snapshot.toJson.nesting t.snapshot.toJson.nesting + 1)
  rw [htext, h.readsBack, if_pos (by omega), if_pos (by omega)] at hread
  exact (Option.some.inj hread).symm

/-- A tree with a facet. There are quotes, backslashes, line ends, control characters and accents in its strings. -/
def strangelyNamed : Tree :=
  let d : Definition := ⟨0, "urn:\"x\"", "ä\\b", "a", .empty, none, default⟩
  let object : Template := ⟨d, 0, [.assign (.id "a\n\x01\x7f")], some (.literal false)⟩
  ⟨.node 0 object [] [("\"\\é\t", .leaf 1 (.empty d 0))], 2⟩

theorem strangelyNamed_read_back :
    strangelyNamed.Reached ∧ Snapshot.ofText? strangelyNamed.snapshot.toText = some strangelyNamed.snapshot := by
  have hadded : (Tree.ofRoot strangelyNamed.root.template).addFacet 0 "\"\\é\t"
    (.empty strangelyNamed.root.template.definition 0) = .ok (1, strangelyNamed) := rfl
  have hreached : strangelyNamed.Reached := (Reached.ofRoot _).addFacet hadded
  exact ⟨hreached, ((snapshot_read_back hreached).1 Snapshot.depthLimit).trans (if_pos (by decide))⟩

end Tree

end PageTemplates
