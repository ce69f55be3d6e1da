import PageTemplates.Proofs.Tree.Reached

/-!
# Trees by indices

The nodes of a tree can also be kept in a list, each with the index of its parent, the indices of its children and the
indices of its facets by name. Then nothing in the data itself keeps a node from being listed twice, or from being
listed by a node below it. An arena is such a list; it begins with a root and grows by the operations of a tree. A node
is listed when it is made and at no other time, so that an arena stays `Linked`: links lead to larger indices, and they
are the inverse of the parents (`Linked.attach`, `Arena.linked_grown`).

## Structure

- §1 describes arenas and their operations.
- §2 says when an operation is refused.
- §3 shows that the links stay as they should be.
-/

namespace PageTemplates

/-! ## §1 Arenas -/

/-- The names of entries are those that are found. -/
theorem NameMap.mem_names_iff {α : Type} {name : String} {entries : List (String × α)} :
    name ∈ entries.map Prod.fst ↔ (lookup name entries).isSome := by
  induction entries with
  | nil => simp [lookup]
  | cons e rest ih =>
    obtain ⟨n, b⟩ := e
    -- the first entry of the name is the one that is found
    by_cases hn : n = name
    · simp [lookup, hn]
    · rw [List.map_cons, List.mem_cons, ih, lookup, if_neg hn]
      simp [Ne.symm hn]

/-- A node with the indices of the nodes around it. -/
structure ArenaNode where
  object : Template
  parent : Option Nat
  children : List Nat
  facets : List (String × Nat)

namespace ArenaNode

/-- A node that lists no other. -/
def leaf (object : Template) (parent : Option Nat) : ArenaNode := ⟨object, parent, [], []⟩

/-- The nodes that are listed: the children, then the facets by name. -/
def links (n : ArenaNode) : List Nat := n.children ++ n.facets.map Prod.snd

def listChild (n : ArenaNode) (child : Nat) : ArenaNode := { n with children := n.children ++ [child] }

def listFacet (n : ArenaNode) (name : String) (facet : Nat) : ArenaNode :=
  { n with facets := NameMap.place name facet n.facets }

end ArenaNode

/-- What is done to a tree. -/
inductive TreeOperation where
  | addChild (parent : Nat) (object : Template)
  | addFacet (parent : Nat) (name : String) (object : Template)
  | setTemplate (index : Nat) (object : Template)

/-- Does something to a tree, and answers with the index of the node that was added or changed, if there is one. -/
def Tree.perform (t : Tree) : TreeOperation → Except Error (Option Nat) × Tree
  | .addChild parent object => match t.addChild parent object with
    | .ok (index, grown) => (.ok (some index), grown)
    | .error e => (.error e, t)
  | .addFacet parent name object => match t.addFacet parent name object with
    | .ok (index, grown) => (.ok (some index), grown)
    | .error e => (.error e, t)
  | .setTemplate index object => (.ok ((t.get? index).map Control.index), t.setTemplate index object)

/-- The tree of a root after some operations, of which any may fail. -/
def Tree.grown (root : Template) (operations : List TreeOperation) : Tree :=
  operations.foldl (fun t operation => (t.perform operation).2) (.ofRoot root)

/-- Nodes by index. -/
structure Arena where
  nodes : List ArenaNode

namespace Arena

/-- The number of nodes, which is also the next index. -/
def size (a : Arena) : Nat := a.nodes.length

def parent? (a : Arena) (index : Nat) : Option Nat := (a.nodes[index]?).bind ArenaNode.parent

/-- Changes a node, if there is one of the index. -/
def update (a : Arena) (index : Nat) (f : ArenaNode → ArenaNode) : Arena := ⟨a.nodes.modify index f⟩

/-- Makes a node below another one, which has yet to list it. -/
def push (a : Arena) (parent : Nat) (object : Template) : Arena := ⟨a.nodes ++ [.leaf object (some parent)]⟩

def addChild (a : Arena) (parent : Nat) (object : Template) : Except Error (Option Nat) × Arena :=
  match a.nodes[parent]? with
  | none => (.error (.foreignNode parent), a)
  | some _ => (.ok (some a.size), (a.push parent object).update parent (·.listChild a.size))

def addFacet (a : Arena) (parent : Nat) (name : String) (object : Template) : Except Error (Option Nat) × Arena :=
  match a.nodes[parent]? with
  | none => (.error (.foreignNode parent), a)
  | some n => match NameMap.lookup name n.facets with
    | some _ => (.error (.duplicateFacet n.object.tag name), a)
    | none => (.ok (some a.size), (a.push parent object).update parent (·.listFacet name a.size))

def setTemplate (a : Arena) (index : Nat) (object : Template) : Except Error (Option Nat) × Arena :=
  (.ok ((a.nodes[index]?).map fun _ => index), a.update index fun n => { n with object := object })

def perform (a : Arena) : TreeOperation → Except Error (Option Nat) × Arena
  | .addChild parent object => a.addChild parent object
  | .addFacet parent name object => a.addFacet parent name object
  | .setTemplate index object => a.setTemplate index object

def ofRoot (root : Template) : Arena := ⟨[.leaf root none]⟩

/-- The arena of a root after some operations, of which any may fail. -/
def grown (root : Template) (operations : List TreeOperation) : Arena :=
  operations.foldl (fun a operation => (a.perform operation).2) (.ofRoot root)

/-! ## §2 Refusals -/

/-- An operation cannot be done, and why: there is no such node, or the facet name is taken. -/
inductive Refuses (a : Arena) : TreeOperation → Error → Prop where
  | foreignChild {parent : Nat} (object : Template) (h : a.size ≤ parent) :
      Refuses a (.addChild parent object) (.foreignNode parent)
  | foreignFacet {parent : Nat} (name : String) (object : Template) (h : a.size ≤ parent) :
      Refuses a (.addFacet parent name object) (.foreignNode parent)
  | taken {parent : Nat} {name : String} {n : ArenaNode} (object : Template) (h : a.nodes[parent]? = some n)
      (hname : name ∈ n.facets.map Prod.fst) :
      Refuses a (.addFacet parent name object) (.duplicateFacet n.object.tag name)

theorem getElem?_eq_none_iff {a : Arena} {i : Nat} : a.nodes[i]? = none ↔ a.size ≤ i := List.getElem?_eq_none_iff

theorem perform_eq_error {a : Arena} {operation : TreeOperation} {e : Error} :
    (a.perform operation).1 = .error e ↔ a.Refuses operation e := by
  constructor
  · intro h
    -- adding a child fails only for want of a parent, adding a facet also for its name, and nothing else fails
    cases operation with
    | addChild parent object =>
      have h : (a.addChild parent object).1 = .error e := h
      unfold addChild at h
      split at h
      · rename_i hnone
        cases h
        exact .foreignChild object (getElem?_eq_none_iff.mp hnone)
      · cases h
    | addFacet parent name object =>
      have h : (a.addFacet parent name object).1 = .error e := h
      unfold addFacet at h
      split at h
      · rename_i hnone
        cases h
        exact .foreignFacet name object (getElem?_eq_none_iff.mp hnone)
      · rename_i n hn
        split at h
        · rename_i hfound
          cases h
          exact .taken object hn (NameMap.mem_names_iff.mpr (Option.isSome_of_mem hfound))
        · cases h
    | setTemplate index object => cases h
  · intro h
    cases h with
    | foreignChild object hparent =>
      show (a.addChild _ object).1 = _
      rw [addChild, getElem?_eq_none_iff.mpr hparent]
    | foreignFacet name object hparent =>
      show (a.addFacet _ name object).1 = _
      rw [addFacet, getElem?_eq_none_iff.mpr hparent]
    | @taken parent name n object hn hname =>
      show (a.addFacet parent name object).1 = _
      obtain ⟨taken, htaken⟩ := Option.isSome_iff_exists.mp (NameMap.mem_names_iff.mp hname)
      simp only [addFacet, hn, htaken]

/-- What finds no node, or no room for one, changes nothing. -/
theorem perform_unchanged {a : Arena} {operation : TreeOperation}
    (h : ∀ i, (a.perform operation).1 ≠ .ok (some i)) : (a.perform operation).2 = a := by
  cases operation with
  | addChild parent object =>
    show (a.addChild parent object).2 = a
    have h : ∀ i, (a.addChild parent object).1 ≠ .ok (some i) := h
    unfold addChild at h ⊢
    split at h
    · rfl
    · exact absurd rfl (h _)
  | addFacet parent name object =>
    show (a.addFacet parent name object).2 = a
    have h : ∀ i, (a.addFacet parent name object).1 ≠ .ok (some i) := h
    unfold addFacet at h ⊢
    split at h
    · rfl
    · split at h
      · rfl
      · exact absurd rfl (h _)
  | setTemplate index object =>
    show a.update index _ = a
    have hnone : a.nodes[index]? = none := by
      cases hn : a.nodes[index]? with
      | none => rfl
      | some n => exact absurd (by simp [perform, setTemplate, hn]) (h index)
    rw [update, List.modify_eq_self (List.getElem?_eq_none_iff.mp hnone)]

/-! ## §3 Links -/

/-- The links of an arena make it a tree. -/
structure Linked (a : Arena) : Prop where
  /-- The first node has no parent. -/
  root : (a.nodes[0]?).map ArenaNode.parent = some none
  /-- Every other node has a parent, which is older. -/
  parent : ∀ i, 0 < i → i < a.size → ∃ p, a.parent? i = some p ∧ p < i
  /-- Over all nodes together, every other node is listed once. -/
  once : (a.nodes.flatMap ArenaNode.links).Perm (List.range a.size).tail
  /-- A node is listed by its parent. -/
  listed : ∀ p n, a.nodes[p]? = some n → ∀ i, i ∈ n.links ↔ a.parent? i = some p
  /-- The facets of a node are in the order of their names, and no two of them have the same name. -/
  names : ∀ n ∈ a.nodes, NameMap.Ordered n.facets

variable {a : Arena}

theorem lt_size_of_parent? {i p : Nat} (h : a.parent? i = some p) : i < a.size := by
  obtain ⟨n, hn, -⟩ := Option.bind_eq_some_iff.mp h
  exact (List.getElem?_eq_some_iff.mp hn).1

/-- A parent is older. -/
theorem Linked.lt_of_parent? (h : a.Linked) {i p : Nat} (hp : a.parent? i = some p) : p < i := by
  have hpos : 0 < i := by
    refine Nat.pos_of_ne_zero fun hzero => ?_
    subst hzero
    obtain ⟨n, hn, hparent⟩ := Option.bind_eq_some_iff.mp hp
    have hroot := h.root
    rw [hn, Option.map_some, hparent] at hroot
    cases hroot
  obtain ⟨q, hq, hlt⟩ := h.parent i hpos (lt_size_of_parent? hp)
  rw [hq] at hp
  exact Option.some.inj hp ▸ hlt

theorem linked_ofRoot (root : Template) : (ofRoot root).Linked := by
  constructor
  · rfl
  · intro i hi hlt
    exact absurd hlt (Nat.not_lt.mpr hi)
  · exact .nil
  · intro p n hn i
    obtain rfl := List.mem_singleton.mp (List.mem_of_getElem? hn)
    -- the root has no parent, and there is no other node
    cases i <;> simp [ArenaNode.links, ArenaNode.leaf, parent?, ofRoot]
  · intro n hn
    obtain rfl := List.mem_singleton.mp hn
    exact .nil

/-- If one node of several lists one node more, that is one link more. -/
theorem flatMap_links_modify_perm {ns : List ArenaNode} {p new : Nat} {n : ArenaNode} {f : ArenaNode → ArenaNode}
    (hn : ns[p]? = some n) (hf : (f n).links.Perm (new :: n.links)) :
    ((ns.modify p f).flatMap ArenaNode.links).Perm (new :: ns.flatMap ArenaNode.links) := by
  -- by induction on the nodes before the one that lists the new one
  induction ns generalizing p with
  | nil => cases hn
  | cons m rest ih =>
    cases p with
    | zero =>
      cases hn
      exact hf.append_right _
    | succ p =>
      have hrest := ih (p := p) hn
      exact (hrest.append_left _).trans List.perm_middle

section Attach

variable {p : Nat} {n : ArenaNode} {object : Template} {f : ArenaNode → ArenaNode}

/-- The nodes after one more was made and listed. -/
theorem getElem?_attach (hp : p < a.size) (i : Nat) : ((a.push p object).update p f).nodes[i]? =
    if i = a.size then some (.leaf object (some p)) else (a.nodes[i]?).map fun m => if p = i then f m else m := by
  simp only [update, push, List.getElem?_modify, List.getElem?_append]
  -- an old node, the new one, or none
  rcases Nat.lt_trichotomy i a.size with hi | rfl | hi
  · have hold : i < a.nodes.length := hi
    rw [if_pos hold, if_neg (Nat.ne_of_lt hi)]
    rfl
  · have hne : p ≠ a.nodes.length := Nat.ne_of_lt hp
    simp [size, hne]
  · have hbeyond : ¬ i < a.nodes.length := Nat.not_lt.mpr (Nat.le_of_lt hi)
    have hmore : i - a.nodes.length ≠ 0 := Nat.sub_ne_zero_of_lt hi
    rw [if_neg hbeyond, if_neg (Nat.ne_of_gt hi), List.getElem?_eq_none (Nat.not_lt.mp hbeyond)]
    simp [hmore]

theorem parent?_attach (hp : p < a.size) (hparent : ∀ m, (f m).parent = m.parent) (i : Nat) :
    ((a.push p object).update p f).parent? i = if i = a.size then some p else a.parent? i := by
  rw [parent?, getElem?_attach hp]
  split
  · rfl
  · rw [parent?, Option.bind_map]
    congr 1
    funext m
    by_cases hi : p = i <;> simp [hi, hparent]

theorem size_attach : ((a.push p object).update p f).size = a.size + 1 := by
  simp [update, push, size]

/-- A node that is made below another one and listed there leaves the links as they should be. -/
theorem Linked.attach (h : a.Linked) (hn : a.nodes[p]? = some n) (hparent : ∀ m, (f m).parent = m.parent)
    (hlinks : (f n).links.Perm (a.size :: n.links)) (hnames : NameMap.Ordered (f n).facets) :
    ((a.push p object).update p f).Linked := by
  obtain ⟨hp, -⟩ := List.getElem?_eq_some_iff.mp hn
  -- nobody was the parent of the new node before
  have hnew : a.parent? a.size = none := by simp [parent?, size]
  constructor
  · have hfirst : 0 ≠ a.size := Nat.ne_of_lt (Nat.lt_of_le_of_lt (Nat.zero_le p) hp)
    rw [getElem?_attach hp, if_neg hfirst, ← h.root, Option.map_map]
    congr 1
    funext m
    by_cases hi : p = 0 <;> simp [hi, hparent]
  · intro i hi hlt
    rw [parent?_attach hp hparent]
    by_cases heq : i = a.size
    · exact ⟨p, if_pos heq, heq ▸ hp⟩
    · rw [if_neg heq]
      rw [size_attach] at hlt
      exact h.parent i hi (by omega)
  · have hold : ((a.push p object).nodes.flatMap ArenaNode.links) = a.nodes.flatMap ArenaNode.links := by
      simp [push, ArenaNode.links, ArenaNode.leaf]
    have hn' : (a.push p object).nodes[p]? = some n := by
      rw [push, List.getElem?_append_left hp, hn]
    -- the next index is that of the new node, which is listed once more than before
    have hrange : List.range (a.size + 1) = List.range a.size ++ [a.size] := List.range_succ
    have hnonempty : List.range a.size ≠ [] := by
      rw [Ne, List.range_eq_nil]
      exact Nat.ne_of_gt (Nat.lt_of_le_of_lt (Nat.zero_le p) hp)
    rw [size_attach, hrange, List.tail_append_of_ne_nil hnonempty]
    refine (flatMap_links_modify_perm hn' hlinks).trans ?_
    rw [hold]
    exact (h.once.cons _).trans (List.perm_append_singleton _ _).symm
  · intro q m hm i
    rw [getElem?_attach hp] at hm
    rw [parent?_attach hp hparent]
    by_cases hq : q = a.size
    · -- the new node lists nothing, and is nobody's parent
      rw [if_pos hq] at hm
      cases hm
      have hold : a.parent? i ≠ some q := fun hi =>
        absurd (Nat.lt_trans (h.lt_of_parent? hi) (lt_size_of_parent? hi)) (hq ▸ Nat.lt_irrefl q)
      have hne : p ≠ q := hq ▸ Nat.ne_of_lt hp
      by_cases hi : i = a.size <;> simp [ArenaNode.links, ArenaNode.leaf, hi, hne, hold]
    · rw [if_neg hq] at hm
      obtain ⟨k, hk, rfl⟩ := Option.map_eq_some_iff.mp hm
      have hlisted := h.listed q k hk
      by_cases hpq : p = q
      · -- the parent lists the new node and those that it did before
        subst hpq
        rw [hn] at hk
        cases hk
        rw [if_pos rfl, hlinks.mem_iff, List.mem_cons, hlisted]
        by_cases hi : i = a.size <;> simp [hi]
      · rw [if_neg hpq, hlisted]
        by_cases hi : i = a.size
        · simp [hi, hnew, hpq]
        · rw [if_neg hi]
  · intro m hm
    obtain ⟨i, hm⟩ := List.mem_iff_getElem?.mp hm
    rw [getElem?_attach hp] at hm
    split at hm
    · cases hm
      exact .nil
    · obtain ⟨k, hk, rfl⟩ := Option.map_eq_some_iff.mp hm
      split
      · rename_i hpi
        subst hpi
        rw [hn] at hk
        cases hk
        exact hnames
      · exact h.names k (List.mem_of_getElem? hk)

end Attach

/-- What is done to the object of a node alone is nothing to the links. -/
theorem Linked.relabel (h : a.Linked) (index : Nat) (object : Template) :
    (a.update index fun n => { n with object := object }).Linked := by
  have hget : ∀ i, (a.update index fun n => { n with object := object }).nodes[i]? =
      (a.nodes[i]?).map fun n => if index = i then { n with object := object } else n := by
    intro i
    simp only [update, List.getElem?_modify]
    rfl
  have hparent : ∀ i, (a.update index fun n => { n with object := object }).parent? i = a.parent? i := by
    intro i
    rw [parent?, hget, parent?, Option.bind_map]
    congr 1
    funext n
    by_cases hi : index = i <;> simp [hi]
  have hsize : (a.update index fun n => { n with object := object }).size = a.size := by simp [update, size]
  have hlinks : (a.update index fun n => { n with object := object }).nodes.map ArenaNode.links =
      a.nodes.map ArenaNode.links := by
    refine List.ext_getElem? fun i => ?_
    rw [List.getElem?_map, hget, List.getElem?_map, Option.map_map]
    congr 1
    funext n
    by_cases hi : index = i <;> simp [hi, ArenaNode.links]
  constructor
  · rw [hget, Option.map_map, ← h.root]
    congr 1
    funext n
    by_cases hi : index = 0 <;> simp [hi]
  · intro i hi hlt
    rw [hparent]
    exact h.parent i hi (hsize ▸ hlt)
  · rw [hsize, List.flatMap_def, hlinks, ← List.flatMap_def]
    exact h.once
  · intro p m hm i
    obtain ⟨n, hn, rfl⟩ := Option.map_eq_some_iff.mp ((hget p).symm.trans hm)
    rw [hparent, ← h.listed p n hn]
    by_cases hi : index = p <;> simp [hi, ArenaNode.links]
  · intro m hm
    obtain ⟨i, hm⟩ := List.mem_iff_getElem?.mp hm
    obtain ⟨n, hn, rfl⟩ := Option.map_eq_some_iff.mp ((hget i).symm.trans hm)
    have hnames := h.names n (List.mem_of_getElem? hn)
    by_cases hi : index = i <;> simpa [hi] using hnames

theorem Linked.perform (h : a.Linked) (operation : TreeOperation) : (a.perform operation).2.Linked := by
  cases operation with
  | addChild parent object =>
    show (a.addChild parent object).2.Linked
    unfold addChild
    split
    · exact h
    · rename_i n hn
      refine h.attach hn (fun _ => rfl) ?_ (h.names n (List.mem_of_getElem? hn))
      -- the new child comes between the other children and the facets
      simp only [ArenaNode.links, ArenaNode.listChild, List.append_assoc, List.singleton_append]
      exact List.perm_middle
  | addFacet parent name object =>
    show (a.addFacet parent name object).2.Linked
    unfold addFacet
    split
    · exact h
    · rename_i n hn
      split
      · exact h
      · rename_i hfree
        refine h.attach hn (fun _ => rfl) ?_ ((h.names n (List.mem_of_getElem? hn)).place name a.size)
        have hplace := (NameMap.place_perm a.size hfree).map Prod.snd
        exact (hplace.append_left _).trans List.perm_middle
  | setTemplate index object => exact h.relabel index object

/-- Whatever is done to a tree, its links are as they should be. -/
theorem linked_grown (root : Template) (operations : List TreeOperation) : (grown root operations).Linked :=
  List.foldlRecOn operations _ (linked_ofRoot root) fun _ h operation _ => h.perform operation

end Arena

end PageTemplates
