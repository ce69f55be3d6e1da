import PageTemplates.Proofs.Markup.Controls
import PageTemplates.Proofs.Markup.Creation
import PageTemplates.Proofs.Tree.Listing

/-!
# Trees mirror their documents

A document that is compiled gives a tree whose nodes are the controls of the document: the index of a node is the place
of its element among the controls, and the children and facets of a node are those of its element (`TreeMirrors`).

The compilation gives out indices while it walks over the content of an element. What one walk does is first said by a
derivation without requests (`AttachesAll`), in which every part carries the element that it was made of. From there on
the argument is about lists: the controls of an element are listed as itself and then those of the elements attached to
it, and the walk numbers them in the same way.
-/

namespace PageTemplates.Markup

open Program (Event Runs infix_left infix_right)

variable {s : Setting} {all : List (Event CompileRequest.Answer)}

/-! ## §1 What mirroring means -/

/-- The parent of the node of an element: none for the root, and for any other element the node of the control that it
is attached to. -/
def ParentMirrors (order : List (Way × Element)) (w : Way) (e : Element) : Option Nat → Prop
  | none => w = []
  | some p => ∃ v f, ∃ a ∈ f.attached, order[p]? = some (v, f) ∧ w = v ++ a.way ∧ e = a.element

/-- A node of a tree mirrors an element of a document whose controls are listed in some order. -/
structure NodeMirrors (s : Setting) (all : List (Event CompileRequest.Answer)) (order : List (Way × Element)) (w : Way)
    (e : Element) (parent : Option Nat) (c : Control) : Prop where
  /-- The index of the node is the place of the element. -/
  numbered : order[c.index]? = some (w, e)
  /-- The template of the node was compiled from the element. -/
  template : ∃ part, part <:+: all ∧ Runs (compileElement s e) part (.ok c.template)
  parent : ParentMirrors order w e parent
  /-- The children of the node are those of the element, in order. -/
  children : c.children.map (fun d => order[d.index]?) = e.childElements.map fun a => some (w ++ a.way, a.element)
  /-- The node has one facet for each facet of the element, under the key that the facet gives. -/
  facets : (c.facets.map fun f => (some f.1, order[f.2.index]?)).Perm
    (e.facetElements.map fun a => (a.element.facetKey? s, some (w ++ a.way, a.element)))
  /-- No two facets of the node have the same name. -/
  names : NameMap.Ordered c.facets

/-- A tree mirrors a document: `order` lists the controls of the document as they stand in it, and each of them has one
node. -/
structure TreeMirrors (s : Setting) (root : Element) (all : List (Event CompileRequest.Answer)) (tree : Tree)
    (order : List (Way × Element)) : Prop where
  /-- The controls are listed in the order of the document. -/
  ascending : (order.map Prod.fst).Pairwise (· < ·)
  /-- Exactly the controls are listed. -/
  controls : ∀ w e, (w, e) ∈ order ↔ IsControl root w e
  /-- The size of the tree is the number of controls. -/
  size : tree.size = order.length
  /-- The indices of the nodes are the places in the list, each once. -/
  indices : tree.root.indices.Perm (List.range order.length)
  nodes : ∀ parent c, (parent, c) ∈ tree.root.preorder none → ∃ w e, NodeMirrors s all order w e parent c
  /-- The node of a control is found under its place. -/
  located : ∀ i w e, order[i]? = some (w, e) →
    ∃ parent c, tree.locate? i = some (parent, c) ∧ NodeMirrors s all order w e parent c

/-- The facets of an element that has a node have keys, and no two of them the same. -/
theorem NodeMirrors.keyed {order : List (Way × Element)} {w : Way} {e : Element} {parent : Option Nat} {c : Control}
    (h : NodeMirrors s all order w e parent c) : e.Keyed s := by
  have hkeys := h.facets.map Prod.fst
  rw [List.map_map, List.map_map] at hkeys
  constructor
  · intro a ha
    -- the key of the facet is the name of a facet of the node
    obtain ⟨f, _, hf⟩ := List.mem_map.mp (hkeys.mem_iff.mpr (List.mem_map.mpr ⟨a, ha, rfl⟩))
    exact Option.isSome_iff_exists.mpr ⟨f.1, hf.symm⟩
  · refine hkeys.nodup_iff.mp ?_
    have hnames : (c.facets.map Prod.fst).Nodup := h.names.imp ne_of_lt
    have hsome := hnames.map (f := some) fun _ _ => Option.some.inj
    rwa [List.map_map] at hsome

/-! ## §2 What the walk over the content of a control does -/

/-- A control was compiled from an element at an index, as a part of some compilation. -/
def Grown (s : Setting) (all : List (Event CompileRequest.Answer)) (index : Nat) (e : Element) (c : Control)
    (next : Nat) : Prop :=
  ∃ t first second, first <:+: all ∧ second <:+: all ∧ Runs (compileElement s e) first (.ok t) ∧
    Runs (compileControl s index t e) second (.ok (c, next))

/-- What attaching a control to another does to what has been attached before. -/
inductive Attaches (s : Setting) (all : List (Event CompileRequest.Answer)) (g : Growth) (a : Attachment)
    (c : Control) : Growth → Prop where
  /-- A child comes after the others. -/
  | child {next : Nat} (hlink : a.link = .child) (h : Grown s all g.next a.element c next) :
      Attaches s all g a c { g with children := g.children ++ [c], next := next }
  /-- A facet has a key, which is not taken. -/
  | facet {key : String} {next : Nat} (hlink : a.link = .facet) (hkey : a.element.facetKey? s = some key)
      (hfree : NameMap.lookup key g.facets = none) (h : Grown s all g.next a.element c next) :
      Attaches s all g a c { g with facets := NameMap.place key c g.facets, next := next }

/-- What attaching some controls one after the other does. -/
inductive AttachesAll (s : Setting) (all : List (Event CompileRequest.Answer)) :
    Growth → List (Attachment × Control) → Growth → Prop where
  | nil (g : Growth) : AttachesAll s all g [] g
  | cons {g g' g'' : Growth} {a : Attachment} {c : Control} {parts : List (Attachment × Control)}
      (h : Attaches s all g a c g') (hrest : AttachesAll s all g' parts g'') : AttachesAll s all g ((a, c) :: parts) g''

theorem AttachesAll.append {g g' g'' : Growth} {parts more : List (Attachment × Control)}
    (h : AttachesAll s all g parts g') (hmore : AttachesAll s all g' more g'') :
    AttachesAll s all g (parts ++ more) g'' := by
  induction h with
  | nil g => exact hmore
  | cons h _ ih => exact .cons h (ih hmore)

/-- A facet that was allowed has a key. -/
theorem facetKey?_of_runs {e : Element} {events : List (Event CompileRequest.Answer)} {key : String}
    (h : Runs (facetKey s e.name e.attributes e.location) events (.ok key)) : e.facetKey? s = some key := by
  unfold facetKey at h
  unfold Element.facetKey?
  split at h
  · rename_i a ha
    obtain ⟨-, h⟩ := Program.runs_pure_except.mp h
    cases h
    rw [ha]
    rfl
  · exact absurd h runs_fail

theorem attachFacetPieces_attachesAll (i j : Nat) {g g' : Growth} {content : List (Piece Element)}
    {events : List (Event CompileRequest.Answer)} (hevents : events <:+: all)
    (h : Runs (attachFacetPieces s g content) events (.ok g')) :
    ∃ parts, AttachesAll s all g parts g' ∧
      parts.map Prod.fst = ((elementsOf content).zipIdx j).map fun x => ⟨[i, x.2], .facet, x.1⟩ := by
  -- by induction on the content, whatever has been attached and however many elements came before
  induction content generalizing g j events with
  | nil =>
    obtain ⟨-, h⟩ := Program.runs_pure_except.mp h
    cases h
    exact ⟨[], .nil _, rfl⟩
  | cons piece rest ih =>
    cases piece with
    | element e =>
      rw [attachFacetPieces] at h
      obtain ⟨key, first, others, rfl, hkey, h⟩ := Program.runs_bind_ok h
      obtain ⟨t, second, others, rfl, helement, h⟩ := Program.runs_bind_ok h
      split at h
      · -- the key is taken, so the run fails
        cases (Program.runs_done.mp h).2
      · rename_i hfree
        obtain ⟨⟨c, next⟩, third, last, rfl, hcontrol, h⟩ := Program.runs_bind_ok h
        have hafter := infix_right hevents
        obtain ⟨parts, hparts, hmap⟩ := ih (j + 1) (infix_right (infix_right hafter)) h
        refine ⟨(⟨[i, j], .facet, e⟩, c) :: parts, .cons ?_ hparts, by simp [hmap, elementsOf]⟩
        exact .facet rfl (facetKey?_of_runs hkey) (Option.not_isSome_iff_eq_none.mp hfree)
          ⟨t, second, third, infix_left hafter, infix_left (infix_right hafter), helement, hcontrol⟩
    | text _ | comment _ | instruction _ _ =>
      rw [attachFacetPieces] at h
      exact ih j hevents h

theorem attach_attachesAll (i : Nat) {g g' : Growth} {content : List (Piece Element)}
    {events : List (Event CompileRequest.Answer)} (hevents : events <:+: all)
    (h : Runs (attach s g content) events (.ok g')) :
    ∃ parts, AttachesAll s all g parts g' ∧ parts.map Prod.fst = attachmentsFrom i (elementsOf content) := by
  -- by induction on the content, as for facets
  induction content generalizing g i events with
  | nil =>
    obtain ⟨-, h⟩ := Program.runs_pure_except.mp h
    cases h
    exact ⟨[], .nil _, rfl⟩
  | cons piece rest ih =>
    cases piece with
    | element e =>
      rw [attach] at h
      rw [elementsOf, attachmentsFrom_cons, Element.attachments]
      cases hname : propertyOf? e.name with
      | none =>
        rw [hname] at h
        obtain ⟨t, first, others, rfl, helement, h⟩ := Program.runs_bind_ok h
        obtain ⟨⟨c, next⟩, second, last, rfl, hcontrol, h⟩ := Program.runs_bind_ok h
        have hafter := infix_right hevents
        obtain ⟨parts, hparts, hmap⟩ := ih (i + 1) (infix_right hafter) h
        refine ⟨(⟨[i], .child, e⟩, c) :: parts, .cons ?_ hparts, by simp [hmap]⟩
        exact .child rfl ⟨t, first, second, infix_left hevents, infix_left hafter, helement, hcontrol⟩
      | some given =>
        rw [hname] at h
        dsimp only at h ⊢
        split at h
        · rename_i hfacets
          rw [if_pos hfacets]
          -- the walk goes through the facets, and then through what comes after their element
          obtain ⟨more, first, second, rfl, hfirst, hsecond⟩ := Program.runs_bind_ok h
          obtain ⟨name, attributes, held, location⟩ := e
          rw [attachFacets] at hfirst
          obtain ⟨facets, hattached, hkeys⟩ := attachFacetPieces_attachesAll i 0 (infix_left hevents) hfirst
          obtain ⟨parts, hparts, hmap⟩ := ih (i + 1) (infix_right hevents) hsecond
          exact ⟨facets ++ parts, hattached.append hparts, by rw [List.map_append, hkeys, hmap]⟩
        · -- any other property element belongs to the other walk
          rename_i hfacets
          rw [if_neg hfacets]
          exact ih (i + 1) hevents h
    | text _ | comment _ | instruction _ _ =>
      rw [attach] at h
      exact ih i hevents h

/-- What was compiled from an element is a node to which the elements attached to it are attached. -/
theorem Grown.attached {index next : Nat} {e : Element} {c : Control} (h : Grown s all index e c next) :
    ∃ t part g parts, part <:+: all ∧ Runs (compileElement s e) part (.ok t) ∧
      c = .node index t g.children g.facets ∧ next = g.next ∧ parts.map Prod.fst = e.attached ∧
      AttachesAll s all ⟨t.tag, [], [], index + 1⟩ parts g := by
  obtain ⟨t, first, second, hfirst, hsecond, helement, hcontrol⟩ := h
  obtain ⟨name, attributes, content, location⟩ := e
  rw [compileControl] at hcontrol
  obtain ⟨g, third, last, rfl, hattach, hdone⟩ := Program.runs_bind_ok hcontrol
  obtain ⟨-, hdone⟩ := Program.runs_pure_except.mp hdone
  cases hdone
  obtain ⟨parts, hparts, hmap⟩ := attach_attachesAll 0 (infix_left hsecond) hattach
  exact ⟨t, first, g, parts, hfirst, helement, rfl, rfl, hmap, hparts⟩

/-! ## §3 Children and facets of a node -/

theorem AttachesAll.children {g g' : Growth} {parts : List (Attachment × Control)} (h : AttachesAll s all g parts g') :
    g'.children = g.children ++ (parts.filter fun p => p.1.link = .child).map Prod.snd := by
  induction h with
  | nil g => exact (List.append_nil _).symm
  | cons h _ ih =>
    rw [ih]
    cases h with
    | child hlink _ => simp [hlink]
    | facet hlink _ _ _ => simp [hlink]

/-- The facets of a node, with their names, are those that were attached, with their keys. -/
theorem AttachesAll.facets {g g' : Growth} {parts : List (Attachment × Control)} (h : AttachesAll s all g parts g') :
    (g'.facets.map fun f => (some f.1, f.2)).Perm ((g.facets.map fun f => (some f.1, f.2)) ++
      (parts.filter fun p => p.1.link = .facet).map fun p => (p.1.element.facetKey? s, p.2)) := by
  induction h with
  | nil g => rw [List.filter_nil, List.map_nil, List.append_nil]
  | @cons g _ _ _ c _ h _ ih =>
    refine ih.trans ?_
    cases h with
    | child hlink _ => simp [hlink]
    | @facet key _ hlink hkey hfree _ =>
      rw [List.filter_cons_of_pos (by simpa using hlink), List.map_cons, hkey]
      -- the facet is put at the place of its name, so the order is lost here
      have hplace := (NameMap.place_perm c hfree).map fun f => (some f.1, f.2)
      exact (hplace.append_right _).trans List.perm_middle.symm

theorem AttachesAll.ordered {g g' : Growth} {parts : List (Attachment × Control)} (h : AttachesAll s all g parts g')
    (hg : NameMap.Ordered g.facets) : NameMap.Ordered g'.facets := by
  induction h with
  | nil g => exact hg
  | cons h _ ih =>
    refine ih ?_
    cases h with
    | child _ _ => exact hg
    | facet _ _ _ _ => exact hg.place _ _

/-- Whatever was attached is a child or a facet of the node. -/
theorem AttachesAll.attached {g : Growth} {index : Nat} {t : Template} {parts : List (Attachment × Control)}
    (h : AttachesAll s all ⟨t.tag, [], [], index + 1⟩ parts g) :
    (Control.node index t g.children g.facets).attached.Perm (parts.map Prod.snd) := by
  have hchildren : g.children = (parts.filter fun p => p.1.link = .child).map Prod.snd := h.children
  have hfacets : (g.facets.map Prod.snd).Perm ((parts.filter fun p => !decide (p.1.link = .child)).map Prod.snd) := by
    -- what is no child is a facet
    have hlinks : (parts.filter fun p => !decide (p.1.link = .child)) = parts.filter fun p => p.1.link = .facet := by
      refine List.filter_congr fun p _ => ?_
      cases p.1.link <;> rfl
    have hnamed := h.facets.map Prod.snd
    rw [List.map_nil, List.nil_append, List.map_map, List.map_map] at hnamed
    rw [hlinks]
    exact hnamed
  rw [Control.attached, Control.children, Control.facets, hchildren]
  refine (hfacets.append_left _).trans ?_
  rw [← List.map_append]
  exact (List.filter_append_perm _ parts).map Prod.snd

/-! ## §4 Numbering -/

/-- The controls in an element that the way `w` leads to. -/
def Element.controlsAt (w : Way) (e : Element) : List (Way × Element) := e.controls.map fun x => (w ++ x.1, x.2)

theorem Element.controlsAt_eq (w : Way) (e : Element) :
    e.controlsAt w = (w, e) :: e.attached.flatMap fun a => a.element.controlsAt (w ++ a.way) := by
  rw [controlsAt, controls_eq, List.map_cons, List.map_flatMap, List.append_nil]
  simp only [Attachment.controls, controlsAt, List.map_map, Function.comp_def, List.append_assoc]

/-- A control that was made of an element, and all below it, have the indices from `first` up to `next`, and mirror the
controls in the element. -/
structure Numbers (s : Setting) (all : List (Event CompileRequest.Answer)) (first : Nat) (e : Element) (c : Control)
    (next : Nat) : Prop where
  index : c.index = first
  next : next = first + e.controls.length
  indices : c.indices.Perm (List.range' first e.controls.length)
  nodes : ∀ (order : List (Way × Element)) (w : Way) (parent : Option Nat), e.controlsAt w <+: order.drop first →
    ParentMirrors order w e parent → ∀ p d, (p, d) ∈ c.preorder parent → ∃ v f, NodeMirrors s all order v f p d

/-- Controls that were made of attached elements are numbered one after the other. -/
inductive NumbersAll (s : Setting) (all : List (Event CompileRequest.Answer)) :
    Nat → List (Attachment × Control) → Nat → Prop where
  | nil (first : Nat) : NumbersAll s all first [] first
  | cons {first next last : Nat} {a : Attachment} {c : Control} {parts : List (Attachment × Control)}
      (h : Numbers s all first a.element c next) (hrest : NumbersAll s all next parts last) :
      NumbersAll s all first ((a, c) :: parts) last

theorem Attaches.grown {g g' : Growth} {a : Attachment} {c : Control} (h : Attaches s all g a c g') :
    Grown s all g.next a.element c g'.next := by
  cases h with
  | child _ h => exact h
  | facet _ _ _ h => exact h

theorem AttachesAll.numbers {g g' : Growth} {parts : List (Attachment × Control)} (h : AttachesAll s all g parts g')
    (each : ∀ p ∈ parts, ∀ first next, Grown s all first p.1.element p.2 next →
      Numbers s all first p.1.element p.2 next) : NumbersAll s all g.next parts g'.next := by
  induction h with
  | nil g => exact .nil _
  | cons h _ ih =>
    refine .cons (each _ List.mem_cons_self _ _ h.grown) (ih fun p hp => ?_)
    exact each p (List.mem_cons_of_mem _ hp)

namespace NumbersAll

variable {first last : Nat} {parts : List (Attachment × Control)}

theorem next (h : NumbersAll s all first parts last) :
    last = first + (parts.flatMap fun p => p.1.controls).length := by
  induction h with
  | nil first => rfl
  | cons h _ ih =>
    rw [ih, h.next, List.flatMap_cons, List.length_append, Attachment.length_controls, Nat.add_assoc]

theorem indices (h : NumbersAll s all first parts last) :
    ((parts.map Prod.snd).flatMap Control.indices).Perm
      (List.range' first (parts.flatMap fun p => p.1.controls).length) := by
  induction h with
  | nil first => exact .refl _
  | cons h _ ih =>
    rw [List.map_cons, List.flatMap_cons, List.flatMap_cons, List.length_append, Attachment.length_controls,
      ← List.range'_append_1]
    -- the numbers of the others begin where those of the first one end
    rw [h.next] at ih
    exact h.indices.append ih

/-- Where the controls of all attached elements are listed from some place on, each of them has its own place. -/
theorem located (h : NumbersAll s all first parts last) {order : List (Way × Element)} {w : Way}
    (horder : (parts.flatMap fun p => p.1.element.controlsAt (w ++ p.1.way)) <+: order.drop first) :
    ∀ p ∈ parts, ∃ start stop, Numbers s all start p.1.element p.2 stop ∧
      p.1.element.controlsAt (w ++ p.1.way) <+: order.drop start := by
  induction h with
  | nil first => nofun
  | @cons first next last a c parts h _ ih =>
    rw [List.flatMap_cons] at horder
    intro p hp
    rcases List.mem_cons.mp hp with rfl | hp
    · exact ⟨first, next, h, (List.prefix_append _ _).trans horder⟩
    · refine ih ?_ p hp
      -- the controls of the first one are passed over
      obtain ⟨rest, hrest⟩ := horder
      have hlength : (a.element.controlsAt (w ++ a.way)).length = a.element.controls.length := List.length_map _
      rw [h.next, ← List.drop_drop, ← hrest, List.append_assoc, ← hlength, List.drop_left]
      exact List.prefix_append _ _

end NumbersAll

theorem getElem?_of_prefix_drop {α : Type} {x : α} {l order : List α} {n : Nat} (h : x :: l <+: order.drop n) :
    order[n]? = some x := by
  obtain ⟨rest, hrest⟩ := h
  have hhead : (order.drop n)[0]? = some x := by rw [← hrest]; rfl
  rwa [List.getElem?_drop, Nat.add_zero] at hhead

theorem prefix_drop_succ {α : Type} {x : α} {l order : List α} {n : Nat} (h : x :: l <+: order.drop n) :
    l <+: order.drop (n + 1) := by
  obtain ⟨rest, hrest⟩ := h
  rw [← List.drop_drop, ← hrest]
  exact List.prefix_append _ _

/-- The node to which the elements attached to an element were attached, once each of these has its place. -/
theorem AttachesAll.nodeMirrors {g : Growth} {index : Nat} {t : Template} {e : Element} {w : Way} {parent : Option Nat}
    {parts : List (Attachment × Control)} {order : List (Way × Element)}
    (h : AttachesAll s all ⟨t.tag, [], [], index + 1⟩ parts g) (hparts : parts.map Prod.fst = e.attached)
    (htemplate : ∃ part, part <:+: all ∧ Runs (compileElement s e) part (.ok t))
    (hself : order[index]? = some (w, e)) (hparent : ParentMirrors order w e parent)
    (hplace : ∀ q ∈ parts, order[q.2.index]? = some (w ++ q.1.way, q.1.element)) :
    NodeMirrors s all order w e parent (.node index t g.children g.facets) where
  numbered := hself
  template := htemplate
  parent := hparent
  children := by
    have hchildren : g.children = (parts.filter fun p => p.1.link = .child).map Prod.snd := h.children
    rw [Control.children, hchildren, Element.childElements, ← hparts, List.filter_map, List.map_map, List.map_map]
    exact List.map_congr_left fun q hq => hplace q (List.mem_of_mem_filter hq)
  facets := by
    have hfacets := h.facets.map fun x => (x.1, order[x.2.index]?)
    rw [List.map_nil, List.nil_append, List.map_map, List.map_map] at hfacets
    rw [Element.facetElements, ← hparts, List.filter_map, List.map_map]
    refine hfacets.trans (.of_eq (List.map_congr_left fun q hq => ?_))
    exact congrArg (Prod.mk _) (hplace q (List.mem_of_mem_filter hq))
  names := h.ordered .nil

/-- **Numbering**: a control that is made of an element mirrors it, and all below it mirrors what is in the element. -/
theorem Grown.numbers {first next : Nat} {e : Element} {c : Control} (h : Grown s all first e c next) :
    Numbers s all first e c next := by
  -- by induction on what is attached to the element, for all numbers to begin with
  induction e using Element.attached_induction generalizing first next c with
  | step e ih =>
    obtain ⟨t, part, g, parts, hpart, helement, rfl, rfl, hparts, hall⟩ := h.attached
    have hmem : ∀ q ∈ parts, q.1 ∈ e.attached := fun q hq => hparts ▸ List.mem_map_of_mem hq
    have hnumbers := hall.numbers fun q hq _ _ hgrown => ih q.1 (hmem q hq) hgrown
    have hcount : (parts.flatMap fun q => q.1.controls).length + 1 = e.controls.length := by
      rw [e.controls_eq, List.length_cons, ← hparts, List.flatMap_map]
    refine ⟨rfl, ?_, ?_, ?_⟩
    · have hnext : g.next = first + 1 + _ := hnumbers.next
      omega
    · rw [Control.indices_eq, ← hcount, List.range'_succ]
      exact ((hall.attached.flatMap_right _).trans hnumbers.indices).cons _
    · intro order w parent horder hparent p d hd
      rw [e.controlsAt_eq, ← hparts, List.flatMap_map] at horder
      have hself := getElem?_of_prefix_drop horder
      -- the element itself comes first, and those attached to it come after it
      have hlocated := hnumbers.located (prefix_drop_succ horder)
      have hplace : ∀ q ∈ parts, order[q.2.index]? = some (w ++ q.1.way, q.1.element) := by
        intro q hq
        obtain ⟨start, stop, hstart, hprefix⟩ := hlocated q hq
        rw [Element.controlsAt_eq] at hprefix
        rw [hstart.index]
        exact getElem?_of_prefix_drop hprefix
      rw [Control.preorder_eq] at hd
      rcases List.mem_cons.mp hd with heq | hd
      · obtain ⟨rfl, rfl⟩ := Prod.mk.inj heq
        exact ⟨w, e, hall.nodeMirrors hparts ⟨part, hpart, helement⟩ hself hparent hplace⟩
      · obtain ⟨k, hk, hd⟩ := List.mem_flatMap.mp hd
        -- any other node is below one that is attached, to which the induction applies
        obtain ⟨q, hq, rfl⟩ := List.mem_map.mp (hall.attached.mem_iff.mp hk)
        obtain ⟨start, stop, hstart, hprefix⟩ := hlocated q hq
        have hlink : ParentMirrors order (w ++ q.1.way) q.1.element (some first) :=
          ⟨w, e, q.1, hmem q hq, hself, rfl, rfl⟩
        exact hstart.nodes order _ _ hprefix hlink p d hd

/-! ## §5 Documents -/

/-- A tree that was compiled from a document mirrors it. -/
theorem mirrors_of_runs {root : Element} {tree : Tree} (h : Runs (compileDocument s root) all (.ok tree)) :
    TreeMirrors s root all tree root.controls := by
  rw [compileDocument] at h
  obtain ⟨t, first, others, rfl, helement, h⟩ := Program.runs_bind_ok h
  obtain ⟨⟨c, next⟩, second, last, rfl, hcontrol, hdone⟩ := Program.runs_bind_ok h
  obtain ⟨rfl, hdone⟩ := Program.runs_pure_except.mp hdone
  cases hdone
  have hgrown : Grown s (first ++ (second ++ [])) 0 root c next :=
    ⟨t, first, second, infix_left (List.infix_refl _), infix_left (infix_right (List.infix_refl _)), helement, hcontrol⟩
  have hnumbers := hgrown.numbers
  -- the controls are listed from the root on, which has no parent
  have hnodes : ∀ parent d, (parent, d) ∈ c.preorder none →
      ∃ w e, NodeMirrors s (first ++ (second ++ [])) root.controls w e parent d := by
    intro parent d hd
    refine hnumbers.nodes root.controls [] none ?_ rfl parent d hd
    rw [List.drop_zero, Element.controlsAt]
    simp only [List.nil_append, List.map_id']
    exact List.prefix_refl _
  refine ⟨ascending_controls root, fun w e => mem_controls_iff, hnumbers.next.trans (Nat.zero_add _), ?_, hnodes, ?_⟩
  · rw [List.range_eq_range']
    exact hnumbers.indices
  · intro i w e hi
    obtain ⟨hlt, _⟩ := List.getElem?_eq_some_iff.mp hi
    have hindex : i ∈ c.indices := hnumbers.indices.mem_iff.mpr (List.mem_range'_1.mpr ⟨Nat.zero_le i, by omega⟩)
    obtain ⟨parent, d, hfound, hd, rfl⟩ := Tree.exists_locate? (t := ⟨c, next⟩) hindex
    obtain ⟨v, f, hnode⟩ := hnodes parent d hd
    -- there is one element at the place
    cases hnode.numbered.symm.trans hi
    exact ⟨parent, d, hfound, hnode⟩

/-- **Trees mirror their documents**: whoever makes the templates, a document that is compiled is mirrored by its tree.
No document is compiled in which a facet of a control has no key, or two of them the same. -/
theorem compileDocument_mirrors {σ : Type} (handle : Program.Handler CompileRequest.Answer σ) (s : Setting)
    (root : Element) (st : σ) {result : Except Error Tree} {events : List (Event CompileRequest.Answer)}
    (h : Program.trace handle (compileDocument s root) st = (result, events)) :
    (∀ tree, result = .ok tree → ∃ order, TreeMirrors s root events tree order) ∧
      ((∃ w e, IsControl root w e ∧ ¬ e.Keyed s) → ∃ err, result = .error err) := by
  have hruns : Runs (compileDocument s root) _ _ := Program.runs_trace handle (compileDocument s root) st
  rw [h] at hruns
  constructor
  · rintro tree rfl
    exact ⟨root.controls, mirrors_of_runs hruns⟩
  · -- each control of a compiled document has a node, whose facets have names
    rintro ⟨w, e, he, hkeys⟩
    cases result with
    | error err => exact ⟨err, rfl⟩
    | ok tree =>
      have hmirrors := mirrors_of_runs hruns
      obtain ⟨i, hi⟩ := List.mem_iff_getElem?.mp ((hmirrors.controls w e).mpr he)
      obtain ⟨parent, c, _, hnode⟩ := hmirrors.located i w e hi
      exact absurd hnode.keyed hkeys

/-- A page with a child between two elements for facets. -/
def keyedPage : String :=
  "<view xmlns:k=\"k\"><this.facets><text k:key=\"b\"/></this.facets><text/><this.facets><this.odd k:key=\"a\"/>" ++
    "</this.facets></view>"

theorem keyedPage_mirrors :
    ∃ root tree events order, Element.read keyedPage = .ok root ∧
      Program.trace grantAll (compileDocument looseKeys root) () = (.ok tree, events) ∧
      TreeMirrors looseKeys root events tree order ∧ order.length = 4 := by
  obtain ⟨root, hroot⟩ := Outcome.exists_of_isOk (show (Element.read keyedPage).isOk by decide +kernel)
  have hsize : (Program.trace grantAll (compileText looseKeys keyedPage) ()).1.toOption.map Tree.size = some 4 := by
    decide +kernel
  rw [compileText, hroot] at hsize
  cases hresult : Program.trace grantAll (compileDocument looseKeys root) () with
  | mk result events =>
    rw [hresult] at hsize
    cases result with
    | error err => cases hsize
    | ok tree =>
      obtain ⟨order, horder⟩ := (compileDocument_mirrors grantAll looseKeys root () hresult).1 tree rfl
      exact ⟨root, tree, events, order, hroot, hresult, horder, horder.size ▸ Option.some.inj hsize⟩

end PageTemplates.Markup
