import Mathlib.Algebra.GroupWithZero.Nat
import Mathlib.Data.Set.Function
import Mathlib.Order.Interval.Set.Defs
import PageTemplates.Proofs.Build.Lockstep

/-!
# One setter after the other

Setters of different properties are applied to a bag. Each is compared with a run of its own that is known already
(`Application`), wherever in the list it stands now: it succeeds as it did, does to the bag under its name what it did,
adds the elements that it added, and constructs the same components at other places (`exists_furnished`).

The components that a setter constructs take consecutive places. So the renaming that leads from one order to another
moves blocks of places; that the blocks are laid one after the other (`Laid`) is all that is needed to see that it is
one-to-one.
-/

namespace PageTemplates

/-! ## §1 Blocks of places -/

/-- A block of places: the first one, and how many there are. -/
abbrev Block := Nat × Nat

/-- A renaming lays blocks one after the other, beginning at a place. -/
def Laid (ρ : Nat → Nat) : List Block → Nat → Prop
  | [], _ => True
  | (start, length) :: rest, place => (∀ i < length, ρ (start + i) = place + i) ∧ Laid ρ rest (place + length)

/-- The number of places in blocks. -/
def total (blocks : List Block) : Nat := (blocks.map Prod.snd).sum

@[simp] theorem total_nil : total [] = 0 := rfl

@[simp] theorem total_cons (first : Block) (rest : List Block) : total (first :: rest) = first.2 + total rest := by
  rw [total, List.map_cons, List.sum_cons, total]

theorem total_perm {blocks permuted : List Block} (h : permuted.Perm blocks) : total permuted = total blocks :=
  (h.map Prod.snd).sum_nat

namespace Laid

variable {ρ σ : Nat → Nat} {blocks : List Block} {place : Nat}

theorem mem_range (h : Laid ρ blocks place) {e : Block} (he : e ∈ blocks) {i : Nat} (hi : i < e.2) :
    place ≤ ρ (e.1 + i) ∧ ρ (e.1 + i) < place + total blocks := by
  induction blocks generalizing place with
  | nil => cases he
  | cons first rest ih =>
    rw [total_cons]
    -- the block is the first one, or it is laid behind the first one by induction
    rcases List.mem_cons.mp he with rfl | he
    · rw [h.1 i hi]
      omega
    · have hrest := ih h.2 he
      omega

/-- Different places in blocks are laid at different places. -/
theorem injective (h : Laid ρ blocks place) {e f : Block} (he : e ∈ blocks) (hf : f ∈ blocks) {i j : Nat}
    (hi : i < e.2) (hj : j < f.2) (heq : ρ (e.1 + i) = ρ (f.1 + j)) : e.1 + i = f.1 + j := by
  induction blocks generalizing place with
  | nil => cases he
  | cons first rest ih =>
    rcases List.mem_cons.mp he with rfl | hrest <;> rcases List.mem_cons.mp hf with rfl | hrest'
    · rw [h.1 i hi, h.1 j hj] at heq
      omega
    · -- what comes later is laid behind the first block
      have hbehind := h.2.mem_range hrest' hj
      rw [← heq, h.1 i hi] at hbehind
      omega
    · have hbehind := h.2.mem_range hrest hi
      rw [heq, h.1 j hj] at hbehind
      omega
    · exact ih h.2 hrest hrest'

/-- No place is left out. -/
theorem surjective (h : Laid ρ blocks place) {r : Nat} (hle : place ≤ r) (hlt : r < place + total blocks) :
    ∃ e ∈ blocks, ∃ i < e.2, ρ (e.1 + i) = r := by
  induction blocks generalizing place with
  | nil =>
    rw [total_nil] at hlt
    omega
  | cons first rest ih =>
    rw [total_cons] at hlt
    by_cases hfirst : r < place + first.2
    · refine ⟨first, List.mem_cons_self, r - place, by omega, ?_⟩
      rw [h.1 _ (by omega)]
      omega
    · obtain ⟨e, he, i, hi, heq⟩ := ih h.2 (by omega) (by omega)
      exact ⟨e, List.mem_cons_of_mem _ he, i, hi, heq⟩

/-- Whether blocks are laid depends on their places alone. -/
theorem congr (h : Laid ρ blocks place) (heq : ∀ e ∈ blocks, ∀ i < e.2, σ (e.1 + i) = ρ (e.1 + i)) :
    Laid σ blocks place := by
  induction blocks generalizing place with
  | nil => trivial
  | cons first rest ih =>
    refine ⟨fun i hi => (heq first List.mem_cons_self i hi).trans (h.1 i hi), ?_⟩
    exact ih h.2 fun e he => heq e (List.mem_cons_of_mem _ he)

theorem take (h : Laid ρ blocks place) (k : Nat) : Laid ρ (blocks.take k) place := by
  -- the first blocks are laid without regard to the others
  induction blocks generalizing place k with
  | nil => rwa [List.take_nil]
  | cons first rest ih =>
    cases k with
    | zero => trivial
    | succ k => exact ⟨h.1, ih h.2 k⟩

end Laid

/-- Two blocks have no place in common. -/
def Apart (e f : Block) : Prop := ∀ i < e.2, ∀ j < f.2, e.1 + i ≠ f.1 + j

/-- Blocks that lie one after the other are apart from each other. -/
theorem pairwise_apart_of_laid {blocks : List Block} {place : Nat} (h : Laid id blocks place) :
    blocks.Pairwise Apart := by
  induction blocks generalizing place with
  | nil => exact .nil
  | cons first rest ih =>
    refine List.pairwise_cons.mpr ⟨fun e he i hi j hj heq => ?_, ih h.2⟩
    have hfirst := h.1 i hi
    have hbehind := (h.2.mem_range he hj).1
    rw [← heq] at hbehind
    omega

/-- Lays blocks one after the other, and leaves all other places as they are. -/
def relocate : List Block → Nat → Nat → Nat
  | [], _, r => r
  | (start, length) :: rest, place, r =>
    if start ≤ r ∧ r < start + length then place + (r - start) else relocate rest (place + length) r

/-- A place that is in no block stays as it is. -/
theorem relocate_eq_self {blocks : List Block} {r : Nat} (h : ∀ e ∈ blocks, ∀ i < e.2, e.1 + i ≠ r) (place : Nat) :
    relocate blocks place r = r := by
  induction blocks generalizing place with
  | nil => rfl
  | cons first rest ih =>
    obtain ⟨hfirst, hrest⟩ := List.forall_mem_cons.mp h
    -- it is not in the first block, and then not in the others by induction
    rw [relocate, if_neg]
    · exact ih hrest _
    · rintro ⟨hle, hlt⟩
      exact hfirst (r - first.1) (by omega) (by omega)

/-- Blocks that are apart from each other are laid one after the other. -/
theorem laid_relocate {blocks : List Block} (h : blocks.Pairwise Apart) (place : Nat) :
    Laid (relocate blocks place) blocks place := by
  induction blocks generalizing place with
  | nil => trivial
  | cons first rest ih =>
    obtain ⟨hfirst, hrest⟩ := List.pairwise_cons.mp h
    constructor
    · intro i hi
      rw [relocate, if_pos (by omega)]
      omega
    · -- the places of the other blocks are not in the first one, so that they are laid as if it were not there
      refine (ih hrest _).congr fun e he i hi => ?_
      rw [relocate, if_neg]
      rintro ⟨hle, hlt⟩
      exact hfirst e he (e.1 + i - first.1) (by omega) i hi (by omega)

/-- A renaming that lays consecutive blocks in another order is one-to-one up to the last block. -/
theorem Laid.bijOn {ρ : Nat → Nat} {blocks permuted : List Block} {n : Nat} (hold : ∀ r < n, ρ r = r)
    (h : Laid id blocks n) (hρ : Laid ρ permuted n) (hperm : permuted.Perm blocks) :
    Set.BijOn ρ (Set.Iio (n + total blocks)) (Set.Iio (n + total blocks)) := by
  have htotal := total_perm hperm
  -- a place is an old one, or in one of the blocks
  have hcases : ∀ r < n + total blocks, r < n ∨ ∃ e ∈ permuted, ∃ i < e.2, e.1 + i = r := by
    intro r hr
    by_cases hlt : r < n
    · exact .inl hlt
    · obtain ⟨e, he, i, hi, heq⟩ := h.surjective (Nat.le_of_not_lt hlt) hr
      exact .inr ⟨e, hperm.mem_iff.mpr he, i, hi, heq⟩
  refine ⟨fun r hr => ?_, fun r hr q hq heq => ?_, fun r hr => ?_⟩
  · rcases hcases r hr with hlt | ⟨e, he, i, hi, rfl⟩
    · rw [hold r hlt]
      exact hr
    · rw [← htotal]
      exact (hρ.mem_range he hi).2
  · rcases hcases r hr with hlt | ⟨e, he, i, hi, rfl⟩ <;> rcases hcases q hq with hlt' | ⟨f, hf, j, hj, rfl⟩
    · rwa [hold r hlt, hold q hlt'] at heq
    · have hrange := (hρ.mem_range hf hj).1
      rw [← heq, hold r hlt] at hrange
      omega
    · have hrange := (hρ.mem_range he hi).1
      rw [heq, hold q hlt'] at hrange
      omega
    · exact hρ.injective he hf hi hj heq
  · by_cases hlt : r < n
    · exact ⟨r, hr, hold r hlt⟩
    · obtain ⟨e, he, i, hi, heq⟩ := hρ.surjective (Nat.le_of_not_lt hlt) (htotal ▸ hr)
      exact ⟨e.1 + i, (h.mem_range (hperm.mem_iff.mp he) hi).2, heq⟩

/-- A renaming that lays consecutive blocks in another order, and leaves all other places as they are, is one-to-one. -/
theorem injective_relocate {blocks permuted : List Block} {n : Nat} (h : Laid id blocks n)
    (hperm : permuted.Perm blocks) : Function.Injective (relocate permuted n) := by
  have hinside : ∀ e ∈ permuted, ∀ i < e.2, n ≤ e.1 + i ∧ e.1 + i < n + total blocks :=
    fun e he i hi => h.mem_range (hperm.mem_iff.mp he) hi
  have hlaid := laid_relocate ((hperm.symm.pairwise_iff fun h i hi j hj heq => h j hj i hi heq.symm).mp
    (pairwise_apart_of_laid h)) n
  -- places before the blocks and behind them stay as they are
  have hbefore : ∀ r < n, relocate permuted n r = r := by
    intro r hr
    refine relocate_eq_self (fun e he i hi heq => ?_) n
    have hle := (hinside e he i hi).1
    omega
  have hbehind : ∀ r, n + total blocks ≤ r → relocate permuted n r = r := by
    intro r hr
    refine relocate_eq_self (fun e he i hi heq => ?_) n
    have hlt := (hinside e he i hi).2
    omega
  have hbij := Laid.bijOn hbefore h hlaid hperm
  -- places inside go to places inside, and all others stay, so that a place inside and one outside never meet
  intro r q heq
  by_cases hr : r < n + total blocks <;> by_cases hq : q < n + total blocks
  · exact hbij.injOn hr hq heq
  · have hmaps : relocate permuted n r < n + total blocks := hbij.mapsTo hr
    rw [heq, hbehind q (Nat.le_of_not_lt hq)] at hmaps
    exact absurd hmaps hq
  · have hmaps : relocate permuted n q < n + total blocks := hbij.mapsTo hq
    rw [← heq, hbehind r (Nat.le_of_not_lt hr)] at hmaps
    exact absurd hmaps hr
  · rwa [hbehind r (Nat.le_of_not_lt hr), hbehind q (Nat.le_of_not_lt hq)] at heq

/-! ## §2 One setter -/

/-- A setter can be compared with itself elsewhere: it writes under its own name, and knows only objects at places below
a bound. -/
structure Setter.Ready (n : Nat) (setter : Setter Template) : Prop where
  consistent : setter.Consistent
  below : setter.Below n
  nested : ∀ t ∈ setter.nested, t.Knows n

/-- What has become of a setter that was applied to a bag. -/
structure Application where
  setter : Setter Template
  before : World
  after : World
  bag : Bag
  /-- The bag afterwards. -/
  grown : Bag
  /-- The elements that the setter has added. -/
  added : List (String × Value)

namespace Application

def name (x : Application) : String := x.setter.name

/-- The places of the components that have been constructed meanwhile. -/
def block (x : Application) : Block := (x.before.size, x.after.size - x.before.size)

/-- The setter was applied at a site with success, when the bag held under its name what the bag held at first. -/
structure Valid (ctx : Context) (s : Site) (first : Bag) (x : Application) : Prop where
  run : ctx.run (s.apply (Template.nestSetter x.setter)) x.before = (.ok (), x.after)
  bag : x.before.store.get? s.component.ref = some (.bag x.bag)
  grown : x.after.store.get? s.component.ref = some (.bag x.grown)
  entry : x.bag.entry x.name = first.entry x.name
  items : x.grown.items = x.bag.items ++ x.added

end Application

/-- Setters have done to a bag at a place what they did before, up to a renaming of places. -/
structure Furnished (ρ : Nat → Nat) (site : Nat) (xs : List Application) (w : World) (b : Bag) (v : World) (d : Bag) :
    Prop where
  bag : v.store.get? site = some (.bag d)
  size : v.size = w.size + total (xs.map Application.block)
  entry : ∀ x ∈ xs, d.entry x.name = (x.grown.entry x.name).rename ρ
  others : ∀ name, name ∉ xs.map Application.name → d.entry name = b.entry name
  items : d.items = b.items ++ xs.flatMap fun x => x.added.map (renameElement ρ)
  /-- The components that were constructed are here again. -/
  cells : ∀ x ∈ xs, ∀ i < x.block.2, v.store.get? (ρ (x.before.size + i)) =
    (x.after.store.get? (x.before.size + i)).map (Component.rename ρ)
  kept : ∀ r < w.size, r ≠ site → v.store.get? r = w.store.get? r
  typeName : d.typeName = b.typeName
  inclusion : d.inclusion = b.inclusion

section Furnish

variable {ctx : Context} {s : Site} {n : Nat} {first b : Bag} {w : World} {ρ : Nat → Nat} {x : Application}

/-- A setter that succeeds on one bag does so on another, and the stores stay the same up to the renaming. -/
theorem Site.mirrors_apply (hρ : Function.Injective ρ) (hctx : ctx.Knows n) {setter : Setter Template} (hready : setter.Ready n)
    {u w' : World} {b' : Bag} (hb : w.store.get? s.component.ref = some (.bag b))
    (hb' : w'.store.get? s.component.ref = some (.bag b'))
    (hrun : ctx.run (s.apply (Template.nestSetter setter)) w = (.ok (), u)) (hold : ∀ r < n, ρ r = r)
    (hblock : ∀ i, w.size + i < u.size → ρ (w.size + i) = w'.size + i) :
    ∃ v, ctx.run (s.apply (Template.nestSetter setter)) w' = (.ok (), v) ∧
      (Comparison.mk w.store w'.store ρ hρ u.size s.component.ref (· = setter.name)).Mirrors u.store v.store := by
  let C : Comparison := ⟨w.store, w'.store, ρ, hρ, u.size, s.component.ref, (· = setter.name)⟩
  have hC : C.Fits n := ⟨hold, hblock⟩
  have hsites : C.Sites (Write.Among C.names) s s := ⟨rfl, rfl, Comparison.takes_site hb hb'⟩
  have hlockstep := Comparison.lockstep_apply hC hctx hsites (.inr ⟨hready.consistent, fun _ h => h⟩) hready.below
    (fun t ht => t.lockstep_instantiate hC hctx (hready.nested t ht)) w w' C.mirrors_start
  -- the first run ends just at the bound, and it has succeeded, so that the other one does
  rw [hrun] at hlockstep
  obtain ⟨halike, hstores⟩ := hlockstep (Nat.le_refl _)
  generalize ctx.run (s.apply (Template.nestSetter setter)) w' = outcome at halike hstores
  obtain ⟨_ | _, v⟩ := outcome
  · cases halike
  · exact ⟨v, rfl, hstores⟩

/-- A setter that succeeds on a bag adds elements, and writes nothing under other names. -/
theorem exists_application (hctx : ctx.Knows n) {setter : Setter Template} (hready : setter.Ready n) {u : World}
    (hb : w.store.get? s.component.ref = some (.bag b)) (hentry : b.entry setter.name = first.entry setter.name)
    (hrun : ctx.run (s.apply (Template.nestSetter setter)) w = (.ok (), u)) :
    ∃ x : Application, x.setter = setter ∧ x.before = w ∧ x.after = u ∧ x.Valid ctx s first ∧
      ∀ name, name ≠ setter.name → x.grown.entry name = b.entry name := by
  -- it is compared with itself
  obtain ⟨v, hagain, hstores⟩ := Site.mirrors_apply Function.injective_id hctx hready hb hb hrun (fun _ _ => rfl) fun _ _ => rfl
  obtain rfl : v = u := congrArg Prod.snd (hagain.symm.trans hrun)
  -- compared with itself a bag has grown by the elements that the setter has added
  obtain ⟨grown, _, hgrown, -, halike⟩ := hstores.site b b hb hb
  obtain ⟨added, hitems, -⟩ := halike.items
  exact ⟨⟨setter, w, v, b, grown, added⟩, rfl, rfl, rfl, ⟨hrun, hb, hgrown, hentry, hitems⟩, halike.left⟩

/-- A setter that has succeeded once succeeds again, and does the same. -/
theorem Application.Valid.again (hx : x.Valid ctx s first) (hctx : ctx.Knows n) (hready : x.setter.Ready n)
    (hb : w.store.get? s.component.ref = some (.bag b)) (hentry : b.entry x.name = first.entry x.name)
    (hfirst : (first.entry x.name).rename ρ = first.entry x.name) (hρ : Function.Injective ρ) (hold : ∀ r < n, ρ r = r)
    (hblock : ∀ i < x.block.2, ρ (x.before.size + i) = w.size + i) :
    ∃ v d, ctx.run (s.apply (Template.nestSetter x.setter)) w = (.ok (), v) ∧
      Furnished ρ s.component.ref [x] w b v d := by
  obtain ⟨v, hrun, hstores⟩ := Site.mirrors_apply hρ hctx hready hx.bag hb hx.run hold fun i hi =>
    hblock i (Nat.lt_sub_of_add_lt (Nat.add_comm i _ ▸ hi))
  obtain ⟨grown, d, hgrown, hd, halike⟩ := hstores.site x.bag b hx.bag hb
  obtain rfl : x.grown = grown := Component.bag.inj (Option.some.inj (hx.grown.symm.trans hgrown))
  obtain ⟨m, hafter, hsize⟩ := hstores.size
  -- the setter constructs as many components as it has before
  have hlength : x.block.2 = m := by
    show x.after.store.cells.size - x.before.store.cells.size = m
    rw [hafter]
    exact Nat.add_sub_cancel_left ..
  refine ⟨v, d, hrun, hd, ?_, ?_, ?_, ?_, ?_, hstores.right, halike.typeName.2, halike.inclusion.2⟩
  · rw [List.map_singleton, total_cons, total_nil, Nat.add_zero, hlength]
    exact hsize
  · -- under the name of the setter both bags have held the same, and do so afterwards
    intro y hy
    obtain rfl := List.mem_singleton.mp hy
    refine halike.entry y.name ?_
    rw [hentry, hx.entry, hfirst]
  · intro name hname
    exact halike.right name fun heq => hname (List.mem_singleton.mpr heq)
  · obtain ⟨added, hitems, hitems'⟩ := halike.items
    obtain rfl : x.added = added := List.append_cancel_left (hx.items.symm.trans hitems)
    rw [hitems', List.flatMap_singleton]
  · intro y hy i hi
    obtain rfl := List.mem_singleton.mp hy
    rw [hblock i hi]
    exact hstores.fresh i

theorem Furnished.size_singleton {site : Nat} {v : World} {d : Bag} (h : Furnished ρ site [x] w b v d) :
    v.size = w.size + x.block.2 := by
  rw [h.size, List.map_singleton, total_cons, total_nil, Nat.add_zero]

/-- Setters of different properties one after the other. -/
theorem Furnished.cons {site : Nat} {xs : List Application} {u v : World} {e d : Bag}
    (hname : x.name ∉ xs.map Application.name) (hsite : site < w.size)
    (hblock : ∀ i < x.block.2, ρ (x.before.size + i) = w.size + i) (hx : Furnished ρ site [x] w b u e)
    (h : Furnished ρ site xs u e v d) : Furnished ρ site (x :: xs) w b v d := by
  have hsize := hx.size_singleton
  -- what the first setter has done stays, because the others write under other names and to other places
  refine ⟨h.bag, ?_, ?_, fun name hnotMem => ?_, ?_, ?_, fun r hr hne => ?_, h.typeName.trans hx.typeName,
    h.inclusion.trans hx.inclusion⟩
  · rw [h.size, hsize, List.map_cons, total_cons, Nat.add_assoc]
  · refine List.forall_mem_cons.mpr ⟨?_, h.entry⟩
    -- what comes later is for other properties
    rw [h.others x.name hname]
    exact hx.entry x List.mem_cons_self
  · obtain ⟨hne, hrest⟩ := not_or.mp (fun hor => hnotMem (List.mem_cons.mpr hor))
    rw [h.others name hrest]
    exact hx.others name fun hmem => hne (List.mem_singleton.mp hmem)
  · rw [h.items, hx.items, List.flatMap_singleton, List.flatMap_cons, List.append_assoc]
  · refine List.forall_mem_cons.mpr ⟨fun i hi => ?_, h.cells⟩
    have hplace := hblock i hi
    rw [h.kept _ (by omega) (by omega)]
    exact hx.cells x List.mem_cons_self i hi
  · rw [h.kept r (by omega) hne]
    exact hx.kept r hr hne

theorem Furnished.nil {site : Nat} (hb : w.store.get? site = some (.bag b)) : Furnished ρ site [] w b w b :=
  ⟨hb, rfl, List.forall_mem_nil _, fun _ _ => rfl, (List.append_nil _).symm, List.forall_mem_nil _, fun _ _ _ => rfl,
    rfl, rfl⟩

/-! ## §3 All setters -/

variable {setters : List (Setter Template)} {v : World}

theorem Context.run_applyAll_cons (ctx : Context) (s : Site) (setter : Setter Template) (w : World) :
    ctx.run (s.applyAll ((setter :: setters).map Template.nestSetter)) w =
      match ctx.run (s.apply (Template.nestSetter setter)) w with
      | (.ok _, u) => ctx.run (s.applyAll (setters.map Template.nestSetter)) u
      | (.error e, u) => (.error e, u) := by
  rw [List.map_cons, Site.applyAll, ctx.run_bind]
  rcases ctx.run (s.apply (Template.nestSetter setter)) w with ⟨_ | _, u⟩ <;> rfl

/-- Of setters that succeed one after the other, each has been applied with success, and their components lie one after
the other. -/
theorem exists_applications (hctx : ctx.Knows n) (hready : ∀ setter ∈ setters, setter.Ready n)
    (hnodup : (setters.map Setter.name).Nodup) (hb : w.store.get? s.component.ref = some (.bag b))
    (hentry : ∀ setter ∈ setters, b.entry setter.name = first.entry setter.name)
    (hrun : ctx.run (s.applyAll (setters.map Template.nestSetter)) w = (.ok (), v)) :
    ∃ xs : List Application, xs.map Application.setter = setters ∧ (∀ x ∈ xs, x.Valid ctx s first) ∧
      Laid id (xs.map Application.block) w.size := by
  -- by induction on the setters: the first one leaves what is under the names of the others, so that they begin as they
  -- would have begun without it
  induction setters generalizing w b with
  | nil => exact ⟨[], rfl, List.forall_mem_nil _, trivial⟩
  | cons setter rest ih =>
    obtain ⟨hsetter, hrest⟩ := List.forall_mem_cons.mp hready
    obtain ⟨hname, hnames⟩ := List.nodup_cons.mp hnodup
    obtain ⟨hown, hothers⟩ := List.forall_mem_cons.mp hentry
    have hsize := ctx.size_le_run (s.apply (Template.nestSetter setter)) w
    rw [ctx.run_applyAll_cons] at hrun
    cases happlied : ctx.run (s.apply (Template.nestSetter setter)) w with
    | mk result u =>
      rw [happlied] at hrun hsize
      cases result with
      | error e => cases hrun
      | ok _ =>
        obtain ⟨x, rfl, rfl, rfl, hx, hkept⟩ := exists_application hctx hsetter hb hown happlied
        -- what is under the names of the others is as it was
        have hentry : ∀ y ∈ rest, x.grown.entry y.name = first.entry y.name := by
          intro y hy
          rw [hkept y.name fun heq => hname (heq ▸ List.mem_map_of_mem hy)]
          exact hothers y hy
        obtain ⟨xs, hxs, hvalid, hlaid⟩ := ih hrest hnames hx.grown hentry hrun
        refine ⟨x :: xs, by rw [List.map_cons, hxs], List.forall_mem_cons.mpr ⟨hx, hvalid⟩, fun _ _ => rfl, ?_⟩
        rwa [Nat.add_sub_cancel' hsize]

/-- **Setters do the same in every order.** Applied in whatever order, setters that have succeeded succeed again, and do
the same up to a renaming that lays what they construct one after the other. -/
theorem exists_furnished (hctx : ctx.Knows n) {xs : List Application} (hvalid : ∀ x ∈ xs, x.Valid ctx s first)
    (hready : ∀ x ∈ xs, x.setter.Ready n) (hnodup : (xs.map Application.name).Nodup)
    (hb : w.store.get? s.component.ref = some (.bag b)) (hentry : ∀ x ∈ xs, b.entry x.name = first.entry x.name)
    (hfirst : ∀ name, (first.entry name).rename ρ = first.entry name) (hρ : Function.Injective ρ)
    (hold : ∀ r < n, ρ r = r) (hlaid : Laid ρ (xs.map Application.block) w.size) :
    ∃ v d, ctx.run (s.applyAll ((xs.map Application.setter).map Template.nestSetter)) w = (.ok (), v) ∧
      Furnished ρ s.component.ref xs w b v d := by
  -- by induction on the setters, the first of which is applied again to the bag as it is now
  induction xs generalizing w b with
  | nil => exact ⟨w, b, rfl, .nil hb⟩
  | cons x rest ih =>
    obtain ⟨hx, hvalid⟩ := List.forall_mem_cons.mp hvalid
    obtain ⟨hxready, hready⟩ := List.forall_mem_cons.mp hready
    obtain ⟨hname, hnodup⟩ := List.nodup_cons.mp hnodup
    obtain ⟨hown, hothers⟩ := List.forall_mem_cons.mp hentry
    obtain ⟨hblock, hlaid⟩ : (∀ i < x.block.2, ρ (x.before.size + i) = w.size + i) ∧
      Laid ρ (rest.map Application.block) (w.size + x.block.2) := hlaid
    obtain ⟨u, e, hrun, hfurnished⟩ := hx.again hctx hxready hb hown (hfirst x.name) hρ hold hblock
    have hentry : ∀ y ∈ rest, e.entry y.name = first.entry y.name := by
      intro y hy
      rw [hfurnished.others y.name fun hmem => hname (List.mem_singleton.mp hmem ▸ List.mem_map_of_mem hy)]
      exact hothers y hy
    rw [← hfurnished.size_singleton] at hlaid
    obtain ⟨v, d, hrest, hall⟩ := ih hvalid hready hnodup hfurnished.bag hentry hlaid
    refine ⟨v, d, ?_, .cons hname (Store.lt_size_of_get? hb) hblock hfurnished hall⟩
    rw [List.map_cons, ctx.run_applyAll_cons, hrun]
    exact hrest

end Furnish

end PageTemplates
