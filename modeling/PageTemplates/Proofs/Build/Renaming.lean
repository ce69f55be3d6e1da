import PageTemplates.Proofs.Build.Bags

/-!
# Renaming places

A component is known by its place in the store, and the place depends on how many components have been constructed
before. So what is built at different times is the same only up to a renaming of the places of its objects.

Two stores are compared from two earlier stores on (`Comparison`): what has been added to the one is what has been added
to the other, renamed, and one bag that was there before, the site, has been written to in the same way
(`Comparison.Mirrors`). Constructing a component keeps stores so (`Blueprint.build_mirrors`), because no operation looks
at a place but to find the component there. The components may behave in any way, if only they do not see where objects
are (`Conduct.Blind`); that they can tell them apart does no harm, because places are renamed one to one.

## Structure

- §1 renames the objects of values, writes and components, and says what a component does not see.
- §2 says what a bag holds under a name, and what a write does to that.
- §3 compares two stores.
- §4 compares two constructions.
-/

namespace PageTemplates

/-! ## §1 Renaming -/

/-- The same object at another place. -/
def Handle.rename (ρ : Nat → Nat) (h : Handle) : Handle := { h with ref := ρ h.ref }

namespace Value

mutual

/-- The value with its objects at other places. -/
def rename (ρ : Nat → Nat) : Value → Value
  | .list items => .list (renameItems ρ items)
  | .object h => .object (h.rename ρ)
  | .null => .null
  | .bool b => .bool b
  | .int i => .int i
  | .double d => .double d
  | .text s => .text s

/-- The items of a list with their objects at other places. -/
def renameItems (ρ : Nat → Nat) : List Value → List Value
  | [] => []
  | v :: rest => v.rename ρ :: renameItems ρ rest

end

mutual

/-- All objects of a value are at places below a bound. -/
def Below (n : Nat) : Value → Prop
  | .list items => ItemsBelow n items
  | .object h => h.ref < n
  | .null | .bool _ | .int _ | .double _ | .text _ => True

/-- All objects of the items of a list are at places below a bound. -/
def ItemsBelow (n : Nat) : List Value → Prop
  | [] => True
  | v :: rest => v.Below n ∧ ItemsBelow n rest

end

theorem itemsBelow_iff {n : Nat} {items : List Value} : ItemsBelow n items ↔ ∀ v ∈ items, v.Below n := by
  induction items with
  | nil => simp [ItemsBelow]
  | cons v rest ih => simp [ItemsBelow, ih]

variable {ρ : Nat → Nat} {n : Nat}

mutual

/-- A renaming that leaves all places below a bound leaves a value whose objects are below it. -/
theorem rename_eq_self (hρ : ∀ r < n, ρ r = r) : ∀ {v : Value}, v.Below n → v.rename ρ = v
  | .list items, h => by rw [rename, renameItems_eq_self hρ h]
  | .object o, h => by rw [rename, Handle.rename, hρ _ h]
  | .null, _ | .bool _, _ | .int _, _ | .double _, _ | .text _, _ => by rw [rename]

theorem renameItems_eq_self (hρ : ∀ r < n, ρ r = r) : ∀ {items : List Value}, ItemsBelow n items →
    renameItems ρ items = items
  | [], _ => by rw [renameItems]
  | v :: rest, h => by rw [renameItems, rename_eq_self hρ h.1, renameItems_eq_self hρ h.2]

end

mutual

@[simp] theorem rename_id : ∀ v : Value, v.rename id = v
  | .list items => by rw [rename, renameItems_id items]
  | .null | .bool _ | .int _ | .double _ | .text _ | .object _ => by simp only [rename, Handle.rename, id_eq]

@[simp] theorem renameItems_id : ∀ items : List Value, renameItems id items = items
  | [] => by rw [renameItems]
  | v :: rest => by rw [renameItems, rename_id v, renameItems_id rest]

end

mutual

/-- The text of a value does not show where its objects are. -/
@[simp] theorem display_rename : ∀ v : Value, (v.rename ρ).display = v.display
  | .list items => by rw [rename, display, display, displayItems_rename items]
  | .object h => by rw [rename, display, display, Handle.rename]
  | .null | .bool _ | .int _ | .double _ | .text _ => by rw [rename]

@[simp] theorem displayItems_rename : ∀ items : List Value, displayItems (renameItems ρ items) = displayItems items
  | [] => by rw [renameItems]
  | [v] => by simp only [renameItems, displayItems, display_rename v]
  | v :: other :: rest => by
    have hrest := displayItems_rename (other :: rest)
    rw [renameItems] at hrest
    simp only [renameItems, displayItems, display_rename v, hrest]

end

end Value

namespace NameMap

variable {α β : Type}

/-- The map with other values under the same names. -/
def map (f : α → β) (m : NameMap α) : NameMap β := ⟨m.entries.map fun e => (e.1, f e.2)⟩

theorem find?_map (f : α → β) (m : NameMap α) (name : String) : (m.map f).find? name = (m.find? name).map f := by
  obtain ⟨entries⟩ := m
  unfold find? map
  dsimp only
  -- the first entry of the name is at the same place in both
  induction entries with
  | nil => rfl
  | cons e rest ih =>
    by_cases hname : e.1 = name
    · simp [lookup, hname]
    · simpa [lookup, hname] using ih

@[simp] theorem map_id (m : NameMap α) : m.map (fun a => a) = m := by
  simp [map]

/-- Renaming values does not change where an entry is placed, because entries are in the order of their names. -/
theorem map_insert (f : α → β) (m : NameMap α) (name : String) (a : α) :
    (m.insert name a).map f = (m.map f).insert name (f a) := by
  obtain ⟨entries⟩ := m
  unfold map insert
  congr 1
  induction entries with
  | nil => rfl
  | cons e rest ih =>
    obtain ⟨n, b⟩ := e
    simp only [List.map_cons, place]
    split
    · rfl
    · split
      · rfl
      · -- the name comes later
        exact congrArg _ ih

end NameMap

/-- The write with its objects at other places. -/
def Write.rename (ρ : Nat → Nat) : Write → Write
  | .property name v => .property name (v.rename ρ)
  | .item addMethod v => .item addMethod (v.rename ρ)
  | .id text => .id text
  | .rendered flag => .rendered flag
  | .liveValue name b => .liveValue name b
  | .callable name c => .callable name c

/-- The element of a bag with its objects at other places. -/
def renameElement (ρ : Nat → Nat) (e : String × Value) : String × Value := (e.1, e.2.rename ρ)

/-- The bag with its objects at other places. -/
def Bag.rename (ρ : Nat → Nat) (b : Bag) : Bag :=
  { b with properties := b.properties.map (Value.rename ρ), items := b.items.map (renameElement ρ) }

/-- The component after the same writes with objects at other places. -/
def Plain.rename (ρ : Nat → Nat) (p : Plain) : Plain := { p with asked := p.asked.map (Write.rename ρ) }

namespace Component

variable {ρ : Nat → Nat}

/-- The component with its objects at other places. -/
def rename (ρ : Nat → Nat) : Component → Component
  | .bag b => .bag (b.rename ρ)
  | .plain p => .plain (p.rename ρ)

@[simp] theorem typeName_rename (c : Component) : (c.rename ρ).typeName = c.typeName := by
  cases c <;> rfl

end Component

@[simp] theorem map_renameElement_id (es : List (String × Value)) : es.map (renameElement id) = es :=
  List.map_id'' (fun e => by simp [renameElement]) es

@[simp] theorem map_writeRename_id (ws : List Write) : ws.map (Write.rename id) = ws :=
  List.map_id'' (fun w => by cases w <;> simp [Write.rename]) ws

theorem Component.rename_id (c : Component) : c.rename id = c := by
  have hvalue : Value.rename id = fun v => v := funext Value.rename_id
  cases c <;> simp [rename, Bag.rename, Plain.rename, hvalue]

/-! ### Components that do not see places -/

/-- A component of this conduct may tell objects apart, but it does not see where they are. -/
structure Conduct.Blind (k : Conduct) : Prop where
  answer : ∀ {ρ : Nat → Nat}, Function.Injective ρ → ∀ before w,
    k.answer (before.map (Write.rename ρ)) (w.rename ρ) = k.answer before w
  yields : ∀ {ρ : Nat → Nat}, Function.Injective ρ → ∀ before, k.yields (before.map (Write.rename ρ)) = k.yields before

/-- A component that looks at no place. A bag looks at nothing. -/
def Component.Blind : Component → Prop
  | .bag _ => True
  | .plain p => p.conduct.Blind

/-- Of all writes only those of properties have to be looked at. -/
theorem Conduct.blind_ofProperties {answer : List Write → String → Value → Except WriteError Unit}
    (h : ∀ {ρ : Nat → Nat}, Function.Injective ρ → ∀ before name v,
      answer (before.map (Write.rename ρ)) name (v.rename ρ) = answer before name v) :
    (Conduct.ofProperties answer).Blind where
  yields _ _ := rfl
  answer hρ before w := by
    cases w with
    | property name v => exact h hρ before name v
    -- an id and a flag hold no objects: what is written for them is its own renaming
    | id text => exact h hρ before "id" (.text text)
    | rendered flag => exact h hρ before "rendered" (.bool flag)
    | item addMethod v | liveValue name b | callable name c => rfl

/-- A refusal shows a value by its text, in which there are no places. -/
theorem Conduct.blind_refusing (refusals : NameMap Refusal) : (Conduct.refusing refusals).Blind := by
  refine Conduct.blind_ofProperties fun _ before name v => ?_
  cases refusals.find? name with
  | none => rfl
  | some r => cases r <;> simp [Refusal.error]

theorem Conduct.Blind.yielding {k : Conduct} (h : k.Blind) (callable : Option Callable) : (k.yielding callable).Blind :=
  ⟨h.answer, fun _ _ => rfl⟩

section Writes

variable {ρ : Nat → Nat}

theorem Bag.write_rename (b : Bag) (w : Write) : (b.rename ρ).write (w.rename ρ) = (b.write w).rename ρ := by
  cases w with
  | property name v => simp only [Bag.write, Write.rename, Bag.rename, NameMap.map_insert]
  | rendered flag => simp only [Bag.write, Write.rename, Bag.rename, NameMap.map_insert, Value.rename]
  | item addMethod v => simp [Bag.write, Write.rename, Bag.rename, renameElement]
  | id text | liveValue name v | callable name c => rfl

namespace Component

variable {c : Component}

theorem Blind.yields_rename (hc : c.Blind) (hρ : Function.Injective ρ) : (c.rename ρ).yields = c.yields := by
  cases c with
  | bag b => rfl
  | plain p => exact Conduct.Blind.yields hc hρ p.asked

theorem Blind.write (hc : c.Blind) (w : Write) : (c.write w).2.Blind := by
  cases c <;> exact hc

theorem Blind.wirePage (hc : c.Blind) (page : String) (builder : Option PageBuilder) :
    (c.wirePage page builder).Blind := by
  cases c <;> exact hc

/-- A component takes a write, or refuses it, wherever the objects are. -/
theorem Blind.write_rename (hc : c.Blind) (hρ : Function.Injective ρ) (w : Write) :
    (c.rename ρ).write (w.rename ρ) = ((c.write w).1, (c.write w).2.rename ρ) := by
  cases c with
  | bag b => exact congrArg (fun b => (Except.ok (), Component.bag b)) (b.write_rename w)
  | plain p =>
    have hanswer : p.conduct.answer (p.asked.map (Write.rename ρ)) (w.rename ρ) = p.conduct.answer p.asked w :=
      Conduct.Blind.answer hc hρ p.asked w
    simp [rename, Component.write, Plain.write, Plain.rename, hanswer]

end Component

theorem Write.asProperty?_rename (w : Write) :
    (w.rename ρ).asProperty? = w.asProperty?.map fun e => (e.1, e.2.rename ρ) := by
  cases w <;> simp [rename, asProperty?, Value.rename]

/-- The properties that a component has taken hold the same objects at other places. -/
theorem Plain.properties_rename {p : Plain} (hp : p.conduct.Blind) (hρ : Function.Injective ρ) :
    (p.rename ρ).properties = p.properties.map (Value.rename ρ) := by
  -- what has been asked before is the same up to places as well
  have htaken : ∀ before asked m, taken p.conduct (before.map (Write.rename ρ)) (asked.map (Write.rename ρ))
      (m.map (Value.rename ρ)) = (taken p.conduct before asked m).map (Value.rename ρ) := by
    intro before asked
    induction asked generalizing before with
    | nil => exact fun _ => rfl
    | cons w rest ih =>
      intro m
      have hbefore : before.map (Write.rename ρ) ++ [w.rename ρ] = (before ++ [w]).map (Write.rename ρ) := by simp
      rw [List.map_cons, taken, taken, hp.answer hρ, w.asProperty?_rename, hbefore, ← ih]
      congr 1
      cases p.conduct.answer before w <;> cases w.asProperty? <;> simp [NameMap.map_insert]
  exact htaken [] p.asked .empty

/-- A builder of pages has no objects among its parts. -/
theorem Component.wirePage_rename (c : Component) (page : String) (builder : Option PageBuilder) :
    (c.rename ρ).wirePage page builder = (c.wirePage page builder).rename ρ := by
  cases c with
  | plain p => rfl
  | bag b => cases builder <;> rfl

/-- A new component has no objects yet. -/
theorem Blueprint.rename_initial (kind : BlueprintKind) (typeName : String) :
    (Blueprint.initial kind typeName).rename ρ = Blueprint.initial kind typeName := by
  cases kind <;> rfl

/-- What is going to be built does not see places. -/
def BlueprintKind.Blind : BlueprintKind → Prop
  | .foreign conduct _ => conduct.Blind
  | .bag | .including | .plain _ | .callable .. => True

theorem Blueprint.blind_initial {kind : BlueprintKind} (h : kind.Blind) (typeName : String) :
    (Blueprint.initial kind typeName).Blind := by
  cases kind with
  | bag | including => trivial
  | plain refusals => exact Conduct.blind_refusing refusals
  | callable refusals yields => exact (Conduct.blind_refusing refusals).yielding yields
  | foreign conduct includes => exact h

end Writes

/-! ## §2 What a bag holds under a name -/

/-- What is held under a name. -/
structure Bag.Entry where
  property : Option Value
  liveValue : Option LiveValue
  callable : Option Callable
  id : Option String

def Bag.Entry.rename (ρ : Nat → Nat) (e : Bag.Entry) : Bag.Entry :=
  { e with property := e.property.map (Value.rename ρ) }

/-- The element that a write adds, if it adds one. -/
def Write.element? : Write → Option (String × Value)
  | .item addMethod v => some (addMethod, v)
  | .property .. | .id _ | .rendered _ | .liveValue .. | .callable .. => none

/-- A write is filed under one of certain names, if it is filed under a name at all. -/
def Write.Among (names : String → Prop) (w : Write) : Prop := ∀ key, w.key? = some key → names key

namespace Bag

variable {ρ : Nat → Nat} {b b' d d' : Bag} {w : Write} {name : String} {names : String → Prop}

/-- What a bag holds under a name. The id is held under the name of its property. -/
def entry (b : Bag) (name : String) : Entry :=
  ⟨b.properties.find? name, b.liveValues.find? name, b.callables.find? name, if name = idName then b.id else none⟩

theorem entry_rename : (b.rename ρ).entry name = (b.entry name).rename ρ := by
  simp only [entry, rename, Entry.rename, NameMap.find?_map]

theorem Entry.rename_id (e : Entry) : e.rename (fun r => r) = e := by
  have hid : Value.rename (fun r => r) = fun v => v := funext Value.rename_id
  simp [Entry.rename, hid]

/-- A write leaves what is held under another name than its own. -/
theorem entry_write_of_ne (h : w.key? ≠ some name) : (b.write w).entry name = b.entry name := by
  have hother : ∀ {other}, w.key? = some other → other ≠ name := fun hkey heq => h (heq ▸ hkey)
  cases w with
  | property other v => simp only [entry, write, NameMap.find?_insert, if_neg (hother rfl)]
  | rendered flag =>
    have hne : "rendered" ≠ name := hother rfl
    simp only [entry, write, NameMap.find?_insert, if_neg hne]
  | id text => simp only [entry, write, if_neg (Ne.symm (hother rfl))]
  | item addMethod v => rfl
  | liveValue other v => simp only [entry, write, NameMap.find?_insert, if_neg (hother rfl)]
  | callable other c => simp only [entry, write, NameMap.find?_insert, if_neg (hother rfl)]

/-- What is the same under a name is so after the same write. -/
theorem entry_write_congr (h : b'.entry name = (b.entry name).rename ρ) :
    (b'.write (w.rename ρ)).entry name = ((b.write w).entry name).rename ρ := by
  -- what is held under a name has four parts, and a write changes one of them at most
  obtain ⟨hproperty, hlive, hcallable, hid⟩ := Entry.mk.injEq .. ▸ h
  cases w with
  | property other v =>
    -- under the name both bags hold what has been written, and under another one what they held before
    by_cases hname : other = name <;>
      simp_all [entry, write, Write.rename, Entry.rename, NameMap.find?_insert]
  | rendered flag =>
    by_cases hname : "rendered" = name <;>
      simp_all [entry, write, Write.rename, Entry.rename, NameMap.find?_insert, Value.rename]
  | id text => simp_all [entry, write, Write.rename, Entry.rename]
  | item addMethod v => exact h
  | liveValue other v => simp_all [entry, write, Write.rename, Entry.rename, NameMap.find?_insert]
  | callable other c => simp_all [entry, write, Write.rename, Entry.rename, NameMap.find?_insert]

theorem items_write (b : Bag) (w : Write) : (b.write w).items = b.items ++ w.element?.toList := by
  cases w <;> simp [write, Write.element?]

/-- Two bags `d` and `d'` come of `b` and `b'` by the same writes, filed under certain names only. -/
structure GrowAlike (ρ : Nat → Nat) (names : String → Prop) (b b' d d' : Bag) : Prop where
  left : ∀ name, ¬ names name → d.entry name = b.entry name
  right : ∀ name, ¬ names name → d'.entry name = b'.entry name
  entry : ∀ name, b'.entry name = (b.entry name).rename ρ → d'.entry name = (d.entry name).rename ρ
  items : ∃ added, d.items = b.items ++ added ∧ d'.items = b'.items ++ added.map (renameElement ρ)
  typeName : d.typeName = b.typeName ∧ d'.typeName = b'.typeName
  inclusion : d.inclusion = b.inclusion ∧ d'.inclusion = b'.inclusion

theorem GrowAlike.refl (ρ : Nat → Nat) (names : String → Prop) (b b' : Bag) : GrowAlike ρ names b b' b b' where
  left _ _ := rfl
  right _ _ := rfl
  entry _ h := h
  items := ⟨[], by simp⟩
  typeName := ⟨rfl, rfl⟩
  inclusion := ⟨rfl, rfl⟩

/-- Bags that have grown alike do so by one more write. -/
theorem GrowAlike.write (h : GrowAlike ρ names b b' d d') (hw : w.Among names) :
    GrowAlike ρ names b b' (d.write w) (d'.write (w.rename ρ)) := by
  have hother : ∀ name, ¬ names name → w.key? ≠ some name := fun name hname hkey => hname (hw name hkey)
  have hkey : (w.rename ρ).key? = w.key? := by cases w <;> rfl
  have helement : (w.rename ρ).element? = w.element?.map (renameElement ρ) := by cases w <;> rfl
  have hkept : ∀ (c : Bag) (x : Write), (c.write x).typeName = c.typeName ∧ (c.write x).inclusion = c.inclusion := by
    intro c x
    cases x <;> exact ⟨rfl, rfl⟩
  -- under the name of the write the bags agree by the lemma above, and under the others nothing has changed
  obtain ⟨added, hd, hd'⟩ := h.items
  refine ⟨fun name hname => ?_, fun name hname => ?_, fun name hb => entry_write_congr (h.entry name hb), ?_, ?_, ?_⟩
  · rw [entry_write_of_ne (hother name hname), h.left name hname]
  · rw [entry_write_of_ne (hkey ▸ hother name hname), h.right name hname]
  · refine ⟨added ++ w.element?.toList, ?_, ?_⟩
    · rw [items_write, hd, List.append_assoc]
    · rw [items_write, hd', helement, List.map_append, List.append_assoc]
      cases w.element? <;> rfl
  · exact ⟨(hkept d w).1.trans h.typeName.1, (hkept d' _).1.trans h.typeName.2⟩
  · exact ⟨(hkept d w).2.trans h.inclusion.1, (hkept d' _).2.trans h.inclusion.2⟩

end Bag

/-! ## §3 Two stores -/

namespace Store

variable {s : Store} {r : Nat} {c : Component}

theorem size_add (s : Store) (c : Component) : (s.add c).2.cells.size = s.cells.size + 1 := Array.size_push c

theorem get?_add_eq : (s.add c).2.get? r = if r = s.cells.size then some c else s.get? r := Array.getElem?_push

theorem lt_size_of_get? (h : s.get? r = some c) : r < s.cells.size := (Array.getElem?_eq_some_iff.mp h).1

end Store

/-- What is compared: two stores from which on components are added, and how the places in the one are renamed to places
in the other. -/
structure Comparison where
  left : Store
  right : Store
  ρ : Nat → Nat
  injective : Function.Injective ρ
  /-- Up to which place of the one store the renaming has to be right. -/
  bound : Nat
  /-- The place of a bag that is in both stores. -/
  site : Nat
  /-- The names under which the bag may be written to. -/
  names : String → Prop

namespace Comparison

variable {C : Comparison} {s t : Store} {n : Nat}

/-- The renaming leaves the places below `n` as they are, and takes the places that are given in the one store to those
that are given in the other. -/
structure Fits (n : Nat) (C : Comparison) : Prop where
  old : ∀ r < n, C.ρ r = r
  fresh : ∀ i, C.left.cells.size + i < C.bound → C.ρ (C.left.cells.size + i) = C.right.cells.size + i

/-- What has become of the two stores is the same up to the renaming. -/
structure Mirrors (C : Comparison) (s t : Store) : Prop where
  size : ∃ m, s.cells.size = C.left.cells.size + m ∧ t.cells.size = C.right.cells.size + m
  fresh : ∀ i, t.get? (C.right.cells.size + i) = (s.get? (C.left.cells.size + i)).map (Component.rename C.ρ)
  blind : ∀ i c, s.get? (C.left.cells.size + i) = some c → c.Blind
  left : ∀ r < C.left.cells.size, r ≠ C.site → s.get? r = C.left.get? r
  right : ∀ r < C.right.cells.size, r ≠ C.site → t.get? r = C.right.get? r
  site : ∀ b b', C.left.get? C.site = some (.bag b) → C.right.get? C.site = some (.bag b') →
    ∃ d d', s.get? C.site = some (.bag d) ∧ t.get? C.site = some (.bag d') ∧ b.GrowAlike C.ρ C.names b' d d'

/-- Two components have been added to the two stores at the same time. -/
structure Fresh (C : Comparison) (i i' : Instance) : Prop where
  typeName : i'.typeName = i.typeName
  place : ∃ m, i.ref = C.left.cells.size + m ∧ i'.ref = C.right.cells.size + m
  lt_bound : i.ref < C.bound

/-- Writes of some kind on two components keep the stores the same. -/
def Takes (C : Comparison) (P : Write → Prop) (i i' : Nat) : Prop :=
  ∀ s t w, C.Mirrors s t → P w → (t.write i' (w.rename C.ρ)).1 = (s.write i w).1 ∧
    C.Mirrors (s.write i w).2 (t.write i' (w.rename C.ρ)).2

/-- Before anything is added the two stores have nothing to be compared but the bag at the site. -/
theorem mirrors_start (C : Comparison) : C.Mirrors C.left C.right where
  size := ⟨0, rfl, rfl⟩
  fresh i := by simp [Store.get?]
  blind i c hc := by simp [Store.get?] at hc
  left _ _ _ := rfl
  right _ _ _ := rfl
  site b b' hb hb' := ⟨b, b', hb, hb', .refl C.ρ C.names b b'⟩

namespace Mirrors

/-- A component is added to the one store, and the same one to the other. -/
theorem add (h : C.Mirrors s t) {c : Component} (hblind : c.Blind) :
    C.Mirrors (s.add c).2 (t.add (c.rename C.ρ)).2 := by
  -- `m` components have been added to both, so that the new one is the one that is `m` places on in both
  obtain ⟨m, hs, ht⟩ := h.size
  refine ⟨⟨m + 1, ?_, ?_⟩, fun i => ?_, fun i d hd => ?_, fun r hr hsite => ?_, fun r hr hsite => ?_,
    fun b b' hb hb' => ?_⟩
  · rw [Store.size_add, hs, Nat.add_assoc]
  · rw [Store.size_add, ht, Nat.add_assoc]
  · rw [Store.get?_add_eq, Store.get?_add_eq, hs, ht]
    by_cases hi : i = m
    · simp [hi]
    · simpa [hi] using h.fresh i
  · rw [Store.get?_add_eq] at hd
    split at hd
    · cases hd
      exact hblind
    · exact h.blind i d hd
  · rw [Store.get?_add_eq, if_neg (by omega)]
    exact h.left r hr hsite
  · rw [Store.get?_add_eq, if_neg (by omega)]
    exact h.right r hr hsite
  · obtain ⟨d, d', hd, hd', hgrow⟩ := h.site b b' hb hb'
    refine ⟨d, d', ?_, ?_, hgrow⟩
    · rwa [Store.get?_add_eq, if_neg (Nat.ne_of_lt (Store.lt_size_of_get? hd))]
    · rwa [Store.get?_add_eq, if_neg (Nat.ne_of_lt (Store.lt_size_of_get? hd'))]

/-- A component that has been added is replaced in both stores. -/
theorem set_fresh (h : C.Mirrors s t) {m : Nat} (hm : C.left.cells.size + m < s.cells.size) {c : Component}
    (hblind : c.Blind) : C.Mirrors (s.set (C.left.cells.size + m) c) (t.set (C.right.cells.size + m) (c.rename C.ρ)) := by
  -- the place is behind all places of the earlier stores, and so it is not the site
  obtain ⟨k, hs, ht⟩ := h.size
  have hm' : C.right.cells.size + m < t.cells.size := by omega
  refine ⟨⟨k, ?_, ?_⟩, fun i => ?_, fun i d hd => ?_, fun r hr hsite => ?_, fun r hr hsite => ?_,
    fun b b' hb hb' => ?_⟩
  · rw [Store.size_set, hs]
  · rw [Store.size_set, ht]
  · rw [Store.get?_set _ hm, Store.get?_set _ hm']
    by_cases hi : m = i
    · simp [hi]
    · simpa [hi] using h.fresh i
  · rw [Store.get?_set _ hm] at hd
    split at hd
    · cases hd
      exact hblind
    · exact h.blind i d hd
  · rw [Store.get?_set _ hm, if_neg (by omega)]
    exact h.left r hr hsite
  · rw [Store.get?_set _ hm', if_neg (by omega)]
    exact h.right r hr hsite
  · have hlt := Store.lt_size_of_get? hb
    have hlt' := Store.lt_size_of_get? hb'
    rw [Store.get?_set _ hm, if_neg (by omega), Store.get?_set _ hm', if_neg (by omega)]
    exact h.site b b' hb hb'

/-- The bag at the site is replaced in both stores by bags that have grown in the same way. -/
theorem set_site (h : C.Mirrors s t) {b b' d d' : Bag} (hb : C.left.get? C.site = some (.bag b))
    (hb' : C.right.get? C.site = some (.bag b')) (hgrow : b.GrowAlike C.ρ C.names b' d d') :
    C.Mirrors (s.set C.site (.bag d)) (t.set C.site (.bag d')) := by
  -- the site is a place of the earlier stores, and so it is none of those that have been added
  obtain ⟨k, hs, ht⟩ := h.size
  have hleft := Store.lt_size_of_get? hb
  have hright := Store.lt_size_of_get? hb'
  have hlt : C.site < s.cells.size := by omega
  have hlt' : C.site < t.cells.size := by omega
  refine ⟨⟨k, ?_, ?_⟩, fun i => ?_, fun i c hc => ?_, fun r hr hsite => ?_, fun r hr hsite => ?_,
    fun e e' he he' => ?_⟩
  · rw [Store.size_set, hs]
  · rw [Store.size_set, ht]
  · rw [Store.get?_set _ hlt, if_neg (by omega), Store.get?_set _ hlt', if_neg (by omega)]
    exact h.fresh i
  · rw [Store.get?_set _ hlt, if_neg (by omega)] at hc
    exact h.blind i c hc
  · rw [Store.get?_set _ hlt, if_neg (Ne.symm hsite)]
    exact h.left r hr hsite
  · rw [Store.get?_set _ hlt', if_neg (Ne.symm hsite)]
    exact h.right r hr hsite
  · rw [hb] at he
    rw [hb'] at he'
    cases he
    cases he'
    refine ⟨d, d', ?_, ?_, hgrow⟩
    · rw [Store.get?_set _ hlt, if_pos rfl]
    · rw [Store.get?_set _ hlt', if_pos rfl]

theorem get?_fresh (h : C.Mirrors s t) {i i' : Instance} (hi : C.Fresh i i') :
    t.get? i'.ref = (s.get? i.ref).map (Component.rename C.ρ) := by
  obtain ⟨m, href, href'⟩ := hi.place
  rw [href, href']
  exact h.fresh m

/-- A component that is added gets a place in both stores. -/
theorem fresh_add (h : C.Mirrors s t) (c : Component) (hlt : s.cells.size < C.bound) :
    C.Fresh (s.add c).1 (t.add (c.rename C.ρ)).1 :=
  ⟨c.typeName_rename, h.size, hlt⟩

/-- Of two components that have been added the one sees no places if it is there. -/
theorem blind_fresh (h : C.Mirrors s t) {i i' : Instance} (hi : C.Fresh i i') {c : Component}
    (hc : s.get? i.ref = some c) : c.Blind := by
  obtain ⟨m, href, -⟩ := hi.place
  exact h.blind m c (href ▸ hc)

theorem yields_fresh (h : C.Mirrors s t) {i i' : Instance} (hi : C.Fresh i i') :
    (t.get? i'.ref).bind Component.yields = (s.get? i.ref).bind Component.yields := by
  rw [h.get?_fresh hi]
  cases hc : s.get? i.ref with
  | none => rfl
  | some c => exact (h.blind_fresh hi hc).yields_rename C.injective

/-- The value for a component that has been added is the same at another place. -/
theorem handle_fresh (h : C.Mirrors s t) (hC : C.Fits n) {i i' : Instance} (hi : C.Fresh i i') :
    t.handle i' = (s.handle i).rename C.ρ := by
  obtain ⟨m, href, href'⟩ := hi.place
  have hplace : C.ρ i.ref = i'.ref := by
    rw [href, href']
    exact hC.fresh m (href ▸ hi.lt_bound)
  -- besides the place a handle shows a type and a callable, in which there are no places
  rw [Store.handle, Store.handle, Handle.rename, h.yields_fresh hi, hi.typeName, hplace]

end Mirrors

/-- A component that has been added takes any write. -/
theorem Fresh.takes {i i' : Instance} (hi : C.Fresh i i') : C.Takes (fun _ => True) i.ref i'.ref := by
  intro s t w h _
  have hget := h.get?_fresh hi
  obtain ⟨m, href, href'⟩ := hi.place
  unfold Store.write
  rw [hget]
  -- the component is in both stores or in none of them
  cases hc : s.get? i.ref with
  | none => exact ⟨rfl, h⟩
  | some c =>
    have hblind := h.blind_fresh hi hc
    simp only [Option.map_some, hblind.write_rename C.injective]
    refine ⟨trivial, ?_⟩
    rw [href, href']
    exact h.set_fresh (href ▸ Store.lt_size_of_get? hc) (hblind.write w)

/-- The bag at the site takes writes under its names. -/
theorem takes_site {b b' : Bag} (hb : C.left.get? C.site = some (.bag b)) (hb' : C.right.get? C.site = some (.bag b')) :
    C.Takes (Write.Among C.names) C.site C.site := by
  intro s t w h hw
  obtain ⟨d, d', hd, hd', hgrow⟩ := h.site b b' hb hb'
  unfold Store.write
  rw [hd, hd']
  -- a bag takes every write, so that there is nothing to compare but what it holds then
  exact ⟨rfl, h.set_site hb hb' (hgrow.write hw)⟩

end Comparison

/-! ## §4 Two constructions -/

mutual

/-- All objects that exist already in a draft are at places below a bound. -/
def Draft.Below (n : Nat) : Draft → Prop
  | .ready v => v.Below n
  | .list items => DraftsBelow n items
  | .object b => b.Below n

def DraftsBelow (n : Nat) : List Draft → Prop
  | [] => True
  | d :: rest => d.Below n ∧ DraftsBelow n rest

/-- All objects that exist already in a blueprint are at places below a bound, and no component that is going to be
built sees places. -/
def Blueprint.Below (n : Nat) : Blueprint → Prop
  | .mk kind _ properties => kind.Blind ∧ PropertyDraftsBelow n properties

def PropertyDraftsBelow (n : Nat) : List (String × Draft) → Prop
  | [] => True
  | (_, d) :: rest => d.Below n ∧ PropertyDraftsBelow n rest

end

theorem Store.size_write (s : Store) (ref : Nat) (w : Write) : (s.write ref w).2.cells.size = s.cells.size := by
  unfold write
  split
  · rfl
  · exact size_set ..

/-- The number of components in a workshop. -/
def Workshop.size (w : Workshop) : Nat := w.store.cells.size

theorem Workshop.size_write (w : Workshop) (ref : Nat) (name : String) (v : Value) :
    (w.write ref name v).size = w.size :=
  Store.size_write ..

-- the recursion is that of building
mutual

/-- Building gives no place back. -/
theorem Draft.size_le (w : Workshop) : ∀ d : Draft, w.size ≤ (d.build w).2.size
  | .ready _ => Nat.le_refl _
  | .list items => buildDrafts_size_le w items
  | .object b => b.size_le w

theorem buildDrafts_size_le (w : Workshop) : ∀ ds : List Draft, w.size ≤ (buildDrafts w ds).2.size
  | [] => Nat.le_refl _
  | d :: rest => Nat.le_trans (d.size_le w) (buildDrafts_size_le (d.build w).2 rest)

theorem Blueprint.size_le (w : Workshop) : ∀ b : Blueprint, w.size ≤ (b.build w).2.size
  | .mk kind typeName properties => by
    have hadd := w.store.size_add (Blueprint.initial kind typeName)
    have hwrite := writeDrafts_size_le w.size ⟨(w.store.add (Blueprint.initial kind typeName)).2, w.reports⟩ properties
    rw [Workshop.size, hadd] at hwrite
    exact Nat.le_of_succ_le hwrite

theorem writeDrafts_size_le (ref : Nat) (w : Workshop) : ∀ ps : List (String × Draft),
    w.size ≤ (writeDrafts ref w ps).size
  | [] => Nat.le_refl _
  | (name, d) :: rest => by
    have hrest := writeDrafts_size_le ref ((d.build w).2.write ref name (d.build w).1) rest
    rw [Workshop.size_write] at hrest
    exact Nat.le_trans (d.size_le w) hrest

end

section Constructions

variable {C : Comparison} {n : Nat}

/-- Two workshops whose stores are the same up to the renaming. -/
abbrev Comparison.MirrorsIn (C : Comparison) (w w' : Workshop) : Prop := C.Mirrors w.store w'.store

mutual

/-- What a draft has still to be built is built in the same way in two workshops that are the same up to the renaming.
The bound has to hold at the end of the build only, because no place is given back. -/
theorem Draft.build_mirrors (hC : C.Fits n) {w w' : Workshop} (h : C.MirrorsIn w w') : ∀ d : Draft, d.Below n →
    (d.build w).2.size ≤ C.bound →
      (d.build w').1 = (d.build w).1.rename C.ρ ∧ C.MirrorsIn (d.build w).2 (d.build w').2
  | .ready v, hd, _ => ⟨(Value.rename_eq_self hC.old hd).symm, h⟩
  | .list items, hd, hsize => by
    obtain ⟨hvalues, hstores⟩ := buildDrafts_mirrors hC h items hd hsize
    refine ⟨?_, hstores⟩
    simp only [Draft.build, Value.rename, hvalues]
  | .object b, hd, hsize => by
    obtain ⟨hfresh, hstores⟩ := Blueprint.build_mirrors hC h b hd hsize
    refine ⟨?_, hstores⟩
    simp only [Draft.build, Value.rename, hstores.handle_fresh hC hfresh]

theorem buildDrafts_mirrors (hC : C.Fits n) {w w' : Workshop} (h : C.MirrorsIn w w') : ∀ ds : List Draft,
    DraftsBelow n ds → (buildDrafts w ds).2.size ≤ C.bound →
      (buildDrafts w' ds).1 = Value.renameItems C.ρ (buildDrafts w ds).1 ∧
        C.MirrorsIn (buildDrafts w ds).2 (buildDrafts w' ds).2
  | [], _, _ => ⟨rfl, h⟩
  | d :: rest, hd, hsize => by
    -- the first draft ends below the bound, because the others give no place back
    have hfirst := Nat.le_trans (buildDrafts_size_le (d.build w).2 rest) hsize
    obtain ⟨hvalue, hstores⟩ := Draft.build_mirrors hC h d hd.1 hfirst
    obtain ⟨hvalues, hstores⟩ := buildDrafts_mirrors hC hstores rest hd.2 hsize
    refine ⟨?_, hstores⟩
    simp only [buildDrafts, Value.renameItems, hvalue, hvalues]

theorem Blueprint.build_mirrors (hC : C.Fits n) {w w' : Workshop} (h : C.MirrorsIn w w') : ∀ b : Blueprint,
    b.Below n → (b.build w).2.size ≤ C.bound →
      C.Fresh (b.build w).1 (b.build w').1 ∧ C.MirrorsIn (b.build w).2 (b.build w').2
  | .mk kind typeName properties, hb, hsize => by
    have hadded := h.add (Blueprint.blind_initial hb.1 typeName)
    have hplaced := h.fresh_add (Blueprint.initial kind typeName)
    rw [Blueprint.rename_initial] at hadded hplaced
    -- the new component has a place below the bound, because its properties are written behind it
    have hlater := writeDrafts_size_le w.size ⟨(w.store.add (Blueprint.initial kind typeName)).2, w.reports⟩ properties
    have hlt : w.store.cells.size < C.bound := by
      rw [Workshop.size, Store.size_add] at hlater
      exact Nat.le_trans hlater hsize
    have hfresh := hplaced hlt
    refine ⟨hfresh, ?_⟩
    exact writeDrafts_mirrors hC (fun s t x h _ => hfresh.takes s t x h trivial) hadded properties hb.2 hsize

/-- Properties are written in the same way to two components that take the same writes. -/
theorem writeDrafts_mirrors (hC : C.Fits n) {ref ref' : Nat} {w w' : Workshop}
    (htakes : C.Takes (fun x => ∃ name v, x = .property name v) ref ref') (h : C.MirrorsIn w w') :
    ∀ ps : List (String × Draft), PropertyDraftsBelow n ps → (writeDrafts ref w ps).size ≤ C.bound →
      C.MirrorsIn (writeDrafts ref w ps) (writeDrafts ref' w' ps)
  | [], _, _ => h
  | (name, d) :: rest, hd, hsize => by
    have hlater := writeDrafts_size_le ref ((d.build w).2.write ref name (d.build w).1) rest
    rw [Workshop.size_write] at hlater
    obtain ⟨hvalue, hstores⟩ := Draft.build_mirrors hC h d hd.1 (Nat.le_trans hlater hsize)
    -- a value that has just been built is written with its objects at the other places
    have hwritten := (htakes _ _ _ hstores ⟨name, (d.build w).1, rfl⟩).2
    rw [Write.rename, ← hvalue] at hwritten
    exact writeDrafts_mirrors hC htakes hwritten rest hd.2 hsize

end

end Constructions

end PageTemplates
