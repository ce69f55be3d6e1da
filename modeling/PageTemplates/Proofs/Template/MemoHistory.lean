import PageTemplates.Proofs.Template.Recall
import Mathlib.Data.List.Dedup

/-!
# The history of a memo

A memo recognises a definition by its address, and an address is used again once nobody keeps the definition that had
it. Here definitions are made, kept, dropped and asked for in any order, and each has a number that no other one ever
gets. A definition that an entry of the memo is for is kept by the entry, so that its address cannot be given to
another one (`Stands`). Looking for an address is therefore the same as looking for a number (`Stands.index?_eq`), and
from outside nothing can be seen of the memo (`Memory.History.transparent`).

## Structure

- §1 says what may happen in memory.
- §2 is the invariant, and what it says about looking for an entry.
- §3 shows that everything that may happen keeps it.
- §4 says what can be seen of a history.
-/

namespace PageTemplates

/-! ## §1 Definitions in memory -/

/-- A definition in memory. Its number is its identity: no other definition has ever had it. -/
structure Resident where
  number : Nat
  definition : Definition

/-- What a memo was asked for, and what came of it. -/
structure MemoCall where
  asked : Resident
  property : String
  before : Memo
  answer : Except Error Factory
  after : Memo

def Memo.call (m : Memo) (r : Resident) (property : String) : MemoCall :=
  ⟨r, property, m, (m.obtainFactory r.definition property).1, (m.obtainFactory r.definition property).2⟩

namespace MemoCall

/-- Where the memo then has what was asked for. -/
def place? (c : MemoCall) : Option Nat := c.after.index? c.asked.definition.address c.property

/-- The definition and the property for which a factory was found. -/
def found? (c : MemoCall) : Option (Nat × String) :=
  match c.answer with
  | .ok _ => some (c.asked.number, c.property)
  | .error _ => none

end MemoCall

/-- A memo, and the definitions that there are besides those that it keeps itself. -/
structure Memory where
  /-- The definitions that somebody other than the memo keeps. -/
  held : List Resident
  memo : Memo
  /-- How many definitions have been made. -/
  made : Nat

namespace Memory

/-- There is a definition at an address, whoever keeps it. -/
def Occupied (m : Memory) (address : Nat) : Prop :=
  (∃ r ∈ m.held, r.definition.address = address) ∨ ∃ e ∈ m.memo.entries, e.definition.address = address

def make (m : Memory) (d : Definition) : Memory := { m with held := ⟨m.made, d⟩ :: m.held, made := m.made + 1 }

/-- The calls of a memo, the latest first, and the memory afterwards. -/
inductive History : List MemoCall → Memory → Prop where
  | start : History [] ⟨[], .empty, 0⟩
  /-- A definition is made at an address where there is none. -/
  | make {calls : List MemoCall} {m : Memory} (past : History calls m) (d : Definition) (h : ¬ m.Occupied d.address) :
      History calls (m.make d)
  /-- Some definitions are dropped. -/
  | drop {calls : List MemoCall} {m : Memory} (past : History calls m) {kept : List Resident} (h : kept ⊆ m.held) :
      History calls { m with held := kept }
  /-- Whoever asks keeps the definition meanwhile. -/
  | ask {calls : List MemoCall} {m : Memory} (past : History calls m) {r : Resident} (h : r ∈ m.held)
      (property : String) : History (m.memo.call r property :: calls) { m with memo := (m.memo.call r property).after }

end Memory

/-! ## §2 What the entries stand for -/

/-- An entry together with the identity of its definition. -/
structure Kept where
  owner : Resident
  property : String
  factory : Factory

namespace Kept

def entry (k : Kept) : MemoEntry := ⟨k.owner.definition, k.property, k.factory⟩

/-- What the entry is for, by the identity of the definition. -/
def key (k : Kept) : Nat × String := (k.owner.number, k.property)

end Kept

namespace Memory

variable {m : Memory} {calls : List MemoCall} {kept : List Kept} {r s : Resident} {property : String}

/-- Somebody keeps the definition, or an entry does. -/
def Alive (m : Memory) (kept : List Kept) (r : Resident) : Prop := r ∈ m.held ∨ r ∈ kept.map Kept.owner

/-- The entries of a memo stand for definitions that are alive, one entry for a definition and a property. -/
structure Stands (m : Memory) (kept : List Kept) : Prop where
  entries : m.memo.entries = kept.map Kept.entry
  factory : ∀ k ∈ kept, Factory.ofProperty k.owner.definition k.property = .ok k.factory
  nodup : (kept.map Kept.key).Nodup
  eq_of_address : ∀ r s, m.Alive kept r → m.Alive kept s → r.definition.address = s.definition.address → r = s
  eq_of_number : ∀ r s, m.Alive kept r → m.Alive kept s → r.number = s.number → r = s
  number_lt : ∀ r, m.Alive kept r → r.number < m.made

theorem Alive.of_kept {k : Kept} (hk : k ∈ kept) : m.Alive kept k.owner := .inr (List.mem_map_of_mem hk)

namespace Stands

/-- An address and a property match an entry exactly if the definition is the one that the entry is for. -/
theorem isFor_eq (h : m.Stands kept) (hr : m.Alive kept r) {k : Kept} (hk : k ∈ kept) :
    k.entry.isFor r.definition.address property = (k.key == (r.number, property)) := by
  -- among those that are alive an address is as good as a number
  have howner : k.owner.definition.address = r.definition.address ↔ k.owner.number = r.number := by
    constructor
    · intro haddress
      rw [h.eq_of_address _ _ (.of_kept hk) hr haddress]
    · intro hnumber
      rw [h.eq_of_number _ _ (.of_kept hk) hr hnumber]
  rw [Bool.eq_iff_iff]
  simp [MemoEntry.isFor, Kept.entry, Kept.key, howner]

theorem length_entries (h : m.Stands kept) : m.memo.entries.length = kept.length := by simp [h.entries]

/-- The memo finds by the address what there is for the identity. -/
theorem index?_eq_some (h : m.Stands kept) (hr : m.Alive kept r) {place : Nat} :
    m.memo.index? r.definition.address property = some place ↔
      (kept.map Kept.key)[place]? = some (r.number, property) := by
  -- each entry matches just if its key is the one that is looked for
  have hfor : ∀ i (_ : i < m.memo.entries.length) (_ : i < kept.length),
      m.memo.entries[i].isFor r.definition.address property = true ↔ kept[i].key = (r.number, property) := by
    intro i hi hi'
    have hentry : m.memo.entries[i] = kept[i].entry := by simp [h.entries]
    rw [hentry, h.isFor_eq hr (List.getElem_mem hi'), beq_iff_eq]
  rw [Memo.index?, List.findIdx?_eq_some_iff_getElem, List.getElem?_map]
  constructor
  · rintro ⟨hplace, hmatch, -⟩
    have hplace' : place < kept.length := h.length_entries ▸ hplace
    simp [hplace', (hfor place hplace hplace').mp hmatch]
  · intro hkey
    obtain ⟨k, hk, hkey⟩ := Option.map_eq_some_iff.mp hkey
    obtain ⟨hplace, rfl⟩ := List.getElem?_eq_some_iff.mp hk
    have hplace' : place < m.memo.entries.length := h.length_entries ▸ hplace
    refine ⟨hplace', (hfor place hplace' hplace).mpr hkey, fun j hj hearlier => ?_⟩
    -- an earlier entry would have the same key
    have hj' : j < kept.length := Nat.lt_trans hj hplace
    have hsame := (hfor j (Nat.lt_trans hj hplace') hj').mp hearlier
    have hne := List.pairwise_iff_getElem.mp (List.pairwise_map.mp h.nodup) j place hj' hplace hj
    exact hne (hsame.trans hkey.symm)

/-- A property whose factory the memo has is answered with that factory, and the memo stays as it is. -/
theorem call_of_mem (h : m.Stands kept) {k : Kept} (hk : k ∈ kept) :
    m.memo.call k.owner k.property = ⟨k.owner, k.property, m.memo, .ok k.factory, m.memo⟩ := by
  obtain ⟨place, hplace, rfl⟩ := List.mem_iff_getElem.mp hk
  have hindex : m.memo.index? kept[place].owner.definition.address kept[place].property = some place :=
    (h.index?_eq_some (.of_kept hk)).mpr (by simp [hplace, Kept.key])
  have hfind : m.memo.find? kept[place].owner.definition.address kept[place].property = some kept[place].entry := by
    have hentry : m.memo.entries[place]? = some kept[place].entry := by simp [h.entries, hplace]
    rw [Memo.index?] at hindex
    rw [Memo.find?, List.find?_eq_bind_findIdx?_getElem?, hindex, Option.bind_some, hentry]
  simp [Memo.call, Memo.obtainFactory, hfind, Kept.entry]

/-- A property whose factory the memo does not have is looked up in the definition, and the memo grows if there is a
factory for it. -/
theorem call_of_notMem (h : m.Stands kept) (hr : m.Alive kept r) (hnew : (r.number, property) ∉ kept.map Kept.key) :
    m.memo.call r property = ⟨r, property, m.memo, Factory.ofProperty r.definition property,
      match Factory.ofProperty r.definition property with
      | .ok f => ⟨m.memo.entries ++ [⟨r.definition, property, f⟩]⟩
      | .error _ => m.memo⟩ := by
  -- an entry that matched would have the key
  have hfind : m.memo.find? r.definition.address property = none := by
    rw [Memo.find?, List.find?_eq_none, h.entries]
    intro e he hmatch
    obtain ⟨k, hk, rfl⟩ := List.mem_map.mp he
    rw [h.isFor_eq hr hk, beq_iff_eq] at hmatch
    exact hnew (hmatch ▸ List.mem_map_of_mem hk)
  cases hfactory : Factory.ofProperty r.definition property <;>
    simp [Memo.call, Memo.obtainFactory, hfind, hfactory]

end Stands

/-! ## §3 What may happen -/

theorem stands_initial : Stands ⟨[], .empty, 0⟩ [] := by
  have hnobody : ∀ r, ¬ Alive ⟨[], .empty, 0⟩ [] r := by simp [Alive]
  exact {
    entries := rfl
    factory := nofun
    nodup := List.nodup_nil
    eq_of_address := fun r _ hr => absurd hr (hnobody r)
    eq_of_number := fun r _ hr => absurd hr (hnobody r)
    number_lt := fun r hr => absurd hr (hnobody r) }

namespace Stands

/-- Fewer definitions may be alive afterwards. -/
theorem mono {m' : Memory} (h : m.Stands kept) (hmemo : m'.memo = m.memo) (hmade : m'.made = m.made)
    (hheld : m'.held ⊆ m.held) : m'.Stands kept := by
  -- whoever is alive now was alive before
  have halive : ∀ r, m'.Alive kept r → m.Alive kept r := fun r => Or.imp_left fun hr => hheld hr
  exact {
    entries := hmemo ▸ h.entries
    factory := h.factory
    nodup := h.nodup
    eq_of_address := fun r s hr hs => h.eq_of_address r s (halive r hr) (halive s hs)
    eq_of_number := fun r s hr hs => h.eq_of_number r s (halive r hr) (halive s hs)
    number_lt := fun r hr => hmade ▸ h.number_lt r (halive r hr) }

/-- Whoever is alive is found at an address that is occupied. -/
theorem occupied (h : m.Stands kept) (hr : m.Alive kept r) : m.Occupied r.definition.address := by
  rcases hr with hr | hr
  · exact .inl ⟨r, hr, rfl⟩
  · obtain ⟨k, hk, rfl⟩ := List.mem_map.mp hr
    exact .inr ⟨k.entry, h.entries ▸ List.mem_map_of_mem hk, rfl⟩

/-- A new definition has an address that none of the others has, and a number that none has ever had. -/
theorem make (h : m.Stands kept) {d : Definition} (hfree : ¬ m.Occupied d.address) : (m.make d).Stands kept := by
  -- the new definition is the only one that has come to life
  have halive : ∀ r, (m.make d).Alive kept r → r = ⟨m.made, d⟩ ∨ m.Alive kept r := by
    intro r hr
    simpa [Alive, Memory.make, or_assoc] using hr
  exact {
    entries := h.entries
    factory := h.factory
    nodup := h.nodup
    eq_of_address := by
      intro r s hr hs haddress
      rcases halive r hr with rfl | hr <;> rcases halive s hs with rfl | hs
      · rfl
      · exact absurd (haddress ▸ h.occupied hs) hfree
      · exact absurd (haddress ▸ h.occupied hr) hfree
      · exact h.eq_of_address r s hr hs haddress
    eq_of_number := by
      intro r s hr hs hnumber
      rcases halive r hr with rfl | hr <;> rcases halive s hs with rfl | hs
      · rfl
      · exact absurd hnumber.symm (Nat.ne_of_lt (h.number_lt s hs))
      · exact absurd hnumber (Nat.ne_of_lt (h.number_lt r hr))
      · exact h.eq_of_number r s hr hs hnumber
    number_lt := by
      intro r hr
      rcases halive r hr with rfl | hr
      · exact Nat.lt_succ_self _
      · exact Nat.lt_succ_of_lt (h.number_lt r hr) }

/-- A new entry is for a definition that is alive. -/
theorem remember (h : m.Stands kept) {k : Kept} (halive : m.Alive kept k.owner)
    (hfactory : Factory.ofProperty k.owner.definition k.property = .ok k.factory) (hnew : k.key ∉ kept.map Kept.key) :
    Stands { m with memo := ⟨m.memo.entries ++ [k.entry]⟩ } (kept ++ [k]) := by
  -- no definition has come to life, since the owner of the entry was alive
  have hsame : ∀ r, Alive { m with memo := ⟨m.memo.entries ++ [k.entry]⟩ } (kept ++ [k]) r → m.Alive kept r := by
    intro r hr
    rcases hr with hr | hr
    · exact .inl hr
    · rw [List.map_append, List.mem_append, List.map_singleton, List.mem_singleton] at hr
      rcases hr with hr | rfl
      · exact .inr hr
      · exact halive
  exact {
    entries := by simp [h.entries]
    factory := by
      intro other hother
      rcases List.mem_append.mp hother with hother | hother
      · exact h.factory other hother
      · obtain rfl := List.mem_singleton.mp hother
        exact hfactory
    nodup := by
      rw [List.map_append, List.map_singleton]
      exact List.nodup_append_comm.mp (List.nodup_cons.mpr ⟨hnew, h.nodup⟩)
    eq_of_address := fun r s hr hs => h.eq_of_address r s (hsame r hr) (hsame s hs)
    eq_of_number := fun r s hr hs => h.eq_of_number r s (hsame r hr) (hsame s hs)
    number_lt := fun r hr => h.number_lt r (hsame r hr) }

end Stands

/-- What is known of the calls so far, if the entries of the memo are as described. -/
structure Told (calls : List MemoCall) (kept : List Kept) : Prop where
  answer : ∀ c ∈ calls, c.answer = Factory.ofProperty c.asked.definition c.property
  failed : ∀ c ∈ calls, ∀ e, c.answer = .error e → c.after = c.before
  /-- A factory that was returned is where it was then. -/
  stored : ∀ c ∈ calls, ∀ f, c.answer = .ok f → ∃ place, kept[place]? = some ⟨c.asked, c.property, f⟩ ∧
    c.place? = some place ∧ (c.after.entries)[place]? = some ⟨c.asked.definition, c.property, f⟩
  /-- An entry was asked for. -/
  asked : ∀ k ∈ kept, ∃ c ∈ calls, c.asked = k.owner ∧ c.property = k.property ∧ c.answer = .ok k.factory

namespace Told

theorem start : Told [] [] :=
  ⟨List.forall_mem_nil _, List.forall_mem_nil _, List.forall_mem_nil _, List.forall_mem_nil _⟩

/-- A call whose answer is in the memo already. -/
theorem found_again (h : Told calls kept) (hs : m.Stands kept) {k : Kept} (hk : k ∈ kept) :
    Told (m.memo.call k.owner k.property :: calls) kept := by
  rw [hs.call_of_mem hk]
  -- the new call is answered by the entry; all that is known of the others stays
  constructor
  · exact List.forall_mem_cons.mpr ⟨(hs.factory k hk).symm, h.answer⟩
  · exact List.forall_mem_cons.mpr ⟨fun _ _ => rfl, h.failed⟩
  · refine List.forall_mem_cons.mpr ⟨fun f hf => ?_, h.stored⟩
    cases hf
    obtain ⟨place, hplace, rfl⟩ := List.mem_iff_getElem.mp hk
    refine ⟨place, by simp [hplace], ?_, by simp [hs.entries, hplace, Kept.entry]⟩
    exact (hs.index?_eq_some (.of_kept hk)).mpr (by simp [hplace, Kept.key])
  · intro other hother
    obtain ⟨c, hc, hcall⟩ := h.asked other hother
    exact ⟨c, List.mem_cons_of_mem _ hc, hcall⟩

/-- A call that fails. -/
theorem fail (h : Told calls kept) (hs : m.Stands kept) (hr : m.Alive kept r)
    (hnew : (r.number, property) ∉ kept.map Kept.key) {e : Error}
    (hfactory : Factory.ofProperty r.definition property = .error e) :
    Told (m.memo.call r property :: calls) kept := by
  rw [hs.call_of_notMem hr hnew, hfactory]
  constructor
  · exact List.forall_mem_cons.mpr ⟨hfactory.symm, h.answer⟩
  · exact List.forall_mem_cons.mpr ⟨fun _ _ => rfl, h.failed⟩
  · exact List.forall_mem_cons.mpr ⟨nofun, h.stored⟩
  · intro other hother
    obtain ⟨c, hc, hcall⟩ := h.asked other hother
    exact ⟨c, List.mem_cons_of_mem _ hc, hcall⟩

/-- A call for which the memo grows. -/
theorem remember (h : Told calls kept) (hs : m.Stands kept) (hr : m.Alive kept r)
    (hnew : (r.number, property) ∉ kept.map Kept.key) {f : Factory}
    (hfactory : Factory.ofProperty r.definition property = .ok f) :
    Told (m.memo.call r property :: calls) (kept ++ [⟨r, property, f⟩]) := by
  have hgrown := hs.remember (k := ⟨r, property, f⟩) hr hfactory hnew
  rw [hs.call_of_notMem hr hnew, hfactory]
  constructor
  · exact List.forall_mem_cons.mpr ⟨hfactory.symm, h.answer⟩
  · exact List.forall_mem_cons.mpr ⟨nofun, h.failed⟩
  · refine List.forall_mem_cons.mpr ⟨fun g hg => ?_, fun c hc g hg => ?_⟩
    · cases hg
      refine ⟨kept.length, by simp, ?_, by simp [hs.entries]⟩
      refine (hgrown.index?_eq_some (.of_kept (k := ⟨r, property, f⟩) (by simp))).mpr ?_
      simp [Kept.key]
    · obtain ⟨place, hplace, hcall⟩ := h.stored c hc g hg
      obtain ⟨hlt, -⟩ := List.getElem?_eq_some_iff.mp hplace
      exact ⟨place, by rw [List.getElem?_append_left hlt, hplace], hcall⟩
  · intro other hother
    rcases List.mem_append.mp hother with hother | hother
    · obtain ⟨c, hc, hcall⟩ := h.asked other hother
      exact ⟨c, List.mem_cons_of_mem _ hc, hcall⟩
    · obtain rfl := List.mem_singleton.mp hother
      exact ⟨_, List.mem_cons_self, rfl, rfl, rfl⟩

end Told

/-- Whatever may happen, the entries of the memo stand for definitions that are alive. -/
theorem History.exists_stands (h : History calls m) : ∃ kept, m.Stands kept ∧ Told calls kept := by
  induction h with
  | start => exact ⟨[], stands_initial, .start⟩
  | make _ d hfree ih =>
    obtain ⟨kept, hs, ht⟩ := ih
    exact ⟨kept, hs.make hfree, ht⟩
  | drop _ hkept ih =>
    obtain ⟨kept, hs, ht⟩ := ih
    exact ⟨kept, hs.mono rfl rfl hkept, ht⟩
  | @ask calls m _ r hr property ih =>
    obtain ⟨kept, hs, ht⟩ := ih
    by_cases hkey : (r.number, property) ∈ kept.map Kept.key
    · obtain ⟨k, hk, hkey⟩ := List.mem_map.mp hkey
      obtain ⟨hnumber, rfl⟩ := Prod.mk.inj hkey
      obtain rfl := hs.eq_of_number _ _ (.of_kept hk) (.inl hr) hnumber
      refine ⟨kept, ?_, ht.found_again hs hk⟩
      rw [hs.call_of_mem hk]
      exact hs
    · cases hfactory : Factory.ofProperty r.definition property with
      | error e =>
        refine ⟨kept, ?_, ht.fail hs (.inl hr) hkey hfactory⟩
        rw [hs.call_of_notMem (.inl hr) hkey, hfactory]
        exact hs
      | ok f =>
        refine ⟨kept ++ [⟨r, property, f⟩], ?_, ht.remember hs (.inl hr) hkey hfactory⟩
        rw [hs.call_of_notMem (.inl hr) hkey, hfactory]
        exact hs.remember (k := ⟨r, property, f⟩) (.inl hr) hfactory hkey

/-! ## §4 What can be seen -/

end Memory

theorem Memo.obtainFactory_empty (d : Definition) (property : String) :
    (Memo.empty.obtainFactory d property).1 = Factory.ofProperty d property := by
  have hfind : Memo.empty.find? d.address property = none := rfl
  cases hfactory : Factory.ofProperty d property <;> simp [obtainFactory, hfind, hfactory]

/-- Compiling a property asks for one factory at most, and the rest is up to what is given for the property. -/
theorem Template.exists_compileSetter_eq (t : Template) (name : String) (raw : Raw) :
    ∃ (condition : Except Error (Setter Template)) (made : Factory → Except Error (Setter Template)),
      t.compileSetter name raw = if name = loadedName then Compile.ofExcept condition
        else Compile.select t.memo t.definition name >>= fun f => Compile.ofExcept (made f) := by
  cases raw <;> exact ⟨_, _, rfl⟩

/-- All that a world has to do with the compiling of a property is the factory that a memo answers with. -/
theorem TemplateMaker.run_compileSetter_congr {f : TemplateMaker} {t : Template} {name : String} {raw : Raw}
    {w w' : World} (h : ((w.memos t.memo).obtainFactory t.definition name).1 =
      ((w'.memos t.memo).obtainFactory t.definition name).1) :
    (f.run (t.compileSetter name raw) w).1 = (f.run (t.compileSetter name raw) w').1 := by
  have selected (made : Factory → Except Error (Setter Template)) (w : World) :
      (f.run (Compile.select t.memo t.definition name >>= fun f => Compile.ofExcept (made f)) w).1 =
        ((w.memos t.memo).obtainFactory t.definition name).1 >>= made := by
    show (Program.run f.answer
      (ExceptT.bindCont (fun f => Compile.ofExcept (made f)) ((w.memos t.memo).obtainFactory t.definition name).1)
      { w with memos := (w.memos.obtainFactory t.memo t.definition name).2 }).1 = _
    cases ((w.memos t.memo).obtainFactory t.definition name).1 <;> rfl
  obtain ⟨condition, made, hcompile⟩ := t.exists_compileSetter_eq name raw
  rw [hcompile]
  split
  · rfl
  · rw [selected made w, selected made w', h]

namespace Memory

variable {m : Memory} {calls : List MemoCall} {kept : List Kept}

/-- From outside, a memo that remembers is like one that remembers nothing. -/
structure Transparent (calls : List MemoCall) (m : Memory) : Prop where
  /-- Each call returns what the definition has for the property, whatever was asked for before. -/
  answer : ∀ c ∈ calls, c.answer = Factory.ofProperty c.asked.definition c.property
  /-- A call that fails adds nothing. -/
  failed : ∀ c ∈ calls, ∀ e, c.answer = .error e → c.after = c.before
  /-- A factory that was returned is an entry, and that entry stays where it is. -/
  stored : ∀ c ∈ calls, ∀ f, c.answer = .ok f → ∃ place entry, c.place? = some place ∧ entry.factory = f ∧
    c.after.entries[place]? = some entry ∧ m.memo.entries[place]? = some entry
  /-- Two calls return one and the same entry exactly if they are for the same definition and property. -/
  shared : ∀ c ∈ calls, ∀ c' ∈ calls, c.answer.isOk → c'.answer.isOk →
    (c.place? = c'.place? ↔ c.asked = c'.asked ∧ c.property = c'.property)
  /-- There are as many entries as definitions and properties for which a factory was found. -/
  size : m.memo.size = (calls.filterMap MemoCall.found?).dedup.length
  /-- A property of a definition that somebody keeps is compiled as if nothing were remembered. -/
  compiled : ∀ r ∈ m.held, ∀ t : Template, t.definition = r.definition → ∀ (f : TemplateMaker) (name : String)
    (raw : Raw) (w : World), w.memos t.memo = m.memo →
    (f.run (t.compileSetter name raw) w).1 = (f.run (t.compileSetter name raw) { w with memos := .empty }).1

namespace Told

/-- The keys of the entries are what factories were found for. -/
theorem mem_keys (h : Told calls kept) {key : Nat × String} :
    key ∈ kept.map Kept.key ↔ key ∈ calls.filterMap MemoCall.found? := by
  rw [List.mem_map, List.mem_filterMap]
  constructor
  · rintro ⟨k, hk, rfl⟩
    obtain ⟨c, hc, hasked, hproperty, hanswer⟩ := h.asked k hk
    exact ⟨c, hc, by simp [MemoCall.found?, hanswer, hasked, hproperty, Kept.key]⟩
  · rintro ⟨c, hc, hfound⟩
    unfold MemoCall.found? at hfound
    split at hfound
    · rename_i f hanswer
      obtain ⟨place, hplace, -⟩ := h.stored c hc f hanswer
      exact ⟨_, List.mem_of_getElem? hplace, Option.some.inj hfound⟩
    · cases hfound

end Told

/-- The memo is invisible, whatever definitions are made, dropped and asked for. -/
theorem History.transparent (h : History calls m) : Transparent calls m := by
  -- what is seen from outside is read off the entries that the invariant describes
  obtain ⟨kept, hs, ht⟩ := h.exists_stands
  constructor
  · exact ht.answer
  · exact ht.failed
  · intro c hc f hf
    obtain ⟨place, hplace, hfound, hentry⟩ := ht.stored c hc f hf
    exact ⟨place, _, hfound, rfl, hentry, by simp [hs.entries, hplace, Kept.entry]⟩
  · intro c hc c' hc' hok hok'
    obtain ⟨f, hf⟩ := Outcome.exists_of_isOk hok
    obtain ⟨f', hf'⟩ := Outcome.exists_of_isOk hok'
    obtain ⟨place, hplace, hfound, -⟩ := ht.stored c hc f hf
    obtain ⟨place', hplace', hfound', -⟩ := ht.stored c' hc' f' hf'
    rw [hfound, hfound', Option.some_inj]
    constructor
    · rintro rfl
      rw [hplace, Option.some_inj, Kept.mk.injEq] at hplace'
      exact ⟨hplace'.1, hplace'.2.1⟩
    · rintro ⟨hasked, hproperty⟩
      -- no two entries are for the same
      have hkey : (kept.map Kept.key)[place]? = (kept.map Kept.key)[place']? := by
        simp [hplace, hplace', Kept.key, hasked, hproperty]
      have hlt : place < (kept.map Kept.key).length := by
        simpa using (List.getElem?_eq_some_iff.mp hplace).1
      exact (List.getElem?_inj hlt hs.nodup).mp hkey
  · -- keys are counted once each, however often they were asked for
    have hperm : (kept.map Kept.key).Perm (calls.filterMap MemoCall.found?).dedup :=
      (List.perm_ext_iff_of_nodup hs.nodup (List.nodup_dedup _)).mpr fun key => by
        rw [ht.mem_keys, List.mem_dedup]
    rw [← hperm.length_eq, List.length_map, Memo.size, hs.length_entries]
  · intro r hr t hdefinition f name raw w hw
    refine TemplateMaker.run_compileSetter_congr ?_
    -- one more call would be answered from the definition, too
    have hnext := (h.ask hr name).exists_stands.choose_spec.2.answer _ List.mem_cons_self
    have hrecalled : (m.memo.obtainFactory t.definition name).1 = Factory.ofProperty t.definition name := by
      rw [hdefinition]
      exact hnext
    rw [hw, hrecalled]
    exact (Memo.obtainFactory_empty t.definition name).symm

/-- A definition of one property, at an address. -/
def worded (address : Nat) (declaredType : String) : Definition :=
  ⟨address, "", "text", "text", NameMap.empty.insert "value" (.simple "value" declaredType), none, default⟩

/-- A definition that the memo does not keep is dropped and another one gets its address. Of that one the memo keeps an
entry, so that the next definition has to be elsewhere. -/
theorem address_used_again : ∃ calls m, History calls m ∧
    calls.map (fun c => (c.asked.definition.address, c.answer.isOk, c.place?)) =
      [(1, true, some 1), (0, true, some 0), (0, true, some 0), (0, false, none)] ∧ Transparent calls m := by
  have first := History.start.make (worded 0 "int") (by rintro (⟨_, h, -⟩ | ⟨_, h, -⟩) <;> cases h)
  have failed := first.ask (r := ⟨0, worded 0 "int"⟩) List.mem_cons_self "nope"
  have second := (failed.drop (List.nil_subset _)).make (worded 0 "double")
    (by rintro (⟨_, h, -⟩ | ⟨_, h, -⟩) <;> cases h)
  have found := second.ask (r := ⟨1, worded 0 "double"⟩) List.mem_cons_self "value"
  have recalled := found.ask (r := ⟨1, worded 0 "double"⟩) List.mem_cons_self "value"
  have third := (recalled.drop (List.nil_subset _)).make (worded 1 "int") (by
    rintro (⟨_, h, -⟩ | ⟨e, h, haddress⟩)
    · cases h
    · obtain rfl : e = ⟨worded 0 "double", "value", ⟨"value", "double", true, .scalar .double⟩⟩ := List.mem_singleton.mp h
      cases haddress)
  have last := third.ask (r := ⟨2, worded 1 "int"⟩) List.mem_cons_self "value"
  exact ⟨_, _, last, by decide +kernel, last.transparent⟩

end Memory

end PageTemplates
