import FormatNegotiation.Proofs.Registry.Lookup
import FormatNegotiation.Registry.References

/-! The invariant of a registry: sets and slots refer to each other, and both free lists are exact.
-/
namespace FormatNegotiation.Registry

variable {σ : Type}

/-- Sets and slots refer to each other. A stored set lists some slot and none twice; every slot that
it lists points at it, and it lists every slot that does. -/
structure Linked (r : Registry σ) : Prop where
  nodup_refs {id : SetId} {entry : SetEntry σ} : r.find? id = some entry → entry.refs.Nodup
  refs_ne_nil {id : SetId} {entry : SetEntry σ} : r.find? id = some entry → entry.refs ≠ []
  held_iff (id : SetId) (slot : SlotId) :
    r.held? slot = some id ↔ ∃ entry, r.find? id = some entry ∧ slot ∈ entry.refs

/-- The cells on the free list are the empty ones, each listed once. -/
structure FreeCellsExact (r : Registry σ) : Prop where
  nodup : r.freeCells.Nodup
  mem_iff (index : Nat) :
    index ∈ r.freeCells ↔ ∃ generation, r.cells[index]? = some ⟨generation, none⟩

/-- The slots on the free list are the released ones, each listed once. -/
structure FreeSlotsExact (r : Registry σ) : Prop where
  nodup : r.freeSlots.Nodup
  mem_iff (slot : SlotId) : slot ∈ r.freeSlots ↔ r.slots[slot]? = some .released

/-- What every operation keeps. -/
structure WellFormed (r : Registry σ) : Prop where
  linked : r.Linked
  freeCells : r.FreeCellsExact
  freeSlots : r.FreeSlotsExact

theorem empty_wellFormed : (empty : Registry σ).WellFormed where
  linked := by constructor <;> simp [empty, find?, held?]
  freeCells := ⟨List.nodup_nil, by simp [empty]⟩
  freeSlots := ⟨List.nodup_nil, by simp [empty]⟩

/-! ## What the invariant says of single sets and slots -/

namespace Linked

variable {r : Registry σ}

theorem held_of_mem (h : r.Linked) {id : SetId} {entry : SetEntry σ} {slot : SlotId}
    (hf : r.find? id = some entry) (hs : slot ∈ entry.refs) : r.held? slot = some id :=
  (h.held_iff id slot).mpr ⟨entry, hf, hs⟩

theorem mem_of_held (h : r.Linked) {id : SetId} {slot : SlotId} (hs : r.held? slot = some id) :
    ∃ entry, r.find? id = some entry ∧ slot ∈ entry.refs :=
  (h.held_iff id slot).mp hs

theorem mem_refs_iff (h : r.Linked) {id : SetId} {entry : SetEntry σ}
    (hf : r.find? id = some entry) (slot : SlotId) :
    slot ∈ entry.refs ↔ r.held? slot = some id := by
  rw [h.held_iff]
  simp [hf]

theorem exists_held (h : r.Linked) {id : SetId} {entry : SetEntry σ}
    (hf : r.find? id = some entry) : ∃ slot, r.held? slot = some id := by
  obtain ⟨slot, hs⟩ := List.exists_mem_of_ne_nil _ (h.refs_ne_nil hf)
  exact ⟨slot, h.held_of_mem hf hs⟩

/-- The links can be checked set by set: each is as it was in a linked registry, or gone, or stored
with other references. -/
theorem of_each {r' : Registry σ} (h : r.Linked)
    (hid : ∀ id,
      (r'.find? id = r.find? id ∧ ∀ slot, r'.held? slot = some id ↔ r.held? slot = some id) ∨
      (r'.find? id = none ∧ ∀ slot, r'.held? slot ≠ some id) ∨
      ∃ entry, r'.find? id = some entry ∧ entry.refs.Nodup ∧ entry.refs ≠ [] ∧
        ∀ slot, r'.held? slot = some id ↔ slot ∈ entry.refs) : r'.Linked where
  nodup_refs {id entry} he := by
    rcases hid id with ⟨hf, -⟩ | ⟨hf, -⟩ | ⟨entry', hf, hnd, -, -⟩
    · exact h.nodup_refs (hf ▸ he)
    · simp [hf] at he
    · rwa [← Option.some.inj (hf.symm.trans he)]
  refs_ne_nil {id entry} he := by
    rcases hid id with ⟨hf, -⟩ | ⟨hf, -⟩ | ⟨entry', hf, -, hne, -⟩
    · exact h.refs_ne_nil (hf ▸ he)
    · simp [hf] at he
    · rwa [← Option.some.inj (hf.symm.trans he)]
  held_iff id slot := by
    rcases hid id with ⟨hf, hs⟩ | ⟨hf, hs⟩ | ⟨entry', hf, -, -, hs⟩
    · rw [hs, hf, h.held_iff]
    · simp [hf, hs]
    · simp [hf, hs]

theorem congr {r' : Registry σ} (h : r.Linked) (hf : ∀ id, r'.find? id = r.find? id)
    (hs : ∀ slot, r'.held? slot = r.held? slot) : r'.Linked :=
  h.of_each fun id => .inl ⟨hf id, fun slot => by rw [hs]⟩

end Linked

/-! ## The free lists after updates of one part -/

namespace FreeCellsExact

variable {r r' : Registry σ}

theorem congr (h : r.FreeCellsExact) (hc : r'.cells = r.cells) (hf : r'.freeCells = r.freeCells) :
    r'.FreeCellsExact :=
  ⟨hf ▸ h.nodup, fun index => by rw [hf, hc]; exact h.mem_iff index⟩

theorem setSlot (h : r.FreeCellsExact) (slot : SlotId) (state : SlotState) :
    (r.setSlot slot state).FreeCellsExact := h.congr rfl rfl

theorem pointAll (h : r.FreeCellsExact) (slots : List SlotId) (id : SetId) :
    (r.pointAll slots id).FreeCellsExact :=
  h.congr (cells_pointAll r slots id) (freeCells_pointAll r slots id)

/-- A change to a stored set leaves its cell occupied. -/
theorem modifyEntry (h : r.FreeCellsExact) (id : SetId) (f : SetEntry σ → SetEntry σ) :
    (r.modifyEntry id f).FreeCellsExact := by
  refine ⟨h.nodup, fun index => ?_⟩
  rw [freeCells_modifyEntry, h.mem_iff]
  simp only [Registry.modifyEntry, Array.getElem?_modify]
  by_cases hi : id.index = index
  · subst hi
    cases r.cells[id.index]? with
    | none => simp
    | some cell =>
      obtain ⟨generation, occupant⟩ := cell
      by_cases hg : generation = id.generation <;> cases occupant <;> simp [hg]
  · simp [hi]

theorem store (h : r.FreeCellsExact) (entry : SetEntry σ) : (r.store entry).FreeCellsExact := by
  unfold Registry.store
  cases hfree : r.freeCells with
  | nil =>
    refine ⟨List.nodup_nil, fun index => ?_⟩
    have hnone := h.mem_iff index
    simp only [hfree, List.not_mem_nil, false_iff, not_exists] at hnone
    simp only [List.not_mem_nil, false_iff, not_exists, Array.getElem?_push]
    split <;> simp [hnone]
  | cons first rest =>
    have hnd := h.nodup
    rw [hfree, List.nodup_cons] at hnd
    refine ⟨hnd.2, fun index => ?_⟩
    have hiff := h.mem_iff index
    simp only [Array.getElem?_modify]
    rw [hfree, List.mem_cons] at hiff
    by_cases hi : first = index
    · subst hi
      obtain ⟨generation, hc⟩ := hiff.mp (.inl rfl)
      simp [hc, hnd.1]
    · simpa [hi, Ne.symm hi] using hiff

theorem free (h : r.FreeCellsExact) (id : SetId) : (r.free id).FreeCellsExact := by
  unfold Registry.free
  cases hf : r.find? id with
  | none => exact h
  | some entry =>
    have hc := find?_eq_some.mp hf
    refine ⟨List.nodup_cons.mpr ⟨?_, h.nodup⟩, fun index => ?_⟩
    · simp [h.mem_iff, hc]
    · simp only [List.mem_cons, h.mem_iff, Array.getElem?_modify]
      by_cases hi : id.index = index
      · subst hi
        simp [hc]
      · simp [hi, Ne.symm hi]

end FreeCellsExact

namespace FreeSlotsExact

variable {r r' : Registry σ}

theorem congr (h : r.FreeSlotsExact) (hf : r'.freeSlots = r.freeSlots)
    (hs : ∀ slot : SlotId, r'.slots[slot]? = some .released ↔ r.slots[slot]? = some .released) :
    r'.FreeSlotsExact :=
  ⟨hf ▸ h.nodup, fun slot => by rw [hf, hs]; exact h.mem_iff slot⟩

theorem modifyEntry (h : r.FreeSlotsExact) (id : SetId) (f : SetEntry σ → SetEntry σ) :
    (r.modifyEntry id f).FreeSlotsExact := h.congr rfl fun _ => Iff.rfl

theorem store (h : r.FreeSlotsExact) (entry : SetEntry σ) : (r.store entry).FreeSlotsExact :=
  h.congr (freeSlots_store r entry) fun _ => by rw [slots_store]

theorem free (h : r.FreeSlotsExact) (id : SetId) : (r.free id).FreeSlotsExact :=
  h.congr (freeSlots_free r id) fun _ => by rw [slots_free]

theorem setSlot (h : r.FreeSlotsExact) {slot : SlotId} {state : SlotState}
    (hold : r.slots[slot]? ≠ some .released) (hnew : state ≠ .released) :
    (r.setSlot slot state).FreeSlotsExact := by
  refine h.congr rfl fun s => ?_
  rw [slots_setSlot]
  by_cases hs : s = slot
  · subst hs
    cases hc : r.slots[s]? <;> simp_all
  · simp [hs]

theorem pointAll (h : r.FreeSlotsExact) {slots : List SlotId}
    (hold : ∀ slot ∈ slots, r.slots[slot]? ≠ some .released) (id : SetId) :
    (r.pointAll slots id).FreeSlotsExact := by
  refine h.congr (freeSlots_pointAll r slots id) fun s => ?_
  rw [slots_pointAll]
  by_cases hs : s ∈ slots
  · have := hold s hs
    cases hc : r.slots[s]? <;> simp_all
  · simp [hs]

end FreeSlotsExact

/-- Where a new set goes there is none yet. -/
theorem find?_store {r : Registry σ} (h : r.FreeCellsExact) (entry : SetEntry σ) (id : SetId) :
    (r.store entry).find? id = if id = r.nextId then some entry else r.find? id := by
  obtain ⟨index, generation⟩ := id
  cases hfree : r.freeCells with
  | nil =>
    simp only [find?, store, nextId, hfree, List.headD_nil, Array.getElem?_push, SetId.mk.injEq]
    by_cases hi : index = r.cells.size
    · by_cases hg : 0 = generation
      · simp [hi, ← hg]
      · simp [hi, hg, Ne.symm hg]
    · simp [hi]
  | cons first rest =>
    obtain ⟨held, hc⟩ := (h.mem_iff first).mp (by simp [hfree])
    simp only [find?, store, nextId, hfree, List.headD_cons, Array.getElem?_modify, SetId.mk.injEq]
    by_cases hi : first = index
    · subst hi
      by_cases hg : held = generation
      · simp [hc, hg]
      · simp [hc, hg, Ne.symm hg]
    · simp [hi, Ne.symm hi]

theorem find?_nextId {r : Registry σ} (h : r.FreeCellsExact) : r.find? r.nextId = none := by
  cases hfree : r.freeCells with
  | nil => simp [find?, nextId, hfree]
  | cons first rest =>
    obtain ⟨held, hc⟩ := (h.mem_iff first).mp (by simp [hfree])
    simp [find?, nextId, hfree, hc]

end FormatNegotiation.Registry
