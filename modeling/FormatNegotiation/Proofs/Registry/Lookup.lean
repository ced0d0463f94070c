import FormatNegotiation.Registry.Basic

/-! Lookups of sets and slots after each of the elementary updates of a registry. -/
namespace FormatNegotiation.Registry

variable {σ : Type}

theorem find?_eq_some {r : Registry σ} {id : SetId} {entry : SetEntry σ} :
    r.find? id = some entry ↔ r.cells[id.index]? = some ⟨id.generation, some entry⟩ := by
  unfold find?
  cases hc : r.cells[id.index]? with
  | none => simp
  | some cell =>
    obtain ⟨generation, occupant⟩ := cell
    by_cases hg : generation = id.generation <;> simp [hg]

/-- A cell holds one live set at a time. -/
theorem eq_of_index_eq {r : Registry σ} {a b : SetId} {x y : SetEntry σ} (hx : r.find? a = some x)
    (hy : r.find? b = some y) (h : a.index = b.index) : a = b := by
  rw [find?_eq_some] at hx hy
  rw [h, hy] at hx
  have hgeneration : b.generation = a.generation :=
    congrArg Cell.generation (Option.some.inj hx)
  obtain ⟨index, generation⟩ := a
  obtain ⟨index', generation'⟩ := b
  rw [SetId.mk.injEq]
  exact ⟨h, hgeneration.symm⟩

theorem held?_eq_some {r : Registry σ} {slot : SlotId} {id : SetId} :
    r.held? slot = some id ↔ r.slots[slot]? = some (.held id) := by
  unfold held?
  split <;> simp_all

theorem checkVacant_eq_ok {r : Registry σ} {slot : SlotId} :
    r.checkVacant slot = .ok () ↔ r.slots[slot]? = some .vacant := by
  unfold checkVacant
  split <;> simp_all

theorem held?_of_vacant {r : Registry σ} {slot : SlotId} (h : r.slots[slot]? = some .vacant) :
    r.held? slot = none := by
  simp [held?, h]

theorem refs_of_find? {r : Registry σ} {id : SetId} {entry : SetEntry σ}
    (h : r.find? id = some entry) : r.refs id = entry.refs := by
  simp [refs, h]

theorem refs_of_find?_none {r : Registry σ} {id : SetId} (h : r.find? id = none) :
    r.refs id = [] := by
  simp [refs, h]

theorem contents?_of_find? {r : Registry σ} {id : SetId} {entry : SetEntry σ}
    (h : r.find? id = some entry) : r.contents? id = some entry.contents := by
  simp [contents?, h]

theorem contents?_eq_some {r : Registry σ} {id : SetId} {contents : σ} :
    r.contents? id = some contents ↔
      ∃ entry, r.find? id = some entry ∧ entry.contents = contents := by
  simp [contents?]

theorem exists_cell_of_contents? {r : Registry σ} {id : SetId} {contents : σ}
    (h : r.contents? id = some contents) :
    ∃ cell ∈ r.cells.toList, cell.occupant.map (·.contents) = some contents := by
  obtain ⟨entry, hfind, rfl⟩ := contents?_eq_some.mp h
  have hcell := Array.mem_of_getElem? (find?_eq_some.mp hfind)
  exact ⟨_, Array.mem_toList_iff.mpr hcell, rfl⟩

/-! ## Slots -/

theorem slots_setSlot (r : Registry σ) (slot : SlotId) (state : SlotState) (s : SlotId) :
    (r.setSlot slot state).slots[s]? =
      if s = slot then (r.slots[s]?).map fun _ => state else r.slots[s]? := by
  by_cases hs : s = slot
  · subst hs
    by_cases hb : s < r.slots.size
    · simp [setSlot, hb]
    · simp [setSlot, hb]
  · simp [setSlot, hs, Array.getElem?_setIfInBounds_ne (Ne.symm hs)]

theorem slots_pointAll (r : Registry σ) (slots : List SlotId) (id : SetId) (s : SlotId) :
    (r.pointAll slots id).slots[s]? =
      if s ∈ slots then (r.slots[s]?).map fun _ => .held id else r.slots[s]? := by
  induction slots generalizing r with
  | nil => simp [pointAll]
  | cons slot rest ih =>
    have hstep : r.pointAll (slot :: rest) id = (r.setSlot slot (.held id)).pointAll rest id := rfl
    rw [hstep, ih, slots_setSlot]
    by_cases hs : s = slot
    · cases r.slots[s]? <;> simp [hs]
    · simp [hs]

theorem lt_size_of_held? {r : Registry σ} {slot : SlotId} {id : SetId}
    (h : r.held? slot = some id) : slot < r.slots.size := by
  rw [held?_eq_some] at h
  exact (Array.getElem?_eq_some_iff.mp h).1

theorem held?_setSlot_held {r : Registry σ} {slot : SlotId} (h : slot < r.slots.size) (id : SetId)
    (s : SlotId) :
    (r.setSlot slot (.held id)).held? s = if s = slot then some id else r.held? s := by
  simp only [held?, slots_setSlot]
  by_cases hs : s = slot
  · subst hs
    simp [h]
  · simp [hs]

theorem held?_setSlot_vacant (r : Registry σ) (slot s : SlotId) :
    (r.setSlot slot .vacant).held? s = if s = slot then none else r.held? s := by
  simp only [held?, slots_setSlot]
  by_cases hs : s = slot
  · cases r.slots[s]? <;> simp [hs]
  · simp [hs]

theorem held?_setSlot_released (r : Registry σ) (slot s : SlotId) :
    (r.setSlot slot .released).held? s = if s = slot then none else r.held? s := by
  simp only [held?, slots_setSlot]
  by_cases hs : s = slot
  · cases r.slots[s]? <;> simp [hs]
  · simp [hs]

theorem held?_pointAll {r : Registry σ} {slots : List SlotId}
    (h : ∀ s ∈ slots, s < r.slots.size) (id : SetId) (s : SlotId) :
    (r.pointAll slots id).held? s = if s ∈ slots then some id else r.held? s := by
  simp only [held?, slots_pointAll]
  by_cases hs : s ∈ slots
  · simp [hs, h s hs]
  · simp [hs]

theorem held?_congr {r r' : Registry σ} {slot : SlotId} (h : r.slots[slot]? = r'.slots[slot]?) :
    r.held? slot = r'.held? slot := by
  simp only [held?, h]

/-- If a slot is left alone unless it points at a certain set, and else goes to another one, so does
what it points at. -/
theorem held?_of_repointed {r r' : Registry σ} {slot : SlotId} {src dst : SetId}
    (h : r'.slots[slot]? = if r.held? slot = some src then some (.held dst) else r.slots[slot]?) :
    r'.held? slot = if r.held? slot = some src then some dst else r.held? slot := by
  by_cases hs : r.held? slot = some src
  · rw [if_pos hs] at h ⊢
    exact held?_eq_some.mpr h
  · rw [if_neg hs] at h ⊢
    exact held?_congr h

/-! ## Slots and their free list under changes to sets -/

@[simp] theorem slots_modifyEntry (r : Registry σ) (id : SetId) (f : SetEntry σ → SetEntry σ) :
    (r.modifyEntry id f).slots = r.slots := rfl

@[simp] theorem slots_store (r : Registry σ) (entry : SetEntry σ) :
    (r.store entry).slots = r.slots := by
  unfold store
  split <;> rfl

@[simp] theorem slots_free (r : Registry σ) (id : SetId) : (r.free id).slots = r.slots := by
  unfold free
  split <;> rfl

@[simp] theorem held?_modifyEntry (r : Registry σ) (id : SetId) (f : SetEntry σ → SetEntry σ)
    (slot : SlotId) : (r.modifyEntry id f).held? slot = r.held? slot := rfl

@[simp] theorem held?_store (r : Registry σ) (entry : SetEntry σ) (slot : SlotId) :
    (r.store entry).held? slot = r.held? slot := held?_congr (by rw [slots_store])

@[simp] theorem freeSlots_setSlot (r : Registry σ) (slot : SlotId) (state : SlotState) :
    (r.setSlot slot state).freeSlots = r.freeSlots := rfl

@[simp] theorem freeSlots_modifyEntry (r : Registry σ) (id : SetId)
    (f : SetEntry σ → SetEntry σ) : (r.modifyEntry id f).freeSlots = r.freeSlots := rfl

@[simp] theorem freeSlots_store (r : Registry σ) (entry : SetEntry σ) :
    (r.store entry).freeSlots = r.freeSlots := by
  unfold store
  split <;> rfl

@[simp] theorem freeSlots_free (r : Registry σ) (id : SetId) :
    (r.free id).freeSlots = r.freeSlots := by
  unfold free
  split <;> rfl

/-! ## Sets -/

@[simp] theorem cells_setSlot (r : Registry σ) (slot : SlotId) (state : SlotState) :
    (r.setSlot slot state).cells = r.cells := rfl

@[simp] theorem freeCells_setSlot (r : Registry σ) (slot : SlotId) (state : SlotState) :
    (r.setSlot slot state).freeCells = r.freeCells := rfl

/-- Pointing slots at a set concerns the slots alone. -/
theorem pointAll_eq (r : Registry σ) (slots : List SlotId) (id : SetId) :
    r.pointAll slots id = { r with slots := (r.pointAll slots id).slots } := by
  induction slots generalizing r with
  | nil => rfl
  | cons slot rest ih => exact ih (r.setSlot slot (.held id))

@[simp] theorem cells_pointAll (r : Registry σ) (slots : List SlotId) (id : SetId) :
    (r.pointAll slots id).cells = r.cells := by
  rw [pointAll_eq]

@[simp] theorem freeCells_pointAll (r : Registry σ) (slots : List SlotId) (id : SetId) :
    (r.pointAll slots id).freeCells = r.freeCells := by
  rw [pointAll_eq]

@[simp] theorem freeSlots_pointAll (r : Registry σ) (slots : List SlotId) (id : SetId) :
    (r.pointAll slots id).freeSlots = r.freeSlots := by
  rw [pointAll_eq]

@[simp] theorem freeCells_modifyEntry (r : Registry σ) (id : SetId)
    (f : SetEntry σ → SetEntry σ) : (r.modifyEntry id f).freeCells = r.freeCells := rfl

theorem find?_congr {r r' : Registry σ} (h : r.cells = r'.cells) (id : SetId) :
    r.find? id = r'.find? id := by
  simp only [find?, h]

@[simp] theorem find?_setSlot (r : Registry σ) (slot : SlotId) (state : SlotState) (id : SetId) :
    (r.setSlot slot state).find? id = r.find? id := rfl

@[simp] theorem find?_pointAll (r : Registry σ) (slots : List SlotId) (id id' : SetId) :
    (r.pointAll slots id).find? id' = r.find? id' :=
  find?_congr (cells_pointAll r slots id) id'

theorem find?_modifyEntry (r : Registry σ) (id : SetId) (f : SetEntry σ → SetEntry σ)
    (id' : SetId) :
    (r.modifyEntry id f).find? id' = if id' = id then (r.find? id').map f else r.find? id' := by
  obtain ⟨index, generation⟩ := id
  obtain ⟨index', generation'⟩ := id'
  simp only [find?, modifyEntry, Array.getElem?_modify, SetId.mk.injEq]
  by_cases hi : index = index'
  · subst hi
    cases hc : r.cells[index]? with
    | none => simp
    | some cell =>
      obtain ⟨held, occupant⟩ := cell
      by_cases hg : held = generation
      · subst hg
        by_cases hg' : held = generation'
        · simp [hg']
        · simp [hg', Ne.symm hg']
      · by_cases hg' : held = generation'
        · subst hg'
          simp [hg]
        · simp [hg, hg']
  · simp [hi, Ne.symm hi]

theorem find?_free (r : Registry σ) (id id' : SetId) :
    (r.free id).find? id' = if id' = id then none else r.find? id' := by
  unfold free
  cases hf : r.find? id with
  | none =>
    by_cases h : id' = id
    · simp [h, hf]
    · simp [h]
  | some entry =>
    have hc := find?_eq_some.mp hf
    obtain ⟨index, generation⟩ := id
    obtain ⟨index', generation'⟩ := id'
    simp only [find?, Array.getElem?_modify, SetId.mk.injEq]
    by_cases hi : index = index'
    · subst hi
      by_cases hg : generation' = generation
      · simp [hc, hg]
      · simp [hc, hg, Ne.symm hg]
    · simp [hi, Ne.symm hi]

end FormatNegotiation.Registry
