import FormatNegotiation.Proofs.Registry.References

/-! Handing out slots and taking them back. -/
namespace FormatNegotiation.Registry

variable {σ : Type} {r : Registry σ}

/-! ## Handing out slots -/

theorem slots_newSlot (h : r.FreeSlotsExact) (s : SlotId) :
    r.newSlot.2.slots[s]? = if s = r.newSlot.1 then some .vacant else r.slots[s]? := by
  unfold newSlot
  cases hfree : r.freeSlots with
  | nil => simp [Array.getElem?_push]
  | cons slot rest =>
    have hreleased := (h.mem_iff slot).mp (by simp [hfree])
    simp only [slots_setSlot]
    by_cases hs : s = slot
    · simp [hs, hreleased]
    · simp [hs]

theorem find?_newSlot (r : Registry σ) (id : SetId) : r.newSlot.2.find? id = r.find? id := by
  unfold newSlot
  split <;> rfl

/-- A slot that is handed out was in no use before. -/
theorem held?_newSlot_fst (h : r.FreeSlotsExact) : r.held? r.newSlot.1 = none := by
  unfold newSlot
  cases hfree : r.freeSlots with
  | nil => simp [held?]
  | cons slot rest =>
    have hreleased := (h.mem_iff slot).mp (by simp [hfree])
    simp [held?, hreleased]

theorem held?_newSlot (h : r.FreeSlotsExact) (s : SlotId) :
    r.newSlot.2.held? s = r.held? s := by
  by_cases hs : s = r.newSlot.1
  · rw [hs, held?_newSlot_fst h]
    simp [held?, slots_newSlot h]
  · simp [held?, slots_newSlot h, hs]

theorem newSlot_wellFormed (h : r.WellFormed) : r.newSlot.2.WellFormed where
  linked := h.linked.congr (find?_newSlot r) (held?_newSlot h.freeSlots)
  freeCells := by
    unfold newSlot
    split <;> exact h.freeCells.congr rfl rfl
  freeSlots := by
    have hslots := slots_newSlot h.freeSlots
    unfold newSlot at hslots ⊢
    cases hfree : r.freeSlots with
    | nil =>
      refine ⟨List.nodup_nil, fun s => ?_⟩
      have hiff := h.freeSlots.mem_iff s
      simp only [hfree] at hslots hiff ⊢
      rw [hslots, hiff]
      by_cases hs : s = r.slots.size <;> simp [hs]
    | cons slot rest =>
      have hnd := h.freeSlots.nodup
      rw [hfree, List.nodup_cons] at hnd
      refine ⟨hnd.2, fun s => ?_⟩
      have hiff := h.freeSlots.mem_iff s
      simp only [hfree, List.mem_cons] at hslots hiff ⊢
      rw [hslots]
      by_cases hs : s = slot
      · simp [hs, hnd.1]
      · simpa [hs] using hiff

/-! ## Handing back slots -/

theorem releaseSlot_cases (r : Registry σ) (slot : SlotId) :
    ((r.slots[slot]? = none ∨ r.slots[slot]? = some .released) ∧ r.releaseSlot slot = r) ∨
    (slot < r.slots.size ∧ r.slots[slot]? ≠ some .released ∧
      r.releaseSlot slot = { (r.removeReference slot).setSlot slot .released with
        freeSlots := slot :: r.freeSlots }) := by
  unfold releaseSlot
  cases hs : r.slots[slot]? with
  | none => exact .inl ⟨.inl rfl, rfl⟩
  | some state =>
    have hbound := (Array.getElem?_eq_some_iff.mp hs).1
    cases state with
    | released => exact .inl ⟨.inr rfl, rfl⟩
    | vacant => exact .inr ⟨hbound, by simp, rfl⟩
    | held id => exact .inr ⟨hbound, by simp, rfl⟩

theorem find?_releaseSlot (r : Registry σ) (slot : SlotId) (id : SetId) :
    (r.releaseSlot slot).find? id = (r.removeReference slot).find? id := by
  rcases releaseSlot_cases r slot with ⟨hs, heq⟩ | ⟨-, -, heq⟩
  · have hnone : r.held? slot = none := by rcases hs with hs | hs <;> simp [held?, hs]
    rw [heq, removeReference_of_held?_none hnone]
  · rw [heq]
    rfl

theorem held?_releaseSlot (r : Registry σ) (slot s : SlotId) :
    (r.releaseSlot slot).held? s = if s = slot then none else r.held? s := by
  rcases releaseSlot_cases r slot with ⟨hs, heq⟩ | ⟨-, -, heq⟩
  · have hnone : r.held? slot = none := by rcases hs with hs | hs <;> simp [held?, hs]
    rw [heq]
    split
    · simp_all
    · rfl
  · rw [heq]
    refine (held?_setSlot_released _ slot s).trans ?_
    rw [held?_removeReference]
    split <;> rfl

theorem slots_releaseSlot (r : Registry σ) (slot s : SlotId) :
    (r.releaseSlot slot).slots[s]? =
      if s = slot then (r.slots[s]?).map fun _ => .released else r.slots[s]? := by
  rcases releaseSlot_cases r slot with ⟨hs, heq⟩ | ⟨hbound, -, heq⟩
  · rw [heq]
    split
    · rename_i he
      subst he
      rcases hs with hs | hs <;> simp [hs]
    · rfl
  · rw [heq]
    refine (slots_setSlot _ slot _ s).trans ?_
    rw [slots_removeReference]
    by_cases hs : s = slot
    · subst hs
      simp only [if_true, true_and]
      split <;> simp [hbound]
    · simp [hs]

theorem releaseSlot_wellFormed (h : r.WellFormed) (slot : SlotId) :
    (r.releaseSlot slot).WellFormed := by
  have hrest := removeReference_wellFormed h slot
  refine ⟨hrest.linked.congr (find?_releaseSlot r slot) fun s => ?_, ?_, ?_⟩
  · rw [held?_releaseSlot, held?_removeReference]
  · rcases releaseSlot_cases r slot with ⟨-, heq⟩ | ⟨-, -, heq⟩
    · rw [heq]
      exact h.freeCells
    · rw [heq]
      exact hrest.freeCells.congr rfl rfl
  · rcases releaseSlot_cases r slot with ⟨-, heq⟩ | ⟨hbound, hold, heq⟩
    · rw [heq]
      exact h.freeSlots
    · refine ⟨?_, fun s => ?_⟩
      · rw [heq]
        exact List.nodup_cons.mpr ⟨by rwa [h.freeSlots.mem_iff], h.freeSlots.nodup⟩
      · have hmem : s ∈ (r.releaseSlot slot).freeSlots ↔ s = slot ∨ s ∈ r.freeSlots := by
          rw [heq]
          exact List.mem_cons
        rw [hmem, slots_releaseSlot, h.freeSlots.mem_iff]
        by_cases hs : s = slot
        · simp [hs, hbound]
        · simp [hs]

end FormatNegotiation.Registry
