import FormatNegotiation.Proofs.Registry.WellFormed
import Mathlib.Data.List.Nodup

/-! What each operation on references does, and that it keeps the invariant. -/
namespace FormatNegotiation.Registry

variable {σ : Type} {r : Registry σ}

/-! ## Storing a new set -/

theorem checkDistinctVacant_eq_ok (r : Registry σ) (seen slots : List SlotId) :
    r.checkDistinctVacant seen slots = .ok () ↔
      (∀ s ∈ slots, r.slots[s]? = some .vacant) ∧ slots.Nodup ∧ ∀ s ∈ slots, s ∉ seen := by
  induction slots generalizing seen with
  | nil => simp [checkDistinctVacant]
  | cons slot rest ih =>
    unfold checkDistinctVacant
    cases hv : r.checkVacant slot with
    | error e =>
      have hne : r.slots[slot]? ≠ some .vacant := fun h => by
        simp [checkVacant_eq_ok.mpr h] at hv
      simp [hne]
    | ok u =>
      have hvacant := checkVacant_eq_ok.mp hv
      by_cases hs : slot ∈ seen
      · simp [hs]
      · simp only [List.contains_iff_mem, hs, if_false, ih, List.mem_cons,
          List.nodup_cons]
        grind

theorem attach_cases (contents : σ) (slots : List SlotId) (r : Registry σ) :
    (∃ e, attach contents slots r = .error e r) ∨
    (slots = [] ∧ attach contents slots r = .ok none r) ∨
    (slots ≠ [] ∧ slots.Nodup ∧ (∀ s ∈ slots, r.slots[s]? = some .vacant) ∧
      attach contents slots r =
        .ok (some r.nextId) ((r.store ⟨contents, slots⟩).pointAll slots r.nextId)) := by
  unfold attach
  cases slots with
  | nil => exact .inr (.inl ⟨rfl, rfl⟩)
  | cons slot rest =>
    have hiff := checkDistinctVacant_eq_ok r [] (slot :: rest)
    cases hc : r.checkDistinctVacant [] (slot :: rest) with
    | error e => exact .inl ⟨e, by simp⟩
    | ok u =>
      obtain ⟨hvacant, hnd, -⟩ := hiff.mp hc
      exact .inr (.inr ⟨by simp, hnd, hvacant, by simp⟩)

theorem attach_wellFormed (h : r.WellFormed) {contents : σ} {slots : List SlotId}
    (hne : slots ≠ []) (hnd : slots.Nodup) (hvacant : ∀ s ∈ slots, r.slots[s]? = some .vacant) :
    ((r.store ⟨contents, slots⟩).pointAll slots r.nextId).WellFormed where
  linked := by
    have hnew := find?_nextId h.freeCells
    have hbound : ∀ s ∈ slots, s < (r.store ⟨contents, slots⟩).slots.size := fun s hs => by
      rw [slots_store]
      exact (Array.getElem?_eq_some_iff.mp (hvacant s hs)).1
    refine h.linked.of_each fun id => ?_
    simp only [find?_pointAll, find?_store h.freeCells, held?_pointAll hbound,
      held?_store]
    by_cases hid : id = r.nextId
    · subst hid
      refine .inr (.inr ⟨⟨contents, slots⟩, by simp, hnd, hne, fun s => ?_⟩)
      have hold : r.held? s ≠ some r.nextId := fun hs => by
        simpa [hnew] using h.linked.mem_of_held hs
      by_cases hs : s ∈ slots <;> simp [hs, hold]
    · refine .inl ⟨by simp [hid], fun s => ?_⟩
      by_cases hs : s ∈ slots
      · simp [hs, Ne.symm hid, held?_of_vacant (hvacant s hs)]
      · simp [hs]
  freeCells := (h.freeCells.store _).pointAll _ _
  freeSlots := by
    refine (h.freeSlots.store _).pointAll (fun s hs => ?_) _
    simp [hvacant s hs]

/-! ## Adding a reference -/

theorem addReference_cases (id : SetId) (slot : SlotId) (r : Registry σ) :
    (∃ e, addReference id slot r = .error e r) ∨
    ∃ entry, r.slots[slot]? = some .vacant ∧ r.find? id = some entry ∧
      addReference id slot r =
        .ok () ((r.modifyEntry id fun e => { e with refs := e.refs ++ [slot] }).setSlot slot
          (.held id)) := by
  unfold addReference
  cases hv : r.checkVacant slot with
  | error e => exact .inl ⟨e, rfl⟩
  | ok u =>
    cases hf : r.find? id with
    | none => exact .inl ⟨.unknownSet, by simp [isLive, hf]⟩
    | some entry => exact .inr ⟨entry, checkVacant_eq_ok.mp hv, rfl, by simp [isLive, hf]⟩

theorem addReference_wellFormed (h : r.WellFormed) {id : SetId} {slot : SlotId}
    {entry : SetEntry σ} (hvacant : r.slots[slot]? = some .vacant)
    (hfind : r.find? id = some entry) :
    ((r.modifyEntry id fun e => { e with refs := e.refs ++ [slot] }).setSlot slot
      (.held id)).WellFormed where
  linked := by
    have hbound := (Array.getElem?_eq_some_iff.mp hvacant).1
    have hempty := held?_of_vacant hvacant
    have hnotin : slot ∉ entry.refs := fun hs => by
      simp [h.linked.held_of_mem hfind hs] at hempty
    refine h.linked.of_each fun id' => ?_
    simp only [find?_setSlot, find?_modifyEntry, held?_modifyEntry,
      held?_setSlot_held (r := r.modifyEntry id _) hbound]
    by_cases hid : id' = id
    · subst hid
      refine .inr (.inr ⟨{ entry with refs := entry.refs ++ [slot] }, by simp [hfind], ?_,
        by simp, fun s => ?_⟩)
      · refine List.nodup_append.mpr
          ⟨h.linked.nodup_refs hfind, List.pairwise_singleton _ _, fun s hs t ht => ?_⟩
        rw [List.mem_singleton.mp ht]
        exact fun he => hnotin (he ▸ hs)
      · by_cases hs : s = slot <;> simp [hs, h.linked.mem_refs_iff hfind]
    · refine .inl ⟨by simp [hid], fun s => ?_⟩
      by_cases hs : s = slot
      · simp [hs, hempty, Ne.symm hid]
      · simp [hs]
  freeCells := (h.freeCells.modifyEntry id _).setSlot _ _
  freeSlots := (h.freeSlots.modifyEntry id _).setSlot (by simp [hvacant]) (by simp)

/-! ## Removing a reference -/

theorem removeReference_of_held?_none {slot : SlotId} (h : r.held? slot = none) :
    r.removeReference slot = r := by
  simp [removeReference, h]

/-- What the loss of a reference leaves of a set. -/
def withoutRef (entry : SetEntry σ) (slot : SlotId) : Option (SetEntry σ) :=
  if entry.refs.erase slot = [] then none else some { entry with refs := entry.refs.erase slot }

theorem find?_removeReference {slot : SlotId} {id : SetId} {entry : SetEntry σ}
    (hheld : r.held? slot = some id) (hfind : r.find? id = some entry) (id' : SetId) :
    (r.removeReference slot).find? id' =
      if id' = id then withoutRef entry slot else r.find? id' := by
  have hrest : ((r.setSlot slot .vacant).modifyEntry id
      fun e => { e with refs := e.refs.erase slot }).refs id = entry.refs.erase slot := by
    simp [refs, find?_modifyEntry, hfind]
  simp only [removeReference, hheld, hrest, List.isEmpty_iff, withoutRef]
  by_cases hlast : entry.refs.erase slot = []
  · simp only [hlast, if_true, find?_free, find?_modifyEntry, find?_setSlot]
    by_cases hid : id' = id <;> simp [hid]
  · simp only [hlast, if_false, find?_modifyEntry, find?_setSlot]
    by_cases hid : id' = id <;> simp [hid, hfind]

theorem slots_removeReference (r : Registry σ) (slot s : SlotId) :
    (r.removeReference slot).slots[s]? =
      if s = slot ∧ (r.held? slot).isSome then some .vacant else r.slots[s]? := by
  unfold removeReference
  cases hheld : r.held? slot with
  | none => simp
  | some id =>
    have hslots : ∀ rest : Registry σ, rest.slots = (r.setSlot slot .vacant).slots →
        rest.slots[s]? = if s = slot ∧ (some id).isSome then some .vacant else r.slots[s]? := by
      intro rest hrest
      rw [hrest, slots_setSlot]
      by_cases hs : s = slot
      · simp [hs, held?_eq_some.mp hheld]
      · simp [hs]
    dsimp only
    split
    · exact hslots _ (slots_free _ _)
    · exact hslots _ rfl

theorem held?_removeReference (r : Registry σ) (slot s : SlotId) :
    (r.removeReference slot).held? s = if s = slot then none else r.held? s := by
  by_cases hs : s = slot
  · subst hs
    cases hheld : r.held? s with
    | none => simp [removeReference_of_held?_none hheld, hheld]
    | some id => simpa using held?_of_vacant (by simp [slots_removeReference, hheld])
  · simp [held?, slots_removeReference, hs]

theorem removeReference_wellFormed (h : r.WellFormed) (slot : SlotId) :
    (r.removeReference slot).WellFormed := by
  cases hheld : r.held? slot with
  | none => rwa [removeReference_of_held?_none hheld]
  | some id =>
    obtain ⟨entry, hfind, hmem⟩ := h.linked.mem_of_held hheld
    have hnd := h.linked.nodup_refs hfind
    refine ⟨h.linked.of_each fun id' => ?_, ?_, ?_⟩
    · simp only [find?_removeReference hheld hfind, held?_removeReference]
      by_cases hid : id' = id
      · subst hid
        have hrefs : ∀ s, (if s = slot then none else r.held? s) = some id' ↔
            s ∈ entry.refs.erase slot := fun s => by
          rw [hnd.mem_erase_iff, h.linked.mem_refs_iff hfind]
          by_cases hs : s = slot <;> simp [hs]
        by_cases hlast : entry.refs.erase slot = []
        · refine .inr (.inl ⟨by simp [withoutRef, hlast], fun s hs => ?_⟩)
          simp [hlast, hrefs] at hs
        · exact .inr (.inr ⟨{ entry with refs := entry.refs.erase slot },
            by simp [withoutRef, hlast], hnd.erase slot, hlast, hrefs⟩)
      · refine .inl ⟨by simp [hid], fun s => ?_⟩
        by_cases hs : s = slot
        · simp [hs, hheld, Ne.symm hid]
        · simp [hs]
    all_goals
      simp only [removeReference, hheld]
      split
    · exact ((h.freeCells.setSlot slot _).modifyEntry id _).free id
    · exact (h.freeCells.setSlot slot _).modifyEntry id _
    · refine ((h.freeSlots.setSlot ?_ (by simp)).modifyEntry id _).free id
      simp [held?_eq_some.mp hheld]
    · refine (h.freeSlots.setSlot ?_ (by simp)).modifyEntry id _
      simp [held?_eq_some.mp hheld]

/-! ## Moving references -/

theorem replace_eq_map {l : List SlotId} (h : l.Nodup) (old new : SlotId) :
    l.replace old new = l.map fun s => if s = old then new else s := by
  induction l with
  | nil => rfl
  | cons a l ih =>
    rw [List.nodup_cons] at h
    by_cases ha : a = old
    · subst ha
      have hl : l.map (fun s => if s = a then new else s) = l.map id :=
        List.map_congr_left fun s hs => if_neg (ne_of_mem_of_not_mem hs h.1)
      rw [List.replace_cons_self, List.map_cons, hl, List.map_id, if_pos rfl]
    · have hne : (old == a) = false := by simpa using Ne.symm ha
      simp [List.replace_cons, hne, ha, ih h.2]

theorem nodup_replace {l : List SlotId} (h : l.Nodup) {new : SlotId} (hnew : new ∉ l)
    (old : SlotId) : (l.replace old new).Nodup := by
  rw [replace_eq_map h]
  refine List.Nodup.map_on (fun s hs t ht hst => ?_) h
  have hs' : s ≠ new := ne_of_mem_of_not_mem hs hnew
  have ht' : t ≠ new := ne_of_mem_of_not_mem ht hnew
  split at hst <;> split at hst <;> simp_all

theorem mem_replace_iff {l : List SlotId} (h : l.Nodup) {old : SlotId} (hold : old ∈ l)
    (new s : SlotId) : s ∈ l.replace old new ↔ s = new ∨ s ∈ l ∧ s ≠ old := by
  rw [replace_eq_map h, List.mem_map]
  constructor
  · rintro ⟨t, ht, rfl⟩
    by_cases hto : t = old
    · rw [if_pos hto]
      exact .inl rfl
    · rw [if_neg hto]
      exact .inr ⟨ht, hto⟩
  · rintro (rfl | ⟨hs, hso⟩)
    · exact ⟨old, hold, if_pos rfl⟩
    · exact ⟨s, hs, if_neg hso⟩

theorem changeReference_cases (old new : SlotId) (r : Registry σ) :
    (∃ e, changeReference old new r = .error e r) ∨
    ((r.held? old = none ∨ old = new) ∧ changeReference old new r = .ok () r) ∨
    ∃ id entry, r.held? old = some id ∧ old ≠ new ∧ r.slots[new]? = some .vacant ∧
      r.find? id = some entry ∧
      changeReference old new r =
        .ok () (((r.modifyEntry id fun e => { e with refs := e.refs.replace old new }).setSlot
          new (.held id)).setSlot old .vacant) := by
  unfold changeReference
  by_cases hissued : r.slotCount ≤ old
  · exact .inl ⟨.unknownSlot old, by simp [hissued]⟩
  cases hheld : r.held? old with
  | none => exact .inr (.inl ⟨.inl rfl, by simp [hissued]⟩)
  | some id =>
    by_cases hne : old = new
    · exact .inr (.inl ⟨.inr hne, by simp [hissued, ← hne]⟩)
    cases hv : r.checkVacant new with
    | error e => exact .inl ⟨e, by simp [hissued, hne]⟩
    | ok u =>
      cases hf : r.find? id with
      | none => exact .inl ⟨.unknownSet, by simp [hissued, hne, isLive, hf]⟩
      | some entry =>
        exact .inr (.inr ⟨id, entry, rfl, hne, checkVacant_eq_ok.mp hv, hf,
          by simp [hissued, hne, isLive, hf]⟩)

/-- A reference can be moved to a vacant slot. -/
theorem changeReference_succeeds (h : r.Linked) {old new : SlotId} (hold : old < r.slotCount)
    (hnew : r.slots[new]? = some .vacant) : ∃ r', changeReference old new r = .ok () r' := by
  unfold changeReference
  rw [if_neg (Nat.not_le_of_lt hold)]
  cases hheld : r.held? old with
  | none => exact ⟨r, rfl⟩
  | some id =>
    obtain ⟨entry, hfind, -⟩ := h.mem_of_held hheld
    by_cases hsame : old = new
    · exact ⟨r, if_pos hsame⟩
    · simp [hsame, checkVacant_eq_ok.mpr hnew, isLive, hfind]

theorem changeReference_wellFormed (h : r.WellFormed) {old new : SlotId} {id : SetId}
    {entry : SetEntry σ} (hheld : r.held? old = some id) (hne : old ≠ new)
    (hvacant : r.slots[new]? = some .vacant) (hfind : r.find? id = some entry) :
    (((r.modifyEntry id fun e => { e with refs := e.refs.replace old new }).setSlot
      new (.held id)).setSlot old .vacant).WellFormed where
  linked := by
    have hbound := (Array.getElem?_eq_some_iff.mp hvacant).1
    have hempty := held?_of_vacant hvacant
    have hmem := (h.linked.mem_refs_iff hfind old).mpr hheld
    have hnotin : new ∉ entry.refs := fun hs => by
      simp [h.linked.held_of_mem hfind hs] at hempty
    have hnd := h.linked.nodup_refs hfind
    refine h.linked.of_each fun id' => ?_
    simp only [find?_setSlot, find?_modifyEntry, held?_setSlot_vacant,
      held?_setSlot_held (r := r.modifyEntry id _) hbound, held?_modifyEntry]
    -- Only the set at the old slot changes; no other set lists either slot.
    by_cases hid : id' = id
    · subst hid
      have hrefs := mem_replace_iff hnd hmem new
      refine .inr (.inr ⟨{ entry with refs := entry.refs.replace old new }, by simp [hfind],
        nodup_replace hnd hnotin old, List.ne_nil_of_mem ((hrefs new).mpr (.inl rfl)),
        fun s => ?_⟩)
      rw [hrefs, h.linked.mem_refs_iff hfind]
      by_cases hold : s = old
      · simp [hold, hne]
      · by_cases hnew : s = new <;> simp [hold, hnew, Ne.symm hne]
    · refine .inl ⟨by simp [hid], fun s => ?_⟩
      by_cases hold : s = old
      · simp [hold, hheld, Ne.symm hid]
      · by_cases hnew : s = new
        · simp [hnew, hempty, Ne.symm hid, Ne.symm hne]
        · simp [hold, hnew]
  freeCells := ((h.freeCells.modifyEntry id _).setSlot _ _).setSlot _ _
  freeSlots := by
    refine ((h.freeSlots.modifyEntry id _).setSlot (by simp [hvacant]) (by simp)).setSlot ?_
      (by simp)
    simp [slots_setSlot, hne, held?_eq_some.mp hheld]

end FormatNegotiation.Registry
