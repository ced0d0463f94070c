import FormatNegotiation.Proofs.Registry.InUse

/-! What becomes of every set and every slot when slots are handed back, when a reference moves to
another slot, and when a new set is stored. -/
namespace FormatNegotiation

/-! ## Losing references -/

/-- What a set keeps if it loses the references from these slots: the others, in their order. It is
gone if there are none. -/
def SetEntry.without {σ : Type} (entry : SetEntry σ) (slots : List SlotId) :
    Option (SetEntry σ) :=
  let rest := entry.refs.filter (· ∉ slots)
  if rest = [] then none else some { entry with refs := rest }

namespace SetEntry

variable {σ : Type} {entry : SetEntry σ} {slots : List SlotId}

theorem without_cases (entry : SetEntry σ) (slots : List SlotId) :
    (entry.refs.filter (· ∉ slots) = [] ∧ entry.without slots = none) ∨
    (entry.refs.filter (· ∉ slots) ≠ [] ∧
      entry.without slots = some { entry with refs := entry.refs.filter (· ∉ slots) }) := by
  by_cases hrest : entry.refs.filter (· ∉ slots) = []
  · exact .inl ⟨hrest, if_pos hrest⟩
  · exact .inr ⟨hrest, if_neg hrest⟩

theorem without_of_disjoint (hne : entry.refs ≠ []) (h : ∀ s ∈ entry.refs, s ∉ slots) :
    entry.without slots = some entry := by
  have hall : entry.refs.filter (· ∉ slots) = entry.refs :=
    List.filter_eq_self.mpr fun s hs => decide_eq_true (h s hs)
  simp only [without, hall, if_neg hne]

/-- References can be lost one after the other. -/
theorem without_cons (entry : SetEntry σ) (slot : SlotId) (rest : List SlotId) :
    (entry.without [slot]).bind (·.without rest) = entry.without (slot :: rest) := by
  have hboth : entry.refs.filter (· ∉ slot :: rest) =
      (entry.refs.filter (· ∉ [slot])).filter (· ∉ rest) := by
    rw [List.filter_filter]
    apply List.filter_congr
    intro s _
    by_cases hs : s = slot <;> simp [hs]
  by_cases hnone : entry.refs.filter (· ∉ [slot]) = []
  · simp only [without, hboth, hnone, List.filter_nil, if_true, Option.bind_none]
  · simp only [without, hboth, if_neg hnone, Option.bind_some]

end SetEntry

namespace Registry

variable {σ : Type} {r r' : Registry σ} {slot old new : SlotId} {slots : List SlotId} {id : SetId}
  {entry : SetEntry σ}

/-- Slots that do not point at a set cost it nothing. -/
theorem Linked.without_eq (h : r.Linked) (hfind : r.find? id = some entry)
    (hother : ∀ s ∈ slots, r.held? s ≠ some id) : entry.without slots = some entry := by
  apply SetEntry.without_of_disjoint (h.refs_ne_nil hfind)
  exact fun s hs hmem => hother s hmem (h.held_of_mem hfind hs)

theorem filter_not_mem_singleton (hnd : slots.Nodup) (slot : SlotId) :
    slots.filter (· ∉ [slot]) = slots.erase slot := by
  rw [hnd.erase_eq_filter]
  apply List.filter_congr
  intro s _
  simp [bne, beq_eq_decide]

theorem withoutRef_eq (hnd : entry.refs.Nodup) (slot : SlotId) :
    withoutRef entry slot = entry.without [slot] := by
  simp only [withoutRef, SetEntry.without, filter_not_mem_singleton hnd]

/-- Every set loses the references from the slot, if it has one. -/
theorem find?_removeReference_eq (h : r.Linked) (slot : SlotId) (id : SetId) :
    (r.removeReference slot).find? id = (r.find? id).bind (·.without [slot]) := by
  have hother : r.held? slot ≠ some id → (r.find? id).bind (·.without [slot]) = r.find? id := by
    intro hne
    cases hfind : r.find? id with
    | none => rfl
    | some entry => exact h.without_eq hfind (by simpa using hne)
  cases hheld : r.held? slot with
  | none => rw [removeReference_of_held?_none hheld, hother (by simp [hheld])]
  | some holder =>
    obtain ⟨entry, hfind, -⟩ := h.mem_of_held hheld
    rw [find?_removeReference hheld hfind]
    by_cases hid : id = holder
    · subst hid
      rw [if_pos rfl, hfind, Option.bind_some, withoutRef_eq (h.nodup_refs hfind)]
    · rw [if_neg hid, hother (by simpa [hheld] using Ne.symm hid)]

section Without

variable (h : r'.find? id = (r.find? id).bind (·.without slots))
include h

theorem refs_of_without : r'.refs id = (r.refs id).filter (· ∉ slots) := by
  rw [refs, h, refs]
  cases r.find? id with
  | none => rfl
  | some entry =>
    rcases entry.without_cases slots with ⟨hrest, heq⟩ | ⟨-, heq⟩ <;> simp [heq]
    simpa using hrest

theorem isLive_of_without : r'.isLive id ↔ r.isLive id ∧ ∃ s ∈ r.refs id, s ∉ slots := by
  rw [isLive, h, isLive, refs]
  cases r.find? id with
  | none => simp
  | some entry =>
    rcases entry.without_cases slots with ⟨hrest, heq⟩ | ⟨hrest, heq⟩ <;>
      simpa [heq, List.filter_eq_nil_iff] using hrest

theorem contents?_of_without (hlive : r'.isLive id) : r'.contents? id = r.contents? id := by
  rw [isLive, h] at hlive
  rw [contents?, h, contents?]
  cases hfind : r.find? id with
  | none => rfl
  | some entry =>
    rw [hfind, Option.bind_some] at hlive
    rcases entry.without_cases slots with ⟨-, heq⟩ | ⟨-, heq⟩
    · rw [heq] at hlive
      cases hlive
    · rw [Option.bind_some, heq]
      rfl

end Without

/-- If it costs every set the references from one slot at a time, it does so from many. -/
theorem find?_foldl_without {lose : Registry σ → SlotId → Registry σ}
    (hwf : ∀ {r : Registry σ}, r.WellFormed → ∀ slot, (lose r slot).WellFormed)
    (hlose : ∀ {r : Registry σ}, r.WellFormed → ∀ slot id,
      (lose r slot).find? id = (r.find? id).bind (·.without [slot]))
    (h : r.WellFormed) (slots : List SlotId) (id : SetId) :
    (slots.foldl lose r).find? id = (r.find? id).bind (·.without slots) := by
  induction slots generalizing r with
  | nil =>
    cases hfind : r.find? id with
    | none => exact hfind
    | some entry => exact hfind.trans (h.linked.without_eq hfind (by simp)).symm
  | cons slot rest ih =>
    rw [List.foldl_cons, ih (hwf h slot), hlose h, Option.bind_assoc]
    simp only [SetEntry.without_cons]

/-! ## Handing slots back -/

/-- How a registry comes out when slots are handed back: the references from them are gone, and with
them the sets that had no others. -/
structure Drops (r r' : Registry σ) (slots : List SlotId) : Prop where
  released {s : SlotId} : s ∈ slots → s < r.slotCount → r'.slots[s]? = some .released
  slots_eq {s : SlotId} : s ∉ slots → r'.slots[s]? = r.slots[s]?
  lost (id : SetId) : r'.find? id = (r.find? id).bind (·.without slots)

namespace Drops

theorem refs_eq (h : r.Drops r' slots) (id : SetId) :
    r'.refs id = (r.refs id).filter (· ∉ slots) := refs_of_without (h.lost id)

theorem isLive_iff (h : r.Drops r' slots) (id : SetId) :
    r'.isLive id ↔ r.isLive id ∧ ∃ s ∈ r.refs id, s ∉ slots := isLive_of_without (h.lost id)

theorem contents?_eq (h : r.Drops r' slots) (hlive : r'.isLive id) :
    r'.contents? id = r.contents? id := contents?_of_without (h.lost id) hlive

end Drops

theorem slots_releaseAll (r : Registry σ) (slots : List SlotId) (s : SlotId) :
    (slots.foldl releaseSlot r).slots[s]? =
      if s ∈ slots then (r.slots[s]?).map fun _ => .released else r.slots[s]? := by
  induction slots generalizing r with
  | nil => simp
  | cons slot rest ih =>
    rw [List.foldl_cons, ih, slots_releaseSlot]
    by_cases hs : s = slot
    · cases r.slots[s]? <;> simp [hs]
    · simp [hs]

theorem find?_releaseAll (h : r.WellFormed) (slots : List SlotId) (id : SetId) :
    (slots.foldl releaseSlot r).find? id = (r.find? id).bind (·.without slots) := by
  refine find?_foldl_without releaseSlot_wellFormed (fun hr slot id => ?_) h slots id
  rw [find?_releaseSlot, find?_removeReference_eq hr.linked]

theorem releaseAll_drops (h : r.WellFormed) (slots : List SlotId) :
    r.Drops (slots.foldl releaseSlot r) slots where
  released hs hbound := by
    rw [slots_releaseAll, if_pos hs, Array.getElem?_eq_getElem hbound]
    rfl
  slots_eq hs := by rw [slots_releaseAll, if_neg hs]
  lost id := find?_releaseAll h slots id

/-! ## Moving a reference -/

/-- One slot has handed its reference over to another, in the same place among the references of the
set, and is vacant. -/
structure HandsOver (r r' : Registry σ) (old new : SlotId) : Prop where
  old_vacant : r'.slots[old]? = some .vacant
  held?_new : r'.held? new = r.held? old
  slots_eq {s : SlotId} : s ≠ old → s ≠ new → r'.slots[s]? = r.slots[s]?
  find?_eq (id : SetId) :
    r'.find? id = (r.find? id).map fun e => { e with refs := e.refs.replace old new }

/-- Slots that nobody may use: never handed out, or taken back. -/
def Unused (r : Registry σ) (slot : SlotId) : Prop :=
  r.slots[slot]? = none ∨ r.slots[slot]? = some .released

theorem InUse.not_unused {used : List SlotId} (h : r.InUse used) (hr : r.FreeSlotsExact)
    (hs : slot ∈ used) : ¬ r.Unused slot := by
  rintro (hnone | hreleased)
  · have hbound := h.lt_slotCount hs
    rw [Array.getElem?_eq_none_iff] at hnone
    exact absurd hbound (Nat.not_lt_of_le hnone)
  · exact ((h.mem_iff hr).mp hs).2 hreleased

theorem vacant_of_held?_none (h : ¬ r.Unused slot) (hnone : r.held? slot = none) :
    r.slots[slot]? = some .vacant := by
  unfold Unused at h
  unfold held? at hnone
  rcases hs : r.slots[slot]? with _ | _ | _ | _
  all_goals simp_all

section Replace

variable (h : r'.find? id = (r.find? id).map fun e => { e with refs := e.refs.replace old new })
include h

theorem refs_of_replace : r'.refs id = (r.refs id).replace old new := by
  rw [refs, h, refs]
  cases r.find? id <;> rfl

theorem contents?_of_replace : r'.contents? id = r.contents? id := by
  rw [contents?, h, contents?]
  cases r.find? id <;> rfl

end Replace

/-- A slot that no set lists can be replaced by any other. -/
theorem Linked.replace_refs_eq (h : r.Linked) (hfind : r.find? id = some entry)
    (hother : r.held? old ≠ some id) (new : SlotId) :
    { entry with refs := entry.refs.replace old new } = entry := by
  have hmem : old ∉ entry.refs := fun hmem => hother (h.held_of_mem hfind hmem)
  rw [List.replace_of_not_mem hmem]

theorem changeReference_handsOver (h : r.Linked) (hne : old ≠ new) (hold : ¬ r.Unused old)
    (hnew : r.slots[new]? = some .vacant) (hres : changeReference old new r = .ok () r') :
    r.HandsOver r' old new := by
  rcases changeReference_cases old new r with
    ⟨e, heq⟩ | ⟨hnothing, heq⟩ | ⟨id, entry, hheld, -, -, hfind, heq⟩
  · cases heq.symm.trans hres
  · cases heq.symm.trans hres
    have hnone : r.held? old = none := hnothing.resolve_right hne
    refine ⟨vacant_of_held?_none hold hnone, ?_, fun _ _ => rfl, fun id => ?_⟩
    · rw [hnone, held?_of_vacant hnew]
    · cases hfind : r.find? id with
      | none => rfl
      | some entry =>
        have hother : r.held? old ≠ some id := by simp [hnone]
        rw [Option.map_some, h.replace_refs_eq hfind hother]
  · cases heq.symm.trans hres
    have hslot := held?_eq_some.mp hheld
    refine ⟨?_, ?_, fun {s} hso hsn => ?_, fun id' => ?_⟩
    · simp [slots_setSlot, hne, hslot]
    · rw [hheld, held?_eq_some]
      simp [slots_setSlot, hne.symm, hnew]
    · simp [slots_setSlot, hso, hsn]
    · simp only [find?_setSlot, find?_modifyEntry]
      by_cases hid : id' = id
      · rw [if_pos hid, hid]
      · rw [if_neg hid]
        cases hfind' : r.find? id' with
        | none => rfl
        | some entry' =>
          have hother : r.held? old ≠ some id' := by simpa [hheld] using Ne.symm hid
          rw [Option.map_some, h.replace_refs_eq hfind' hother]

/-! ## Moving a reference to a slot that has just been handed out -/

theorem newSlot_unused (h : r.FreeSlotsExact) : r.Unused r.newSlot.1 := by
  unfold newSlot
  cases hfree : r.freeSlots with
  | nil => exact .inl (Array.getElem?_eq_none (Nat.le_refl _))
  | cons slot rest => exact .inr ((h.mem_iff slot).mp (by simp [hfree]))

/-- How a registry comes out if two slots are handed out, and the second of them takes over the
reference of a slot that was in use. -/
structure Relocates (r r' : Registry σ) (old spare new : SlotId) : Prop where
  spare_unused : r.Unused spare
  new_unused : r.Unused new
  spare_ne_new : spare ≠ new
  spare_vacant : r'.slots[spare]? = some .vacant
  old_vacant : r'.slots[old]? = some .vacant
  held?_new : r'.held? new = r.held? old
  slots_eq {s : SlotId} : s ≠ old → s ≠ spare → s ≠ new → r'.slots[s]? = r.slots[s]?
  find?_eq (id : SetId) :
    r'.find? id = (r.find? id).map fun e => { e with refs := e.refs.replace old new }

theorem changeReference_relocates (h : r.WellFormed) (hold : ¬ r.Unused old)
    (hres : changeReference old r.newSlot.2.newSlot.1 r.newSlot.2.newSlot.2 = .ok () r') :
    r.Relocates r' old r.newSlot.1 r.newSlot.2.newSlot.1 := by
  have hfirst := newSlot_wellFormed h
  have hboth := newSlot_wellFormed hfirst
  have hspare : r.newSlot.2.slots[r.newSlot.1]? = some .vacant := by
    rw [slots_newSlot h.freeSlots, if_pos rfl]
  have hspareUnused := newSlot_unused h.freeSlots
  have hnewUnused := newSlot_unused hfirst.freeSlots
  have hne : r.newSlot.1 ≠ r.newSlot.2.newSlot.1 := by
    intro heq
    rw [← heq, Unused, hspare] at hnewUnused
    simp at hnewUnused
  have hslots : ∀ s, s ≠ r.newSlot.1 → s ≠ r.newSlot.2.newSlot.1 →
      r.newSlot.2.newSlot.2.slots[s]? = r.slots[s]? := by
    intro s hs hs'
    rw [slots_newSlot hfirst.freeSlots, if_neg hs', slots_newSlot h.freeSlots, if_neg hs]
  have hnewUnused' : r.Unused r.newSlot.2.newSlot.1 := by
    rwa [Unused, slots_newSlot h.freeSlots, if_neg hne.symm] at hnewUnused
  -- The slot that gives up its reference is in use, so it is neither of the two handed out.
  have holdSpare : old ≠ r.newSlot.1 := fun heq => hold (heq ▸ hspareUnused)
  have holdNew : old ≠ r.newSlot.2.newSlot.1 := fun heq => hold (heq ▸ hnewUnused')
  have hold' : ¬ r.newSlot.2.newSlot.2.Unused old := by
    rwa [Unused, hslots old holdSpare holdNew]
  have hnew : r.newSlot.2.newSlot.2.slots[r.newSlot.2.newSlot.1]? = some .vacant := by
    rw [slots_newSlot hfirst.freeSlots, if_pos rfl]
  have hmoved := changeReference_handsOver hboth.linked holdNew hold' hnew hres
  refine ⟨hspareUnused, hnewUnused', hne, ?_, hmoved.old_vacant, ?_, fun {s} hso hss hsn => ?_,
    fun id => ?_⟩
  · rw [hmoved.slots_eq holdSpare.symm hne, slots_newSlot hfirst.freeSlots, if_neg hne, hspare]
  · rw [hmoved.held?_new, held?_newSlot hfirst.freeSlots, held?_newSlot h.freeSlots]
  · rw [hmoved.slots_eq hso hsn, hslots s hss hsn]
  · rw [hmoved.find?_eq, find?_newSlot, find?_newSlot]

namespace Relocates

variable {spare : SlotId}

theorem refs_eq (h : r.Relocates r' old spare new) (id : SetId) :
    r'.refs id = (r.refs id).replace old new := refs_of_replace (h.find?_eq id)

theorem refcount_eq (h : r.Relocates r' old spare new) (id : SetId) :
    r'.refcount id = r.refcount id := by
  rw [refcount, h.refs_eq, List.length_replace, refcount]

theorem contents?_eq (h : r.Relocates r' old spare new) (id : SetId) :
    r'.contents? id = r.contents? id := contents?_of_replace (h.find?_eq id)

theorem find?_eq_of_ne (h : r.Relocates r' old spare new) (hr : r.Linked)
    (hother : r.held? old ≠ some id) : r'.find? id = r.find? id := by
  rw [h.find?_eq]
  cases hfind : r.find? id with
  | none => rfl
  | some entry => rw [Option.map_some, hr.replace_refs_eq hfind hother]

/-- A slot in use is none of those that are handed out. -/
theorem slots_eq_of_used (h : r.Relocates r' old spare new) {s : SlotId} (hs : ¬ r.Unused s)
    (hne : s ≠ old) : r'.slots[s]? = r.slots[s]? := by
  have hspare : s ≠ spare := fun heq => hs (heq ▸ h.spare_unused)
  have hnew : s ≠ new := fun heq => hs (heq ▸ h.new_unused)
  exact h.slots_eq hne hspare hnew

end Relocates

/-! ## Storing a set -/

/-- How a registry comes out when a set is stored for these slots: it is the only new one, and no
other slot points at it. -/
structure Gains (r r' : Registry σ) (id : SetId) (contents : σ) (slots : List SlotId) : Prop where
  not_isLive : ¬ r.isLive id
  find?_eq (id' : SetId) :
    r'.find? id' = if id' = id then some ⟨contents, slots⟩ else r.find? id'
  slots_eq (s : SlotId) : r'.slots[s]? = if s ∈ slots then some (.held id) else r.slots[s]?

/-- How a registry comes out when a set is installed at these slots. Without slots there is nothing
to hold the set, and it is dropped. -/
def Installs (r r' : Registry σ) (contents : σ) (slots : List SlotId) : Prop :=
  (slots = [] → r' = r) ∧ (slots ≠ [] → ∃ id, r.Gains r' id contents slots)

theorem attach_installs (h : r.WellFormed) {contents : σ} {id? : Option SetId}
    (hres : attach contents slots r = .ok id? r') : r.Installs r' contents slots := by
  rcases attach_cases contents slots r with ⟨e, heq⟩ | ⟨rfl, heq⟩ | ⟨hne, -, hvacant, heq⟩
  · cases heq.symm.trans hres
  · cases heq.symm.trans hres
    exact ⟨fun _ => rfl, fun hne => absurd rfl hne⟩
  · cases heq.symm.trans hres
    refine ⟨fun hnil => absurd hnil hne, fun _ => ⟨r.nextId, ?_, fun id' => ?_, fun s => ?_⟩⟩
    · simp [isLive, find?_nextId h.freeCells]
    · rw [find?_pointAll, find?_store h.freeCells]
    · rw [slots_pointAll, slots_store]
      by_cases hs : s ∈ slots
      · simp [hs, hvacant s hs]
      · simp [hs]

/-- A set can be stored for different vacant slots. -/
theorem attach_succeeds (hnd : slots.Nodup) (hvacant : ∀ s ∈ slots, r.slots[s]? = some .vacant)
    (contents : σ) : ∃ id? r', attach contents slots r = .ok id? r' := by
  have hcheck : r.checkDistinctVacant [] slots = .ok () :=
    (checkDistinctVacant_eq_ok r [] slots).mpr ⟨hvacant, hnd, by simp⟩
  cases slots with
  | nil => exact ⟨none, r, rfl⟩
  | cons slot rest =>
    refine ⟨some r.nextId,
      (r.store ⟨contents, slot :: rest⟩).pointAll (slot :: rest) r.nextId, ?_⟩
    simp [attach, hcheck]

theorem Installs.eq_iff {contents : σ} (h : r.Installs r' contents slots) :
    r' = r ↔ slots = [] := by
  constructor
  · rintro rfl
    by_contra hne
    obtain ⟨id, hgains⟩ := h.2 hne
    have hfind : r'.find? id = some ⟨contents, slots⟩ := by rw [hgains.find?_eq, if_pos rfl]
    exact hgains.not_isLive (Option.isSome_of_eq_some hfind)
  · exact h.1

theorem Installs.held?_ne_none {contents : σ} (h : r.Installs r' contents slots)
    (hs : slot ∈ slots) : r'.held? slot ≠ none := by
  obtain ⟨id, hgains⟩ := h.2 (List.ne_nil_of_mem hs)
  have hheld : r'.held? slot = some id := by
    rw [held?_eq_some, hgains.slots_eq, if_pos hs]
  simp [hheld]

theorem Installs.slots_eq {contents : σ} (h : r.Installs r' contents slots)
    (hs : slot ∉ slots) : r'.slots[slot]? = r.slots[slot]? := by
  by_cases hnil : slots = []
  · rw [h.1 hnil]
  · obtain ⟨id, hgains⟩ := h.2 hnil
    rw [hgains.slots_eq, if_neg hs]

end Registry

end FormatNegotiation
