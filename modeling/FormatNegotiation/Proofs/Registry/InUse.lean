import FormatNegotiation.Proofs.Registry.Session

/-! The slots in use. With the free list they make up all slots of a registry, so a slot that is
handed out is new only if every other one is in use. -/
namespace FormatNegotiation.Registry

variable {σ : Type} {r r' r'' : Registry σ} {used used' : List SlotId} {slot : SlotId}

/-- These slots are handed out, each once, and every other one is on the free list. -/
def InUse (r : Registry σ) (used : List SlotId) : Prop :=
  (used ++ r.freeSlots).Perm (List.range r.slotCount)

namespace InUse

theorem empty : (Registry.empty : Registry σ).InUse [] := .refl _

theorem perm (h : r.InUse used) (hperm : used'.Perm used) : r.InUse used' :=
  (hperm.append_right _).trans h

theorem congr (h : r.InUse used) (hcount : r'.slotCount = r.slotCount)
    (hfree : r'.freeSlots = r.freeSlots) : r'.InUse used := by
  unfold InUse
  rwa [hcount, hfree]

theorem nodup_append (h : r.InUse used) : (used ++ r.freeSlots).Nodup :=
  h.nodup_iff.mpr List.nodup_range

theorem nodup (h : r.InUse used) : used.Nodup := (List.nodup_append.mp h.nodup_append).1

theorem length_add (h : r.InUse used) : used.length + r.freeSlots.length = r.slotCount := by
  have hlength := h.length_eq
  rwa [List.length_append, List.length_range] at hlength

theorem mem_or_free_iff (h : r.InUse used) :
    slot ∈ used ∨ slot ∈ r.freeSlots ↔ slot < r.slotCount := by
  rw [← List.mem_append, h.mem_iff, List.mem_range]

theorem mem_iff (h : r.InUse used) (hr : r.FreeSlotsExact) :
    slot ∈ used ↔ slot < r.slotCount ∧ r.slots[slot]? ≠ some .released := by
  rw [Ne, ← hr.mem_iff, ← h.mem_or_free_iff]
  constructor
  · intro hs
    have hfree : slot ∉ r.freeSlots := fun hf =>
      (List.nodup_append.mp h.nodup_append).2.2 slot hs slot hf rfl
    exact ⟨.inl hs, hfree⟩
  · intro ⟨hs, hfree⟩
    exact hs.resolve_right hfree

theorem lt_slotCount (h : r.InUse used) (hs : slot ∈ used) : slot < r.slotCount :=
  h.mem_or_free_iff.mp (.inl hs)

/-- A slot in use is vacant or points at a set. -/
theorem state (h : r.InUse used) (hr : r.FreeSlotsExact) (hs : slot ∈ used) :
    r.slots[slot]? = some .vacant ∨ ∃ id, r.slots[slot]? = some (.held id) := by
  obtain ⟨hbound, hstate⟩ := (h.mem_iff hr).mp hs
  have hslot : r.slots[slot]? = some r.slots[slot] := Array.getElem?_eq_getElem hbound
  rw [hslot] at hstate ⊢
  cases hcase : r.slots[slot] with
  | vacant => exact .inl rfl
  | held id => exact .inr ⟨id, rfl⟩
  | released => exact absurd (congrArg some hcase) hstate

theorem released_of_not_mem (h : r.InUse used) (hr : r.FreeSlotsExact) (hs : slot ∉ used)
    (hbound : slot < r.slotCount) : r.slots[slot]? = some .released := by
  by_contra hstate
  exact hs ((h.mem_iff hr).mpr ⟨hbound, hstate⟩)

theorem mem_of_held (h : r.InUse used) (hr : r.FreeSlotsExact) {id : SetId}
    (hs : r.held? slot = some id) : slot ∈ used := by
  have hheld := held?_eq_some.mp hs
  apply (h.mem_iff hr).mpr
  exact ⟨lt_size_of_held? hs, by rw [hheld]; simp⟩

theorem refs_subset (h : r.InUse used) (hr : r.WellFormed) (id : SetId) : r.refs id ⊆ used := by
  intro slot hs
  cases hf : r.find? id with
  | none => simp [refs_of_find?_none hf] at hs
  | some entry =>
    rw [refs_of_find? hf] at hs
    exact h.mem_of_held hr.freeSlots (hr.linked.held_of_mem hf hs)

/-- Without slots in use there is nothing to hold a set. -/
theorem liveSets_eq_zero (h : r.InUse []) (hr : r.WellFormed) : r.liveSets = 0 := by
  rw [liveSets_eq_length_heldSets hr.linked, List.length_eq_zero_iff,
    List.eq_nil_iff_forall_not_mem]
  intro id hid
  obtain ⟨slot, hs⟩ := (mem_heldSets r id).mp hid
  have hmem : slot ∈ [] := h.mem_of_held hr.freeSlots hs
  exact List.not_mem_nil hmem

end InUse

/-! ## Handing out slots and taking them back -/

/-- These slots of the second registry are in use. It has just as many slots as they need, or else
no more than the first one. -/
structure Allots (r r' : Registry σ) (used : List SlotId) : Prop where
  inUse : r'.InUse used
  slotCount_eq : r'.slotCount = max r.slotCount used.length

theorem InUse.allots_of_eq (h : r.InUse used) (hcount : r'.slotCount = r.slotCount)
    (hfree : r'.freeSlots = r.freeSlots) : r.Allots r' used where
  inUse := h.congr hcount hfree
  slotCount_eq := by
    have hlength := h.length_add
    omega

theorem Allots.perm (h : r.Allots r' used) (hperm : used'.Perm used) : r.Allots r' used' where
  inUse := h.inUse.perm hperm
  slotCount_eq := hperm.length_eq ▸ h.slotCount_eq

theorem Allots.trans (h : r.Allots r' used) (h' : r'.Allots r'' used')
    (hle : used.length ≤ used'.length) : r.Allots r'' used' where
  inUse := h'.inUse
  slotCount_eq := by
    have hcount := h.slotCount_eq
    have hcount' := h'.slotCount_eq
    omega

/-- The slot at the head of the free list is handed out, or if there is none a further one. -/
theorem InUse.newSlot_allots (h : r.InUse used) :
    r.Allots r.newSlot.2 (r.newSlot.1 :: used) := by
  have hlength := h.length_add
  unfold InUse at h
  cases hfree : r.freeSlots with
  | nil =>
    rw [hfree, List.append_nil] at h
    rw [hfree, List.length_nil] at hlength
    have hnew : r.newSlot = (r.slotCount, { r with slots := r.slots.push .vacant }) := by
      rw [newSlot, hfree, slotCount]
    have hcount : r.newSlot.2.slotCount = r.slotCount + 1 := by
      rw [hnew]
      exact Array.size_push SlotState.vacant
    have hrest : r.newSlot.2.freeSlots = [] := by
      rw [hnew]
      exact hfree
    constructor
    · show (r.newSlot.1 :: used ++ r.newSlot.2.freeSlots).Perm _
      rw [hcount, hrest, List.append_nil, List.range_succ, hnew]
      exact (h.cons _).trans (List.perm_append_singleton _ _).symm
    · rw [hcount, List.length_cons]
      omega
  | cons slot free =>
    rw [hfree] at h
    rw [hfree, List.length_cons] at hlength
    have hnew : r.newSlot = (slot, { r.setSlot slot .vacant with freeSlots := free }) := by
      rw [newSlot, hfree]
    have hcount : r.newSlot.2.slotCount = r.slotCount := by
      rw [hnew]
      exact Array.size_setIfInBounds
    have hrest : r.newSlot.2.freeSlots = free := by rw [hnew]
    constructor
    · show (r.newSlot.1 :: used ++ r.newSlot.2.freeSlots).Perm _
      rw [hcount, hrest, hnew]
      exact List.perm_middle.symm.trans h
    · rw [hcount, List.length_cons]
      omega

section SlotCount

@[simp] theorem slotCount_setSlot (r : Registry σ) (slot : SlotId) (state : SlotState) :
    (r.setSlot slot state).slotCount = r.slotCount := Array.size_setIfInBounds

@[simp] theorem slotCount_modifyEntry (r : Registry σ) (id : SetId)
    (f : SetEntry σ → SetEntry σ) : (r.modifyEntry id f).slotCount = r.slotCount := rfl

@[simp] theorem slotCount_store (r : Registry σ) (entry : SetEntry σ) :
    (r.store entry).slotCount = r.slotCount := by
  rw [slotCount, slots_store, slotCount]

@[simp] theorem slotCount_free (r : Registry σ) (id : SetId) :
    (r.free id).slotCount = r.slotCount := by
  rw [slotCount, slots_free, slotCount]

@[simp] theorem slotCount_pointAll (r : Registry σ) (slots : List SlotId) (id : SetId) :
    (r.pointAll slots id).slotCount = r.slotCount := by
  induction slots generalizing r with
  | nil => rfl
  | cons slot rest ih => exact (ih (r.setSlot slot (.held id))).trans (slotCount_setSlot r _ _)

@[simp] theorem slotCount_removeReference (r : Registry σ) (slot : SlotId) :
    (r.removeReference slot).slotCount = r.slotCount := by
  unfold removeReference
  split
  · rfl
  · dsimp only
    split <;> simp

@[simp] theorem freeSlots_removeReference (r : Registry σ) (slot : SlotId) :
    (r.removeReference slot).freeSlots = r.freeSlots := by
  unfold removeReference
  split
  · rfl
  · dsimp only
    split <;> simp

@[simp] theorem slotCount_replaceContents (r : Registry σ) (id : SetId) (contents? : Option σ) :
    (r.replaceContents id contents?).slotCount = r.slotCount := by
  cases contents? <;> rfl

@[simp] theorem freeSlots_replaceContents (r : Registry σ) (id : SetId) (contents? : Option σ) :
    (r.replaceContents id contents?).freeSlots = r.freeSlots := by
  cases contents? <;> rfl

theorem slotCount_releaseSlot (r : Registry σ) (slot : SlotId) :
    (r.releaseSlot slot).slotCount = r.slotCount := by
  rcases releaseSlot_cases r slot with ⟨-, heq⟩ | ⟨-, -, heq⟩
  · rw [heq]
  · rw [heq]
    exact (slotCount_setSlot _ slot _).trans (slotCount_removeReference r slot)

theorem slotCount_le_newSlot (r : Registry σ) : r.slotCount ≤ r.newSlot.2.slotCount := by
  unfold newSlot
  split
  · exact Nat.le_of_eq (slotCount_setSlot r _ _).symm
  · exact Nat.le_of_lt (Nat.lt_of_lt_of_eq (Nat.lt_succ_self _) (Array.size_push _).symm)

theorem newSlot_lt_slotCount (h : r.FreeSlotsExact) : r.newSlot.1 < r.newSlot.2.slotCount := by
  have hvacant : r.newSlot.2.slots[r.newSlot.1]? = some .vacant := by
    rw [slots_newSlot h, if_pos rfl]
  exact (Array.getElem?_eq_some_iff.mp hvacant).1

end SlotCount

theorem InUse.releaseSlot_allots (h : r.InUse (slot :: used)) (hr : r.FreeSlotsExact) :
    r.Allots (r.releaseSlot slot) used where
  inUse := by
    obtain ⟨hbound, hstate⟩ := (h.mem_iff hr).mp List.mem_cons_self
    have hfree : (r.releaseSlot slot).freeSlots = slot :: r.freeSlots := by
      rcases releaseSlot_cases r slot with ⟨hgone, -⟩ | ⟨-, -, heq⟩
      · rcases hgone with hnone | hreleased
        · exact absurd hbound (Nat.not_lt_of_le (Array.getElem?_eq_none_iff.mp hnone))
        · exact absurd hreleased hstate
      · rw [heq]
    unfold InUse
    rw [hfree, slotCount_releaseSlot]
    exact List.perm_middle.trans h
  slotCount_eq := by
    have hlength := h.length_add
    rw [List.length_cons] at hlength
    rw [slotCount_releaseSlot]
    omega

/-- The slots that are handed back are in use no more. -/
theorem InUse.releaseAll_allots {slots : List SlotId} (h : r.InUse (slots ++ used))
    (hr : r.WellFormed) : r.Allots (slots.foldl releaseSlot r) used := by
  induction slots generalizing r with
  | nil => exact h.allots_of_eq rfl rfl
  | cons slot slots ih =>
    have hfirst := h.releaseSlot_allots hr.freeSlots
    have hrest := ih hfirst.inUse (releaseSlot_wellFormed hr slot)
    constructor
    · exact hrest.inUse
    · have hcount := hrest.slotCount_eq
      rwa [slotCount_releaseSlot] at hcount

/-! ## Commands that leave the slots to their owners -/

section Command

variable [Mergeable σ]

/-- The command hands out a slot or takes one back. -/
def Command.movesSlot : Command σ → Bool
  | .newSlot | .releaseSlot _ => true
  | _ => false

theorem after_of_not_movesSlot (r : Registry σ) {c : Command σ} (hc : c.movesSlot = false) :
    (r.after c).slotCount = r.slotCount ∧ (r.after c).freeSlots = r.freeSlots := by
  cases c with
  | newSlot => cases hc
  | releaseSlot slot => cases hc
  | attach contents slots =>
    rcases attach_cases contents slots r with ⟨e, heq⟩ | ⟨-, heq⟩ | ⟨-, -, -, heq⟩ <;>
      simp [after, exec, Functor.map, EStateM.map, heq]
  | addReference id slot =>
    rcases addReference_cases id slot r with ⟨e, heq⟩ | ⟨entry, -, -, heq⟩ <;>
      simp [after, exec, Functor.map, EStateM.map, heq]
  | removeReference slot => simp [after, exec]
  | changeReference old new =>
    rcases changeReference_cases old new r with ⟨e, heq⟩ | ⟨-, heq⟩ | ⟨_, _, -, -, -, -, heq⟩ <;>
      simp [after, exec, Functor.map, EStateM.map, heq]
  | retargetAll src dst =>
    rcases retargetAll_cases src dst r with ⟨heq, -⟩ | ⟨_, _, -, -, -, heq⟩ <;>
      simp [after, exec, Functor.map, EStateM.map, heq, drain]
  | merge rule a b =>
    rw [after, exec]
    simp only [Functor.map, EStateM.map, merge]
    rcases r.planMerge rule a b with e | _ | _ | ⟨survivor, loser, contents?⟩
    · exact ⟨rfl, rfl⟩
    · exact ⟨rfl, rfl⟩
    · exact ⟨rfl, rfl⟩
    · rcases retargetAll_cases loser survivor r with ⟨heq, -⟩ | ⟨_, _, -, -, -, heq⟩ <;>
        simp [heq, drain]

/-- Slots that are taken back stay slots of the registry. -/
theorem slotCount_le_after (r : Registry σ) (c : Command σ) :
    r.slotCount ≤ (r.after c).slotCount := by
  cases hc : c.movesSlot with
  | false => exact Nat.le_of_eq (r.after_of_not_movesSlot hc).1.symm
  | true =>
    cases c with
    | newSlot => exact r.slotCount_le_newSlot
    | releaseSlot slot => exact Nat.le_of_eq (r.slotCount_releaseSlot slot).symm
    | attach | addReference | removeReference | changeReference | retargetAll | merge => cases hc

theorem slotCount_le_run (r : Registry σ) (cs : List (Command σ)) :
    r.slotCount ≤ (r.run cs).slotCount := by
  induction cs generalizing r with
  | nil => exact Nat.le_refl _
  | cons c cs ih => exact Nat.le_trans (r.slotCount_le_after c) (ih (r.after c))

end Command

end FormatNegotiation.Registry
