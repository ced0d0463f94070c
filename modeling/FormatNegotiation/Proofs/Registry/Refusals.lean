import FormatNegotiation.Proofs.Actions
import FormatNegotiation.Proofs.Registry.Session

/-! What the operations on references refuse, and with which error. One that fails leaves the
registry as it was. -/
namespace FormatNegotiation

namespace Registry

variable {σ : Type} {r r' : Registry σ} {slot : SlotId} {e e' : FormatError}

/-! ## Slots that cannot take a reference -/

/-- What stands against a slot that is to take a reference. -/
inductive SlotFault (r : Registry σ) (slot : SlotId) : FormatError → Prop where
  | unknown (h : r.slots[slot]? = none ∨ r.slots[slot]? = some .released) :
    SlotFault r slot (.unknownSlot slot)
  | inUse {id : SetId} (h : r.held? slot = some id) : SlotFault r slot (.slotInUse slot)

theorem checkVacant_eq_error : r.checkVacant slot = .error e ↔ r.SlotFault slot e := by
  unfold checkVacant
  constructor
  · intro h
    split at h
    · cases h
    · rename_i id hs
      cases h
      exact .inUse (held?_eq_some.mpr hs)
    · rename_i hs
      cases h
      exact .unknown (.inr hs)
    · rename_i hs
      cases h
      exact .unknown (.inl hs)
  · rintro (hs | hs)
    · rcases hs with hs | hs <;> rw [hs]
    · rw [held?_eq_some.mp hs]

theorem not_slotFault_of_vacant (h : r.slots[slot]? = some .vacant) : ¬ r.SlotFault slot e := by
  rw [← checkVacant_eq_error, checkVacant_eq_ok.mpr h]
  simp

theorem SlotFault.unique (h : r.SlotFault slot e) (h' : r.SlotFault slot e') : e = e' := by
  rw [← checkVacant_eq_error] at h h'
  exact Except.error.inj (h.symm.trans h')

/-- A slot can take a reference, or something stands against it. -/
theorem vacant_or_slotFault (r : Registry σ) (slot : SlotId) :
    r.slots[slot]? = some .vacant ∨ ∃ e, r.SlotFault slot e := by
  cases hcheck : r.checkVacant slot with
  | ok u => exact .inl (checkVacant_eq_ok.mp hcheck)
  | error e => exact .inr ⟨e, checkVacant_eq_error.mp hcheck⟩

/-! ## Lists of slots -/

/-- What stands against the slot at a position of a list: the slot cannot take a reference, or the
list names it earlier. -/
def FaultAt (r : Registry σ) (slots : List SlotId) (i : Nat) (e : FormatError) : Prop :=
  ∃ slot, slots[i]? = some slot ∧
    (r.SlotFault slot e ∨ slot ∈ slots.take i ∧ e = .slotInUse slot)

/-- What stands against the first position of a list that something stands against. -/
def FirstFault (r : Registry σ) (slots : List SlotId) (e : FormatError) : Prop :=
  ∃ i, r.FaultAt slots i e ∧ ∀ j < i, ∀ e', ¬ r.FaultAt slots j e'

section Lists

variable {before rest : List SlotId}

theorem faultAt_append_cons : r.FaultAt (before ++ slot :: rest) before.length e ↔
    r.SlotFault slot e ∨ slot ∈ before ∧ e = .slotInUse slot := by
  simp [FaultAt]

/-- If nothing stands against the positions before this one, it decides. -/
theorem firstFault_iff_faultAt {slots : List SlotId} {i : Nat}
    (hclear : ∀ j < i, ∀ e', ¬ r.FaultAt slots j e') (hfault : r.FaultAt slots i e') :
    r.FirstFault slots e ↔ r.FaultAt slots i e := by
  constructor
  · rintro ⟨j, hj, hfirst⟩
    have hle : j ≤ i := Nat.le_of_not_lt fun hlt => hfirst i hlt e' hfault
    have hge : i ≤ j := Nat.le_of_not_lt fun hlt => hclear j hlt e hj
    obtain rfl := Nat.le_antisymm hle hge
    exact hj
  · exact fun h => ⟨i, h, hclear⟩

theorem not_firstFault (hclear : ∀ j < before.length, ∀ e', ¬ r.FaultAt before j e') :
    ¬ r.FirstFault before e := by
  rintro ⟨i, hi, -⟩
  have hi' : r.FaultAt before i e := hi
  obtain ⟨slot, hslot, -⟩ := hi'
  exact hclear i (List.getElem?_eq_some_iff.mp hslot).1 e hi

/-- A slot that the list names earlier has been checked there. -/
theorem not_slotFault_of_mem (hclear : ∀ j < before.length, ∀ e', ¬ r.FaultAt (before ++ rest) j e')
    (hmem : slot ∈ before) : ¬ r.SlotFault slot e := by
  intro hfault
  obtain ⟨j, hj, hslot⟩ := List.getElem_of_mem hmem
  have hslot' : (before ++ rest)[j]? = some slot := by
    rw [List.getElem?_append_left hj, List.getElem?_eq_getElem hj, hslot]
  exact hclear j hj e ⟨slot, hslot', .inl hfault⟩

theorem not_faultAt_succ
    (hclear : ∀ j < before.length, ∀ e', ¬ r.FaultAt (before ++ slot :: rest) j e')
    (hvacant : r.slots[slot]? = some .vacant) (hmem : slot ∉ before) :
    ∀ j < (before ++ [slot]).length, ∀ e', ¬ r.FaultAt (before ++ [slot] ++ rest) j e' := by
  intro j hj e' hfault
  rw [List.append_assoc, List.singleton_append] at hfault
  rw [List.length_append, List.length_singleton] at hj
  rcases Nat.lt_succ_iff_lt_or_eq.mp hj with hlt | rfl
  · exact hclear j hlt e' hfault
  · rcases faultAt_append_cons.mp hfault with hslot | ⟨hearlier, -⟩
    · exact not_slotFault_of_vacant hvacant hslot
    · exact hmem hearlier

/-- The check goes on with the rest of a list when nothing stands against the positions before. -/
theorem checkDistinctVacant_eq_error (before rest : List SlotId)
    (hclear : ∀ j < before.length, ∀ e', ¬ r.FaultAt (before ++ rest) j e') :
    r.checkDistinctVacant before.reverse rest = .error e ↔ r.FirstFault (before ++ rest) e := by
  induction rest generalizing before with
  | nil =>
    rw [List.append_nil] at hclear ⊢
    simp [checkDistinctVacant, not_firstFault hclear]
  | cons slot rest ih =>
    have hat : ∀ e, r.FaultAt (before ++ slot :: rest) before.length e ↔
        r.SlotFault slot e ∨ slot ∈ before ∧ e = .slotInUse slot := fun e => faultAt_append_cons
    rw [checkDistinctVacant]
    rcases r.vacant_or_slotFault slot with hvacant | ⟨e', hfault⟩
    swap
    · rw [firstFault_iff_faultAt hclear ((hat e').mpr (.inl hfault)), hat,
        checkVacant_eq_error.mpr hfault]
      constructor
      · intro heq
        exact .inl (Except.error.inj heq ▸ hfault)
      · rintro (hfault' | ⟨hmem, -⟩)
        · exact congrArg Except.error (hfault.unique hfault')
        · exact absurd hfault (not_slotFault_of_mem hclear hmem)
    rw [checkVacant_eq_ok.mpr hvacant]
    simp only [List.contains_iff_mem, List.mem_reverse]
    by_cases hmem : slot ∈ before
    · rw [if_pos hmem, firstFault_iff_faultAt hclear ((hat _).mpr (.inr ⟨hmem, rfl⟩)), hat]
      constructor
      · intro heq
        exact .inr ⟨hmem, (Except.error.inj heq).symm⟩
      · rintro (hfault | ⟨-, rfl⟩)
        · exact absurd hfault (not_slotFault_of_vacant hvacant)
        · rfl
    · rw [if_neg hmem]
      have hrest := ih (before ++ [slot]) (not_faultAt_succ hclear hvacant hmem)
      simpa only [List.reverse_append, List.reverse_singleton, List.singleton_append,
        List.append_assoc] using hrest

end Lists

/-! ## Operations that fail -/

private theorem error_eq_error_iff {α : Type} :
    (EStateM.Result.error e r : EStateM.Result FormatError (Registry σ) α) = .error e' r' ↔
      r' = r ∧ e' = e := by
  rw [EStateM.Result.error.injEq, and_comm, eq_comm, @eq_comm _ e]

theorem attach_eq_error_iff (contents : σ) (slots : List SlotId) :
    attach contents slots r = .error e r' ↔ r' = r ∧ r.FirstFault slots e := by
  have hcheck := checkDistinctVacant_eq_error (r := r) (e := e) [] slots (by simp)
  rw [List.reverse_nil, List.nil_append] at hcheck
  rw [← hcheck]
  unfold attach
  cases slots with
  | nil => simp [checkDistinctVacant]
  | cons slot rest =>
    cases r.checkDistinctVacant [] (slot :: rest) with
    | error e' =>
      have hiff : Except.error (α := Unit) e' = .error e ↔ e = e' := by
        rw [Except.error.injEq, eq_comm]
      rw [hiff]
      exact error_eq_error_iff
    | ok u => simp

theorem addReference_eq_error_iff (id : SetId) :
    addReference id slot r = .error e r' ↔
      r' = r ∧ (r.SlotFault slot e ∨
        r.slots[slot]? = some .vacant ∧ ¬ r.isLive id ∧ e = .unknownSet) := by
  unfold addReference
  rcases r.vacant_or_slotFault slot with hvacant | ⟨e', hfault⟩
  · have hnone := not_slotFault_of_vacant (e := e) hvacant
    rw [checkVacant_eq_ok.mpr hvacant]
    by_cases hlive : r.isLive id
    · simp [hlive, hnone]
    · simp only [hlive, hnone, hvacant, Bool.false_eq_true, if_false, false_or, true_and,
        not_false_eq_true]
      exact error_eq_error_iff
  · have hoccupied : r.slots[slot]? ≠ some .vacant := fun hs =>
      not_slotFault_of_vacant hs hfault
    have hiff : r.SlotFault slot e ↔ e = e' := ⟨(·.unique hfault), fun heq => heq ▸ hfault⟩
    rw [checkVacant_eq_error.mpr hfault, hiff]
    simp only [hoccupied, false_and, or_false]
    exact error_eq_error_iff

/-- A slot that points at a set points at a live one, so that nothing but the new slot stands
against moving the reference. -/
theorem changeReference_eq_error_iff (h : r.Linked) (old new : SlotId) :
    changeReference old new r = .error e r' ↔
      r' = r ∧ (r.slotCount ≤ old ∧ e = .unknownSlot old ∨
        (∃ id, r.held? old = some id) ∧ new ≠ old ∧ r.SlotFault new e) := by
  unfold changeReference
  by_cases hissued : r.slotCount ≤ old
  · have hnone : ¬ ∃ id, r.held? old = some id := fun ⟨id, hid⟩ =>
      absurd (lt_size_of_held? hid) (Nat.not_lt_of_le hissued)
    simp only [hissued, hnone, if_true, true_and, false_and, or_false]
    exact error_eq_error_iff
  simp only [hissued, if_false, false_and, false_or]
  cases hheld : r.held? old with
  | none => simp
  | some id =>
    by_cases hsame : old = new
    · simp [hsame]
    rcases r.vacant_or_slotFault new with hvacant | ⟨e', hfault⟩
    · obtain ⟨entry, hfind, -⟩ := h.mem_of_held hheld
      have hlive : r.isLive id := isLive_iff.mpr ⟨entry, hfind⟩
      simp [hsame, checkVacant_eq_ok.mpr hvacant, hlive, not_slotFault_of_vacant hvacant]
    · have hiff : r.SlotFault new e ↔ e = e' := ⟨(·.unique hfault), fun heq => heq ▸ hfault⟩
      simp only [hsame, Ne.symm hsame, if_false, checkVacant_eq_error.mpr hfault, hiff,
        Option.some.injEq, exists_eq', ne_eq, not_false_eq_true, true_and]
      exact error_eq_error_iff

theorem retargetAll_eq_error_iff (src dst : SetId) :
    retargetAll src dst r = .error e r' ↔
      r' = r ∧ e = .unknownSet ∧ (src = dst ∨ ¬ r.isLive src ∨ ¬ r.isLive dst) := by
  simp only [isLive, Option.not_isSome_iff_eq_none]
  rcases retargetAll_cases src dst r with ⟨heq, hwhy⟩ | ⟨_, _, hne, hsrc, hdst, heq⟩
  · simp only [heq, hwhy, and_true]
    exact error_eq_error_iff
  · simp [heq, hne, hsrc, hdst]

variable [Mergeable σ]

/-- A command that fails changes nothing. -/
theorem exec_error {c : Command σ} (h : exec c r = .error e r') : r' = r := by
  cases c with
  | newSlot => cases h
  | releaseSlot slot => cases h
  | attach contents slots =>
    exact ((attach_eq_error_iff contents slots).mp (map_eq_error_iff.mp h)).1
  | addReference id slot => exact ((addReference_eq_error_iff id).mp (map_eq_error_iff.mp h)).1
  | removeReference slot => cases h
  | changeReference old new =>
    have hres := map_eq_error_iff.mp h
    rcases changeReference_cases old new r with ⟨e', heq⟩ | ⟨-, heq⟩ | ⟨_, _, -, -, -, -, heq⟩
    all_goals cases hres.symm.trans heq
    rfl
  | retargetAll src dst =>
    exact ((retargetAll_eq_error_iff src dst).mp (map_eq_error_iff.mp h)).1
  | merge rule a b =>
    have hres := map_eq_error_iff.mp h
    unfold merge at hres
    rcases hplan : r.planMerge rule a b with e' | _ | _ | ⟨survivor, loser, contents?⟩
    all_goals simp only [hplan] at hres
    · cases hres
      rfl
    · cases hres
    · cases hres
    · rcases retargetAll_cases loser survivor r with ⟨heq, -⟩ | ⟨_, _, -, -, -, heq⟩
      all_goals simp only [heq] at hres
      all_goals cases hres
      rfl

/-- After any run, the operations on references fail for these reasons and no others, and leave the
registry as it was. -/
theorem run_errors_exact (cs : List (Command σ)) :
    let r := run empty cs
    (∀ contents slots e r', attach contents slots r = .error e r' ↔
      r' = r ∧ r.FirstFault slots e) ∧
    (∀ id slot e r', addReference id slot r = .error e r' ↔
      r' = r ∧ (r.SlotFault slot e ∨
        r.slots[slot]? = some .vacant ∧ ¬ r.isLive id ∧ e = .unknownSet)) ∧
    (∀ old new e r', changeReference old new r = .error e r' ↔
      r' = r ∧ (r.slotCount ≤ old ∧ e = .unknownSlot old ∨
        (∃ id, r.held? old = some id) ∧ new ≠ old ∧ r.SlotFault new e)) ∧
    ∀ src dst e r', retargetAll src dst r = .error e r' ↔
      r' = r ∧ e = .unknownSet ∧ (src = dst ∨ ¬ r.isLive src ∨ ¬ r.isLive dst) := by
  intro r
  have h : r.WellFormed := run_wellFormed cs
  exact ⟨fun contents slots _ _ => attach_eq_error_iff contents slots,
    fun id _ _ _ => addReference_eq_error_iff id,
    fun old new _ _ => changeReference_eq_error_iff h.linked old new,
    fun src dst _ _ => retargetAll_eq_error_iff src dst⟩

end Registry

end FormatNegotiation
