import FormatNegotiation.Proofs.Registry.Findings

/-! The places in a registry that a command reads or writes by their number alone, without a look at
whether they are there. All of them are, and no other place changes. -/
namespace FormatNegotiation.Registry

variable {σ : Type} {r : Registry σ}

/-! ## Where a command reads and writes -/

/-- The cell that is emptied when a slot loses its reference, if it was the last one of the set. -/
def emptiedCell (r : Registry σ) (slot : SlotId) : List Nat :=
  match r.held? slot with
  | none => []
  | some id =>
    match r.find? id with
    | none => []
    | some entry => if (entry.refs.erase slot).isEmpty then [id.index] else []

variable [Mergeable σ]

/-- The slots that a command indexes. -/
def slotIndices (r : Registry σ) : Command σ → List SlotId
  | .newSlot => r.freeSlots.head?.toList
  | .releaseSlot slot =>
    match r.slots[slot]? with
    | none | some .released => []
    | some _ => [slot]
  | .attach contents slots =>
    match attach contents slots r with
    | .ok _ _ => slots
    | .error _ _ => []
  | .addReference id slot =>
    match addReference id slot r with
    | .ok _ _ => [slot]
    | .error _ _ => []
  | .removeReference slot => if (r.held? slot).isSome then [slot] else []
  | .changeReference old new =>
    match changeReference old new r with
    | .ok _ _ => if (r.held? old).isSome && old ≠ new then [new, old] else []
    | .error _ _ => []
  | .retargetAll src dst =>
    match retargetAll src dst r with
    | .ok _ _ => r.refs src
    | .error _ _ => []
  | .merge rule a b =>
    match r.planMerge rule a b with
    | .ok (.join _ loser _) => r.refs loser
    | _ => []

/-- The cells that a command indexes. The look-up of a handle is not among them, since it allows for
handles of cells that do not exist. -/
def cellIndices (r : Registry σ) : Command σ → List Nat
  | .attach contents slots =>
    match attach contents slots r with
    | .ok (some _) _ => r.freeCells.head?.toList
    | _ => []
  | .releaseSlot slot | .removeReference slot => r.emptiedCell slot
  | .retargetAll src dst =>
    match retargetAll src dst r with
    | .ok _ _ => [src.index]
    | .error _ _ => []
  | .merge rule a b =>
    match r.planMerge rule a b with
    | .ok (.join _ loser _) => [loser.index]
    | _ => []
  | .newSlot | .addReference .. | .changeReference .. => []

/-! ## All of these places exist -/

omit [Mergeable σ] in
theorem lt_slotCount_of_mem_refs (h : r.Linked) {id : SetId} {slot : SlotId}
    (hs : slot ∈ r.refs id) : slot < r.slotCount := by
  cases hfind : r.find? id with
  | none => simp [refs_of_find?_none hfind] at hs
  | some entry =>
    rw [refs_of_find? hfind] at hs
    exact lt_size_of_held? (h.held_of_mem hfind hs)

omit [Mergeable σ] in
theorem index_lt_of_isLive {id : SetId} (h : r.isLive id) : id.index < r.cells.size := by
  obtain ⟨entry, hfind⟩ := isLive_iff.mp h
  have hcell := find?_eq_some.mp hfind
  exact (Array.getElem?_eq_some_iff.mp hcell).1

omit [Mergeable σ] in
theorem lt_slotCount_of_vacant {slot : SlotId} (h : r.slots[slot]? = some .vacant) :
    slot < r.slotCount :=
  (Array.getElem?_eq_some_iff.mp h).1

theorem slotIndices_lt (h : r.WellFormed) (c : Command σ) :
    ∀ slot ∈ r.slotIndices c, slot < r.slotCount := by
  intro slot hmem
  cases c with
  | newSlot =>
    have hfree : slot ∈ r.freeSlots := List.mem_of_mem_head? (by simpa [slotIndices] using hmem)
    have hreleased := (h.freeSlots.mem_iff slot).mp hfree
    exact (Array.getElem?_eq_some_iff.mp hreleased).1
  | releaseSlot s =>
    simp only [slotIndices] at hmem
    split at hmem
    · simp at hmem
    · simp at hmem
    · rename_i hstate
      obtain rfl := List.mem_singleton.mp hmem
      exact (Array.getElem?_eq_some_iff.mp hstate).1
  | attach contents slots =>
    rcases attach_cases contents slots r with ⟨e, heq⟩ | ⟨hnil, heq⟩ | ⟨-, -, hvacant, heq⟩
    all_goals simp only [slotIndices, heq] at hmem
    · simp at hmem
    · simp [hnil] at hmem
    · exact lt_slotCount_of_vacant (hvacant slot hmem)
  | addReference id s =>
    rcases addReference_cases id s r with ⟨e, heq⟩ | ⟨entry, hvacant, -, heq⟩
    all_goals simp only [slotIndices, heq] at hmem
    · simp at hmem
    · obtain rfl := List.mem_singleton.mp hmem
      exact lt_slotCount_of_vacant hvacant
  | removeReference s =>
    simp only [slotIndices] at hmem
    split at hmem
    · rename_i hheld
      obtain rfl := List.mem_singleton.mp hmem
      obtain ⟨id, hid⟩ := Option.isSome_iff_exists.mp hheld
      exact lt_size_of_held? hid
    · simp at hmem
  | changeReference old new =>
    rcases changeReference_cases old new r with
      ⟨e, heq⟩ | ⟨hnothing, heq⟩ | ⟨id, entry, hheld, hne, hvacant, -, heq⟩
    all_goals simp only [slotIndices, heq] at hmem
    · simp at hmem
    · rcases hnothing with hnone | hsame
      · simp [hnone] at hmem
      · simp [hsame] at hmem
    · have hside : slot = new ∨ slot = old := by simpa [hheld, hne] using hmem
      rcases hside with rfl | rfl
      · exact lt_slotCount_of_vacant hvacant
      · exact lt_size_of_held? hheld
  | retargetAll src dst =>
    rcases retargetAll_cases src dst r with ⟨heq, -⟩ | ⟨moving, entry, -, -, -, heq⟩
    all_goals simp only [slotIndices, heq] at hmem
    · simp at hmem
    · exact lt_slotCount_of_mem_refs h.linked hmem
  | merge rule a b =>
    simp only [slotIndices] at hmem
    split at hmem
    · exact lt_slotCount_of_mem_refs h.linked hmem
    · simp at hmem

omit [Mergeable σ] in
theorem emptiedCell_lt (slot : SlotId) : ∀ index ∈ r.emptiedCell slot, index < r.cells.size := by
  intro index hmem
  unfold emptiedCell at hmem
  cases hheld : r.held? slot with
  | none => simp [hheld] at hmem
  | some id =>
    cases hfind : r.find? id with
    | none => simp [hheld, hfind] at hmem
    | some entry =>
      simp only [hheld, hfind] at hmem
      split at hmem
      · obtain rfl := List.mem_singleton.mp hmem
        exact index_lt_of_isLive (isLive_iff.mpr ⟨entry, hfind⟩)
      · simp at hmem

theorem cellIndices_lt (h : r.WellFormed) (c : Command σ) :
    ∀ index ∈ r.cellIndices c, index < r.cells.size := by
  intro index hmem
  cases c with
  | newSlot => simp [cellIndices] at hmem
  | releaseSlot slot => exact emptiedCell_lt slot index hmem
  | attach contents slots =>
    have hfree : index ∈ r.freeCells := by
      simp only [cellIndices] at hmem
      split at hmem
      · exact List.mem_of_mem_head? (by simpa using hmem)
      · simp at hmem
    obtain ⟨generation, hcell⟩ := (h.freeCells.mem_iff index).mp hfree
    exact (Array.getElem?_eq_some_iff.mp hcell).1
  | addReference id slot => simp [cellIndices] at hmem
  | removeReference slot => exact emptiedCell_lt slot index hmem
  | changeReference old new => simp [cellIndices] at hmem
  | retargetAll src dst =>
    rcases retargetAll_cases src dst r with ⟨heq, -⟩ | ⟨moving, entry, -, hsrc, -, heq⟩
    all_goals simp only [cellIndices, heq] at hmem
    · simp at hmem
    · obtain rfl := List.mem_singleton.mp hmem
      exact index_lt_of_isLive (isLive_iff.mpr ⟨moving, hsrc⟩)
  | merge rule a b =>
    simp only [cellIndices] at hmem
    split at hmem
    · rename_i survivor loser contents? hplan
      obtain rfl := List.mem_singleton.mp hmem
      obtain ⟨-, hside, ha, hb⟩ := planMerge_eq_join hplan
      rcases hside with ⟨-, rfl⟩ | ⟨-, rfl⟩
      · exact index_lt_of_isLive hb
      · exact index_lt_of_isLive ha
    · simp at hmem

/-! ## No other place changes -/

theorem slots_after_of_not_mem (h : r.WellFormed) {c : Command σ} {slot : SlotId}
    (hslot : slot < r.slotCount) (hmem : slot ∉ r.slotIndices c) :
    (r.after c).slots[slot]? = r.slots[slot]? := by
  cases c with
  | newSlot =>
    have hne : slot ≠ r.newSlot.1 := by
      unfold newSlot
      cases hfree : r.freeSlots with
      | nil => exact Nat.ne_of_lt hslot
      | cons first rest => simpa [slotIndices, hfree] using hmem
    exact (slots_newSlot h.freeSlots slot).trans (if_neg hne)
  | releaseSlot s =>
    refine (slots_releaseSlot r s slot).trans ?_
    split
    · rename_i heq
      subst heq
      rcases hstate : r.slots[slot]? with _ | _ | _ | _ <;> simp [slotIndices, hstate] at hmem ⊢
    · rfl
  | attach contents slots =>
    rcases attach_cases contents slots r with ⟨e, heq⟩ | ⟨-, heq⟩ | ⟨-, -, -, heq⟩
    all_goals simp only [slotIndices, heq] at hmem
    all_goals simp only [after, exec, Functor.map, EStateM.map, heq]
    rw [slots_pointAll, if_neg hmem, slots_store]
  | addReference id s =>
    rcases addReference_cases id s r with ⟨e, heq⟩ | ⟨entry, -, -, heq⟩
    all_goals simp only [slotIndices, heq] at hmem
    all_goals simp only [after, exec, Functor.map, EStateM.map, heq]
    rw [slots_setSlot, if_neg (by simpa using hmem), slots_modifyEntry]
  | removeReference s =>
    refine (slots_removeReference r s slot).trans (if_neg ?_)
    rintro ⟨rfl, hheld⟩
    simp [slotIndices, hheld] at hmem
  | changeReference old new =>
    rcases changeReference_cases old new r with
      ⟨e, heq⟩ | ⟨-, heq⟩ | ⟨id, entry, hheld, hne, -, -, heq⟩
    all_goals simp only [slotIndices, heq] at hmem
    all_goals simp only [after, exec, Functor.map, EStateM.map, heq]
    have hside : slot ≠ new ∧ slot ≠ old := by simpa [hheld, hne] using hmem
    rw [slots_setSlot, if_neg hside.2, slots_setSlot, if_neg hside.1, slots_modifyEntry]
  | retargetAll src dst =>
    rcases retargetAll_cases src dst r with ⟨heq, -⟩ | ⟨moving, entry, -, hsrc, -, heq⟩
    all_goals simp only [slotIndices, heq] at hmem
    all_goals simp only [after, exec, Functor.map, EStateM.map, heq]
    rw [refs_of_find? hsrc, h.linked.mem_refs_iff hsrc] at hmem
    rw [slots_drain h.linked, if_neg hmem]
  | merge rule a b =>
    simp only [after, exec, Functor.map, EStateM.map]
    rcases hplan : r.planMerge rule a b with e | _ | _ | ⟨survivor, loser, contents?⟩
    all_goals simp only [slotIndices, hplan] at hmem
    · simp [merge, hplan]
    · simp [merge, hplan]
    · simp [merge, hplan]
    · obtain ⟨-, -, hl, r', contents, heq, habsorbs⟩ := absorbs_of_planMerge h hplan
      obtain ⟨y, hy⟩ := isLive_iff.mp hl
      rw [refs_of_find? hy, h.linked.mem_refs_iff hy] at hmem
      simp only [heq]
      rw [habsorbs.slots_eq, if_neg hmem]

omit [Mergeable σ] in
theorem cellState?_removeReference (h : r.Linked) {slot : SlotId} {index : Nat}
    (hmem : index ∉ r.emptiedCell slot) :
    (r.removeReference slot).cellState? index = r.cellState? index := by
  unfold removeReference
  cases hheld : r.held? slot with
  | none => rfl
  | some id =>
    obtain ⟨entry, hfind, -⟩ := h.mem_of_held hheld
    have hrest : ((r.setSlot slot .vacant).modifyEntry id
        fun e => { e with refs := e.refs.erase slot }).refs id = entry.refs.erase slot := by
      simp [refs, find?_modifyEntry, hfind]
    dsimp only
    rw [hrest]
    split
    · rename_i hlast
      have hne : index ≠ id.index := by simpa [emptiedCell, hheld, hfind, hlast] using hmem
      rw [cellState?_free, if_neg hne]
      · simp
      · simp [isLive, find?_modifyEntry, hfind]
    · simp

theorem cellState?_after_of_not_mem (h : r.WellFormed) {c : Command σ} {index : Nat}
    (hindex : index < r.cells.size) (hmem : index ∉ r.cellIndices c) :
    (r.after c).cellState? index = r.cellState? index := by
  cases c with
  | newSlot => exact r.cellState?_newSlot index
  | releaseSlot slot =>
    have hremove : (r.removeReference slot).cellState? index = r.cellState? index :=
      cellState?_removeReference h.linked hmem
    show (r.releaseSlot slot).cellState? index = _
    rcases releaseSlot_cases r slot with ⟨-, heq⟩ | ⟨-, -, heq⟩
    · rw [heq]
    · rw [heq]
      exact hremove
  | attach contents slots =>
    rcases attach_cases contents slots r with ⟨e, heq⟩ | ⟨-, heq⟩ | ⟨-, -, -, heq⟩
    all_goals simp only [cellIndices, heq] at hmem
    all_goals simp only [after, exec, Functor.map, EStateM.map, heq]
    have hne : index ≠ r.nextId.index := by
      unfold nextId
      cases hfree : r.freeCells with
      | nil => exact Nat.ne_of_lt hindex
      | cons first rest => simpa [hfree] using hmem
    rw [cellState?_pointAll, cellState?_store h.freeCells, if_neg hne]
  | addReference id slot =>
    rcases addReference_cases id slot r with ⟨e, heq⟩ | ⟨entry, -, -, heq⟩
    all_goals simp [after, exec, Functor.map, EStateM.map, heq]
  | removeReference slot => exact cellState?_removeReference h.linked hmem
  | changeReference old new =>
    rcases changeReference_cases old new r with ⟨e, heq⟩ | ⟨-, heq⟩ | ⟨_, _, -, -, -, -, heq⟩
    all_goals simp [after, exec, Functor.map, EStateM.map, heq]
  | retargetAll src dst =>
    rcases retargetAll_cases src dst r with ⟨heq, -⟩ | ⟨moving, _, -, hsrc, -, heq⟩
    all_goals simp only [cellIndices, heq] at hmem
    all_goals simp only [after, exec, Functor.map, EStateM.map, heq]
    have hlive : r.isLive src := isLive_iff.mpr ⟨moving, hsrc⟩
    have hne : index ≠ src.index := by simpa using hmem
    simp [drain, cellState?_free hlive, hne]
  | merge rule a b =>
    simp only [after, exec, Functor.map, EStateM.map]
    rcases hplan : r.planMerge rule a b with e | _ | _ | ⟨survivor, loser, contents?⟩
    all_goals simp only [cellIndices, hplan] at hmem
    · simp [merge, hplan]
    · simp [merge, hplan]
    · simp [merge, hplan]
    · obtain ⟨hne, hs, hl, -⟩ := absorbs_of_planMerge h hplan
      have hindex : index ≠ loser.index := by simpa using hmem
      simp [merge_of_join hplan hne hs hl, drain, cellState?_free hl, hindex]

/-- Nothing can go wrong on the way of a command. What it checks holds, and the places that it
indexes exist; what it leaves elsewhere shows that these are all that it writes to. -/
structure Safe (r : Registry σ) (c : Command σ) : Prop where
  findings_hold : AllHold (r.findings c)
  slotIndices_lt : ∀ slot ∈ r.slotIndices c, slot < r.slotCount
  cellIndices_lt : ∀ index ∈ r.cellIndices c, index < r.cells.size
  slots_eq : ∀ slot < r.slotCount, slot ∉ r.slotIndices c →
    (r.after c).slots[slot]? = r.slots[slot]?
  cellState?_eq : ∀ index < r.cells.size, index ∉ r.cellIndices c →
    (r.after c).cellState? index = r.cellState? index

theorem WellFormed.safe [VerifiedMergeable σ] (h : r.WellFormed) (c : Command σ) : r.Safe c where
  findings_hold := findings_hold h c
  slotIndices_lt := slotIndices_lt h c
  cellIndices_lt := cellIndices_lt h c
  slots_eq _ := slots_after_of_not_mem h
  cellState?_eq _ := cellState?_after_of_not_mem h

end FormatNegotiation.Registry
