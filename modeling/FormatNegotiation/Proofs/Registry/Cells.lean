import FormatNegotiation.Proofs.Registry.Session

/-! The cells of a registry and what a command does to them: at most one of them is filled with a
new set, or emptied. -/
namespace FormatNegotiation.Registry

variable {σ : Type} {r r' : Registry σ} {id : SetId}

/-! ## The state of a cell -/

/-- The generation that a cell is in, and whether it is full. -/
def cellState? (r : Registry σ) (index : Nat) : Option (Nat × Bool) :=
  (r.cells[index]?).map fun cell => (cell.generation, cell.occupant.isSome)

theorem cellState?_congr (h : r'.cells = r.cells) (index : Nat) :
    r'.cellState? index = r.cellState? index := by
  simp only [cellState?, h]

theorem cellState?_eq_none_iff {index : Nat} :
    r.cellState? index = none ↔ r.cells.size ≤ index := by
  simp [cellState?]

/-- A handle is live if its cell is full and in the generation of the handle. -/
theorem isLive_iff_cellState? :
    r.isLive id ↔ r.cellState? id.index = some (id.generation, true) := by
  unfold isLive find? cellState?
  cases r.cells[id.index]? with
  | none => simp
  | some cell =>
    by_cases hgeneration : cell.generation = id.generation <;> simp [hgeneration]

@[simp] theorem cellState?_setSlot (r : Registry σ) (slot : SlotId) (state : SlotState)
    (index : Nat) : (r.setSlot slot state).cellState? index = r.cellState? index := rfl

@[simp] theorem cellState?_pointAll (r : Registry σ) (slots : List SlotId) (id : SetId)
    (index : Nat) : (r.pointAll slots id).cellState? index = r.cellState? index :=
  cellState?_congr (cells_pointAll r slots id) index

/-- A change to a stored set leaves its cell full. -/
@[simp] theorem cellState?_modifyEntry (r : Registry σ) (id : SetId)
    (f : SetEntry σ → SetEntry σ) (index : Nat) :
    (r.modifyEntry id f).cellState? index = r.cellState? index := by
  simp only [cellState?, modifyEntry, Array.getElem?_modify]
  by_cases hindex : id.index = index
  · subst hindex
    cases r.cells[id.index]? with
    | none => simp
    | some cell =>
      by_cases hgeneration : cell.generation = id.generation <;> simp [hgeneration]
  · simp [hindex]

@[simp] theorem cellState?_replaceContents (r : Registry σ) (id : SetId) (contents? : Option σ)
    (index : Nat) : (r.replaceContents id contents?).cellState? index = r.cellState? index := by
  cases contents? with
  | none => rfl
  | some contents => exact cellState?_modifyEntry r id _ index

@[simp] theorem cellState?_newSlot (r : Registry σ) (index : Nat) :
    r.newSlot.2.cellState? index = r.cellState? index := by
  unfold newSlot
  split <;> rfl

theorem cellState?_free (h : r.isLive id) (index : Nat) :
    (r.free id).cellState? index =
      if index = id.index then some (nextGeneration id.generation, false)
      else r.cellState? index := by
  obtain ⟨entry, hfind⟩ := isLive_iff.mp h
  have hcell := find?_eq_some.mp hfind
  simp only [cellState?, free, hfind, Array.getElem?_modify]
  by_cases hindex : index = id.index
  · subst hindex
    simp [hcell]
  · simp [hindex, Ne.symm hindex]

/-- A new set goes into a cell that is yet to be made, or into an empty one. -/
theorem cellState?_nextId (h : r.FreeCellsExact) :
    r.cellState? r.nextId.index = none ∧ r.nextId.generation = 0 ∨
      r.cellState? r.nextId.index = some (r.nextId.generation, false) := by
  unfold cellState? nextId
  cases hfree : r.freeCells with
  | nil => exact .inl (by simp)
  | cons first rest =>
    obtain ⟨generation, hcell⟩ := (h.mem_iff first).mp (by simp [hfree])
    exact .inr (by simp [hcell])

theorem cellState?_store (h : r.FreeCellsExact) (entry : SetEntry σ) (index : Nat) :
    (r.store entry).cellState? index =
      if index = r.nextId.index then some (r.nextId.generation, true)
      else r.cellState? index := by
  unfold cellState? nextId store
  cases hfree : r.freeCells with
  | nil => by_cases hindex : index = r.cells.size <;> simp [Array.getElem?_push, hindex]
  | cons first rest =>
    obtain ⟨generation, hcell⟩ := (h.mem_iff first).mp (by simp [hfree])
    by_cases hindex : index = first
    · simp [Array.getElem?_modify, hindex, hcell]
    · simp [Array.getElem?_modify, hindex, Ne.symm hindex]

/-! ## The number of cells -/

@[simp] theorem size_cells_modifyEntry (r : Registry σ) (id : SetId)
    (f : SetEntry σ → SetEntry σ) : (r.modifyEntry id f).cells.size = r.cells.size :=
  Array.size_modify

@[simp] theorem size_cells_replaceContents (r : Registry σ) (id : SetId) (contents? : Option σ) :
    (r.replaceContents id contents?).cells.size = r.cells.size := by
  cases contents? with
  | none => rfl
  | some contents => exact r.size_cells_modifyEntry id _

@[simp] theorem size_cells_free (r : Registry σ) (id : SetId) :
    (r.free id).cells.size = r.cells.size := by
  unfold free
  split
  · exact Array.size_modify
  · rfl

theorem size_cells_le_store (r : Registry σ) (entry : SetEntry σ) :
    r.cells.size ≤ (r.store entry).cells.size := by
  unfold store
  split <;> simp

@[simp] theorem size_cells_newSlot (r : Registry σ) : r.newSlot.2.cells.size = r.cells.size := by
  unfold newSlot
  split <;> rfl

@[simp] theorem size_cells_removeReference (r : Registry σ) (slot : SlotId) :
    (r.removeReference slot).cells.size = r.cells.size := by
  unfold removeReference
  split
  · rfl
  · dsimp only
    split <;> simp

@[simp] theorem size_cells_releaseSlot (r : Registry σ) (slot : SlotId) :
    (r.releaseSlot slot).cells.size = r.cells.size := by
  unfold releaseSlot
  split <;> simp

@[simp] theorem size_cells_drain (r : Registry σ) (src dst : SetId) :
    (r.drain src dst).cells.size = r.cells.size := by
  simp [drain]

/-! ## What a command does to the cells -/

/-- The ways in which a command changes the states of cells, with the handle that it hands out. -/
inductive CellChange (r r' : Registry σ) : Option SetId → Prop where
  | keep (h : ∀ index, r'.cellState? index = r.cellState? index) : CellChange r r' none
  /-- A set is freed. -/
  | retire (id : SetId) (hlive : r.isLive id)
    (h : ∀ index, r'.cellState? index =
      if index = id.index then some (nextGeneration id.generation, false)
      else r.cellState? index) : CellChange r r' none
  /-- A new set is stored. -/
  | occupy
    (h : ∀ index, r'.cellState? index =
      if index = r.nextId.index then some (r.nextId.generation, true)
      else r.cellState? index) : CellChange r r' (some r.nextId)

theorem removeReference_cellChange (h : r.WellFormed) (slot : SlotId) :
    CellChange r (r.removeReference slot) none := by
  unfold removeReference
  cases hheld : r.held? slot with
  | none => exact .keep fun _ => rfl
  | some id =>
    obtain ⟨entry, hfind, -⟩ := h.linked.mem_of_held hheld
    dsimp only
    split
    · refine .retire id (isLive_iff.mpr ⟨entry, hfind⟩) fun index => ?_
      rw [cellState?_free]
      · simp
      · simp [isLive, find?_modifyEntry, hfind]
    · exact .keep fun index => by simp

theorem releaseSlot_cellChange (h : r.WellFormed) (slot : SlotId) :
    CellChange r (r.releaseSlot slot) none := by
  rcases releaseSlot_cases r slot with ⟨-, heq⟩ | ⟨-, -, heq⟩
  · rw [heq]
    exact .keep fun _ => rfl
  · have hcells : ∀ index, (r.releaseSlot slot).cellState? index =
        (r.removeReference slot).cellState? index := by
      intro index
      rw [heq]
      rfl
    cases removeReference_cellChange h slot with
    | keep hkeep => exact .keep fun index => (hcells index).trans (hkeep index)
    | retire id hlive hretire =>
      exact .retire id hlive fun index => (hcells index).trans (hretire index)

theorem drain_cellChange {src : SetId} (hlive : r.isLive src) (dst : SetId)
    (contents? : Option σ) :
    CellChange r ((r.drain src dst).replaceContents dst contents?) none :=
  .retire src hlive fun index => by simp [drain, cellState?_free hlive]

section Command

variable [Mergeable σ]

/-- The handle that a command hands out, if it stores a set. -/
def attached? (r : Registry σ) (c : Command σ) : Option SetId :=
  match exec c r with
  | .ok (.attached id?) _ => id?
  | _ => none

theorem after_cellChange (h : r.WellFormed) (c : Command σ) :
    CellChange r (r.after c) (r.attached? c) := by
  have hkeep : CellChange r r none := .keep fun _ => rfl
  cases c with
  | newSlot => exact .keep r.cellState?_newSlot
  | releaseSlot slot => exact releaseSlot_cellChange h slot
  | attach contents slots =>
    rcases attach_cases contents slots r with ⟨e, heq⟩ | ⟨-, heq⟩ | ⟨-, -, -, heq⟩
    all_goals simp only [after, attached?, exec, Functor.map, EStateM.map, heq]
    · exact hkeep
    · exact hkeep
    · exact .occupy fun index => by rw [cellState?_pointAll, cellState?_store h.freeCells]
  | addReference id slot =>
    rcases addReference_cases id slot r with ⟨e, heq⟩ | ⟨entry, -, -, heq⟩
    all_goals simp only [after, attached?, exec, Functor.map, EStateM.map, heq]
    · exact hkeep
    · exact .keep fun index => by simp
  | removeReference slot => exact removeReference_cellChange h slot
  | changeReference old new =>
    rcases changeReference_cases old new r with ⟨e, heq⟩ | ⟨-, heq⟩ | ⟨_, _, -, -, -, -, heq⟩
    all_goals simp only [after, attached?, exec, Functor.map, EStateM.map, heq]
    · exact hkeep
    · exact hkeep
    · exact .keep fun index => by simp
  | retargetAll src dst =>
    rcases retargetAll_cases src dst r with ⟨heq, -⟩ | ⟨moving, _, -, hsrc, -, heq⟩
    all_goals simp only [after, attached?, exec, Functor.map, EStateM.map, heq]
    · exact hkeep
    · exact drain_cellChange (isLive_iff.mpr ⟨moving, hsrc⟩) dst none
  | merge rule a b =>
    simp only [after, attached?, exec, Functor.map, EStateM.map, merge]
    rcases r.planMerge rule a b with e | _ | _ | ⟨survivor, loser, contents?⟩
    · exact hkeep
    · exact hkeep
    · exact hkeep
    · rcases retargetAll_cases loser survivor r with ⟨heq, -⟩ | ⟨moving, _, -, hloser, -, heq⟩
      all_goals simp only [heq]
      · exact hkeep
      · exact drain_cellChange (isLive_iff.mpr ⟨moving, hloser⟩) survivor contents?

/-- Cells are made and filled and emptied, and never given up. -/
theorem size_cells_le_after (r : Registry σ) (c : Command σ) :
    r.cells.size ≤ (r.after c).cells.size := by
  cases c with
  | newSlot => exact Nat.le_of_eq r.size_cells_newSlot.symm
  | releaseSlot slot => exact Nat.le_of_eq (r.size_cells_releaseSlot slot).symm
  | attach contents slots =>
    rcases attach_cases contents slots r with ⟨e, heq⟩ | ⟨-, heq⟩ | ⟨-, -, -, heq⟩
    all_goals simp only [after, exec, Functor.map, EStateM.map, heq, Nat.le_refl]
    rw [cells_pointAll]
    exact r.size_cells_le_store _
  | addReference id slot =>
    rcases addReference_cases id slot r with ⟨e, heq⟩ | ⟨entry, -, -, heq⟩ <;>
      simp [after, exec, Functor.map, EStateM.map, heq]
  | removeReference slot => exact Nat.le_of_eq (r.size_cells_removeReference slot).symm
  | changeReference old new =>
    rcases changeReference_cases old new r with ⟨e, heq⟩ | ⟨-, heq⟩ | ⟨_, _, -, -, -, -, heq⟩ <;>
      simp [after, exec, Functor.map, EStateM.map, heq]
  | retargetAll src dst =>
    rcases retargetAll_cases src dst r with ⟨heq, -⟩ | ⟨_, _, -, -, -, heq⟩ <;>
      simp [after, exec, Functor.map, EStateM.map, heq]
  | merge rule a b =>
    simp only [after, exec, Functor.map, EStateM.map, merge]
    rcases r.planMerge rule a b with e | _ | _ | ⟨survivor, loser, contents?⟩
    · exact Nat.le_refl _
    · exact Nat.le_refl _
    · exact Nat.le_refl _
    · rcases retargetAll_cases loser survivor r with ⟨heq, -⟩ | ⟨_, _, -, -, -, heq⟩ <;>
        simp [heq]

end Command

end FormatNegotiation.Registry
