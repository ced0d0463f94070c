import FormatNegotiation.Merge.Values
import FormatNegotiation.Proofs.Registry.Cells
import FormatNegotiation.Registry.Narrow

/-! Narrow handles are exact up to 2^32 cells. Cells are never given up, so a bound on their number
at the end of a run holds all along it, and such a run with narrow handles is the run with unbounded
ones. -/
namespace FormatNegotiation

theorem SetId.narrow_of_lt {id : SetId} (h : id.index < UInt32.size) : id.narrow = id := by
  rw [SetId.narrow, Nat.mod_eq_of_lt h]

namespace Registry

variable {σ : Type} {r : Registry σ}

/-! ## The handle of a new set -/

/-- The next set goes into a cell that is there once it is stored. -/
theorem nextId_index_lt (h : r.FreeCellsExact) (entry : SetEntry σ) :
    r.nextId.index < (r.store entry).cells.size := by
  have hstored : (r.store entry).cellState? r.nextId.index = some (r.nextId.generation, true) :=
    (cellState?_store h entry _).trans (if_pos rfl)
  by_contra hout
  have hnone := cellState?_eq_none_iff.mpr (Nat.le_of_not_lt hout)
  cases hnone.symm.trans hstored

/-- The bound cannot be dropped. When so many cells are full, the next set gets the handle that the
very first one got. -/
theorem nextId_narrow_of_full (hfree : r.freeCells = []) (hfull : r.cells.size = UInt32.size) :
    r.nextId.narrow = ⟨0, 0⟩ := by
  simp [nextId, hfree, hfull, SetId.narrow]

/-- The two differ in the handle of the set that they store, if they store one. -/
theorem attachNarrow_cases (contents : σ) (slots : List SlotId) (r : Registry σ) :
    attachNarrow contents slots r = attach contents slots r ∨
      attach contents slots r =
        .ok (some r.nextId) ((r.store ⟨contents, slots⟩).pointAll slots r.nextId) ∧
      attachNarrow contents slots r =
        .ok (some r.nextId.narrow)
          ((r.store ⟨contents, slots⟩).pointAll slots r.nextId.narrow) := by
  unfold attachNarrow attach
  split
  · exact .inl rfl
  · cases r.checkDistinctVacant [] slots with
    | error e => exact .inl rfl
    | ok u => exact .inr ⟨rfl, rfl⟩

/-! ## Commands with narrow handles -/

section Command

variable [Mergeable σ]

theorem afterNarrow_eq_stateAfter (r : Registry σ) (c : Command σ) :
    r.afterNarrow c = stateAfter (execNarrow c) r := by
  unfold afterNarrow stateAfter
  cases execNarrow c r <;> rfl

/-- The cells are filled alike, whatever handle is given out. -/
theorem cells_afterNarrow (r : Registry σ) (c : Command σ) :
    (r.afterNarrow c).cells = (r.after c).cells := by
  cases c with
  | attach contents slots =>
    rw [afterNarrow_eq_stateAfter, after_eq_stateAfter, execNarrow, exec, stateAfter_map,
      stateAfter_map]
    rcases attachNarrow_cases contents slots r with heq | ⟨hwide, hnarrow⟩
    · rw [stateAfter, heq, ← stateAfter]
    · rw [stateAfter_of_ok hnarrow, stateAfter_of_ok hwide, cells_pointAll, cells_pointAll]
  | _ => rfl

theorem size_cells_le_runNarrow (r : Registry σ) (cs : List (Command σ)) :
    r.cells.size ≤ (r.runNarrow cs).cells.size := by
  induction cs generalizing r with
  | nil => exact Nat.le_refl _
  | cons c cs ih =>
    calc
      r.cells.size ≤ (r.after c).cells.size := r.size_cells_le_after c
      _ = (r.afterNarrow c).cells.size := by rw [cells_afterNarrow]
      _ ≤ ((r.afterNarrow c).runNarrow cs).cells.size := ih _

variable {c : Command σ} {cs : List (Command σ)}

theorem execNarrow_eq (h : r.FreeCellsExact)
    (hbound : (r.afterNarrow c).cells.size ≤ UInt32.size) : execNarrow c r = exec c r := by
  cases c with
  | attach contents slots =>
    rcases attachNarrow_cases contents slots r with heq | ⟨hwide, hnarrow⟩
    · simp only [execNarrow, exec, Functor.map, EStateM.map, heq]
    · have hcells : (r.afterNarrow (.attach contents slots)).cells =
          (r.store ⟨contents, slots⟩).cells := by
        rw [afterNarrow_eq_stateAfter, execNarrow, stateAfter_map, stateAfter_of_ok hnarrow,
          cells_pointAll]
      have hlt : r.nextId.index < UInt32.size :=
        Nat.lt_of_lt_of_le (nextId_index_lt h ⟨contents, slots⟩) (hcells ▸ hbound)
      rw [SetId.narrow_of_lt hlt] at hnarrow
      simp only [execNarrow, exec, Functor.map, EStateM.map, hwide, hnarrow]
  | _ => rfl

theorem afterNarrow_eq (h : r.FreeCellsExact)
    (hbound : (r.afterNarrow c).cells.size ≤ UInt32.size) : r.afterNarrow c = r.after c := by
  rw [afterNarrow_eq_stateAfter, stateAfter, execNarrow_eq h hbound, ← stateAfter,
    after_eq_stateAfter]

theorem runNarrow_eq (h : r.WellFormed) (hbound : (r.runNarrow cs).cells.size ≤ UInt32.size) :
    r.runNarrow cs = r.run cs := by
  induction cs generalizing r with
  | nil => rfl
  | cons c cs ih =>
    have hfirst := Nat.le_trans ((r.afterNarrow c).size_cells_le_runNarrow cs) hbound
    have hafter := afterNarrow_eq h.freeCells hfirst
    have hrest : ((r.after c).runNarrow cs).cells.size ≤ UInt32.size := hafter ▸ hbound
    calc
      r.runNarrow (c :: cs) = (r.after c).runNarrow cs := congrArg (·.runNarrow cs) hafter
      _ = (r.after c).run cs := ih (after_wellFormed h c) hrest

end Command

/-! ## Runs with narrow handles -/

theorem runNarrow_wellFormed [Mergeable σ] {cs : List (Command σ)}
    (hbound : (runNarrow empty cs).cells.size ≤ UInt32.size) :
    (runNarrow empty cs).WellFormed := by
  rw [runNarrow_eq empty_wellFormed hbound]
  exact run_wellFormed cs

/-- After any run that makes up to 2^32 cells slots and sets agree: a slot points at a set exactly
if the set is live and lists it, once. A set is stored only while it is referenced, and both free
lists are exact. -/
theorem run_references_consistent [Mergeable σ] (cs : List (Command σ))
    (hbound : (runNarrow empty cs).cells.size ≤ UInt32.size) :
    let r := runNarrow empty cs
    (∀ id slot, r.held? slot = some id ↔ r.isLive id ∧ slot ∈ r.refs id) ∧
    (∀ id, (r.refs id).Nodup) ∧
    (∀ id entry, r.find? id = some entry → entry.refs ≠ []) ∧
    (∀ id, r.isLive id ↔ 0 < r.refcount id) ∧
    r.liveSets = r.heldSets.length ∧
    r.freeCells.Nodup ∧
    (∀ index, index ∈ r.freeCells ↔ ∃ generation, r.cells[index]? = some ⟨generation, none⟩) ∧
    r.freeSlots.Nodup ∧
    (∀ slot, slot ∈ r.freeSlots ↔ r.slots[slot]? = some .released) := by
  intro r
  have h : r.WellFormed := runNarrow_wellFormed hbound
  exact ⟨h.linked.held_iff_isLive, h.linked.nodup_refs_of, fun _ _ => h.linked.refs_ne_nil,
    h.linked.isLive_iff_refcount_pos, liveSets_eq_length_heldSets h.linked,
    h.freeCells.nodup, h.freeCells.mem_iff, h.freeSlots.nodup, h.freeSlots.mem_iff⟩

/-- A set is merged into another one, its cell used again under the next generation, and a slot of
the survivor released. -/
theorem run_references_consistent_after_merge :
    let cs : List (Command FormatList) :=
      [.newSlot, .newSlot, .newSlot, .newSlot, .attach [1, 2] [0, 1], .attach [2] [2],
        .merge ValueRule.rates ⟨0, 0⟩ ⟨1, 0⟩, .attach [3] [3], .releaseSlot 0]
    let r := runNarrow empty cs
    r.cells.size ≤ UInt32.size ∧ r.refs ⟨1, 0⟩ = [2, 1] ∧ r.held? 3 = some ⟨0, 1⟩ ∧
      (∀ id slot, r.held? slot = some id ↔ r.isLive id ∧ slot ∈ r.refs id) ∧
      r.liveSets = r.heldSets.length ∧ 0 ∈ r.freeSlots := by
  intro cs r
  have hbound : r.cells.size ≤ UInt32.size := by decide
  obtain ⟨hheld, -, -, -, hcount, -, -, -, hfree⟩ := run_references_consistent cs hbound
  exact ⟨hbound, by decide, by decide, hheld, hcount, (hfree 0).mpr (by decide)⟩

end Registry

end FormatNegotiation
