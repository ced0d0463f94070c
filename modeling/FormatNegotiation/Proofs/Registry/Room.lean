import FormatNegotiation.Proofs.Merge.Layouts
import FormatNegotiation.Proofs.Merge.Values
import FormatNegotiation.Proofs.Registry.Cells

/-! The room that is reserved before anything is stored is enough. A list that is built for an
intersection is no longer than was computed for it before. For free cells there is room as soon as
the cells are made, since each cell that does not hold a set is listed once. -/
namespace FormatNegotiation

/-! ## Lists that are built -/

namespace FormatList

theorem length_common (a b : FormatList) : (common a b).length = commonCount a b :=
  List.countP_eq_length_filter.symm

theorem commonCount_le_length (a b : FormatList) : commonCount a b ≤ a.length :=
  List.countP_le_length

theorem length_of_replace {a b out : FormatList} (h : intersect a b = .replace out) :
    out.length = commonCount a b := by
  have hmeets := meets_intersect a b
  rw [h] at hmeets
  cases hmeets
  exact length_common a b

end FormatList

namespace LayoutSet

/-- Each entry of the first list is used for one entry of the result at most. -/
theorem length_from_first_le (a b : List ChannelLayout) :
    (pair a b).paired.length + (admitted (pair a b).first b).length + (sharedCounts a b).length ≤
      a.length := by
  have hpaired : (pair a b).paired.countP (·.isKnown) = (pair a b).paired.length :=
    List.countP_eq_length.mpr fun l hl => ((mem_paired a b l).mp hl).1
  have hknown : a.countP (·.isKnown) =
      (pair a b).paired.length + (pair a b).first.countP (·.isKnown) := by
    rw [← (paired_append_first_perm a b).countP_eq, List.countP_append, hpaired]
  have hadmitted : (admitted (pair a b).first b).length ≤ (pair a b).first.countP (·.isKnown) := by
    rw [admitted, ← List.countP_eq_length_filter]
    exact List.countP_mono_left fun l _ hl => (Bool.and_eq_true_iff.mp hl).1
  have hshared : (sharedCounts a b).length ≤ a.countP fun l => !l.isKnown := by
    rw [sharedCounts, ← List.countP_eq_length_filter]
    exact List.countP_mono_left fun l _ hl => (Bool.and_eq_true_iff.mp hl).1
  have hsplit : a.length = a.countP (·.isKnown) + a.countP fun l => !l.isKnown := by
    simpa using List.length_eq_countP_add_countP (·.isKnown) (l := a)
  omega

theorem length_paired_add_length_second (a b : List ChannelLayout) :
    (pair a b).paired.length + (pair a b).second.length = b.length := by
  rw [← List.length_append, (paired_append_second_perm a b).length_eq]

/-- A layout that found a partner takes the place of two entries. -/
theorem length_meet_add_length_paired_le (a b : List ChannelLayout) :
    (meet a b).length + (pair a b).paired.length ≤ a.length + b.length := by
  have hfirst := length_from_first_le a b
  have hsecond := length_paired_add_length_second a b
  have hadmitted : (admitted (pair a b).second a).length ≤ (pair a b).second.length :=
    List.length_filter_le _ _
  simp only [meet, List.length_append]
  omega

/-- With a bare count on both sides a result can be longer than either list. -/
example : meet [.stereo, .count 2] [.known 0x600, .count 2] =
    [.stereo, .known 0x600, .count 2] := by decide

theorem known_of_replace {side : Side} {entries : List ChannelLayout} {out : LayoutSet}
    (h : intersectKnown side entries = .replace out) :
    ∃ known, out = .listed known ∧ known.length = entries.countP (·.isKnown) := by
  unfold intersectKnown at h
  split_ifs at h
  exact ⟨_, (Intersection.replace.inj h).symm, List.countP_eq_length_filter.symm⟩

end LayoutSet

/-! ## Free cells -/

namespace Registry

variable {σ : Type} {r r' : Registry σ} {room : Nat}

theorem FreeCellsExact.perm_empty (h : r.FreeCellsExact) : r.freeCells.Perm
    ((List.range r.cells.size).filter fun i => (r.cells[i]?).any (·.occupant.isNone)) := by
  rw [List.perm_ext_iff_of_nodup h.nodup (List.nodup_range.filter _)]
  intro index
  rw [h.mem_iff, List.mem_filter, List.mem_range]
  constructor
  · rintro ⟨generation, hcell⟩
    exact ⟨(Array.getElem?_eq_some_iff.mp hcell).choose, by simp [hcell]⟩
  · rintro ⟨hlt, hempty⟩
    rw [Array.getElem?_eq_getElem hlt] at hempty ⊢
    generalize r.cells[index] = cell at hempty
    obtain ⟨generation, occupant⟩ := cell
    obtain rfl : occupant = none := by simpa using hempty
    exact ⟨generation, rfl⟩

/-- Each cell is on the free list, or it holds a set. -/
theorem FreeCellsExact.length_add_liveSets (h : r.FreeCellsExact) :
    r.freeCells.length + r.liveSets = r.cells.size := by
  have hempty : r.freeCells.length = r.cells.toList.countP (·.occupant.isNone) := by
    rw [h.perm_empty.length_eq, ← List.countP_eq_length_filter,
      countP_eq_countP_range r.cells.toList]
    simp only [Array.length_toList, Array.getElem?_toList]
  have hsplit := List.length_eq_countP_add_countP (·.occupant.isSome) (l := r.cells.toList)
  simp only [decide_not, Bool.decide_eq_true, Option.not_isSome, Array.length_toList] at hsplit
  rw [liveSets, ← Array.countP_toList]
  omega

/-- A cell is made when a set is stored while no cell is free, and at no other time. -/
theorem CellChange.size_le {id? : Option SetId} (h : CellChange r r' id?)
    (hfree : r.FreeCellsExact) :
    r'.cells.size ≤
      if id?.isSome ∧ r.freeCells = [] then r.cells.size + 1 else r.cells.size := by
  have hend : r.cellState? r.cells.size = none := cellState?_eq_none_iff.mpr (Nat.le_refl _)
  cases h with
  | keep hcells =>
    rw [if_neg (by simp), ← cellState?_eq_none_iff, hcells, hend]
  | retire id hlive hcells =>
    have hne : r.cells.size ≠ id.index := by
      intro heq
      rw [heq, isLive_iff_cellState?.mp hlive] at hend
      simp at hend
    rw [if_neg (by simp), ← cellState?_eq_none_iff, hcells, if_neg hne, hend]
  | occupy hcells =>
    cases hcase : r.freeCells with
    | nil =>
      have hnew : r.nextId.index = r.cells.size := by simp [nextId, hcase]
      rw [if_pos ⟨rfl, rfl⟩, ← cellState?_eq_none_iff, hcells, hnew, if_neg (Nat.succ_ne_self _)]
      exact cellState?_eq_none_iff.mpr (Nat.le_succ _)
    | cons first rest =>
      have hne : r.cells.size ≠ r.nextId.index := by
        obtain ⟨generation, hcell⟩ := (hfree.mem_iff first).mp (by simp [hcase])
        have hlt : first < r.cells.size := (Array.getElem?_eq_some_iff.mp hcell).choose
        simpa [nextId, hcase] using Nat.ne_of_gt hlt
      rw [if_neg (by simp), ← cellState?_eq_none_iff, hcells, if_neg hne, hend]

/-- When a set is freed there is a cell for its index beside those that are free already. -/
theorem FreeCellsExact.length_free_le (h : r.FreeCellsExact) (id : SetId) :
    (r.free id).freeCells.length ≤ r.cells.size := by
  have hsize := r.size_cells_free id
  have hcount := (h.free id).length_add_liveSets
  omega

section Runs

variable [Mergeable σ]

/-- The room for free cells after a command. When a cell is about to be made, room is reserved for
its index and for those of all other cells. -/
def roomAfter (r : Registry σ) (room : Nat) (c : Command σ) : Nat :=
  if (r.attached? c).isSome ∧ r.freeCells = [] then
    max room (r.freeCells.length + (r.cells.size + 1))
  else room

/-- The room for free cells after a run, if there was so much before it. -/
def roomAlong (r : Registry σ) (room : Nat) : List (Command σ) → Nat
  | [] => room
  | c :: cs => (r.after c).roomAlong (r.roomAfter room c) cs

theorem size_after_le_room (h : r.WellFormed) (hroom : r.cells.size ≤ room) (c : Command σ) :
    (r.after c).cells.size ≤ r.roomAfter room c := by
  have hsize := (after_cellChange h c).size_le h.freeCells
  unfold roomAfter
  split_ifs at hsize ⊢ <;> omega

theorem size_run_le_room (h : r.WellFormed) (hroom : r.cells.size ≤ room) (cs : List (Command σ)) :
    (r.run cs).cells.size ≤ r.roomAlong room cs := by
  induction cs generalizing r room with
  | nil => exact hroom
  | cons c cs ih => exact ih (after_wellFormed h c) (size_after_le_room h hroom c)

end Runs

/-- What is built for an intersection fits the room that is reserved for it: for two lists of
layouts as much as both have together, for values and for known layouts exactly what was counted. In
a registry the free cells are never more than the cells that were ever made, and there is room for
all of these, so that the index of a set fits when it is freed. -/
theorem reserved_room_suffices :
    (∀ a b : List ChannelLayout, (LayoutSet.meet a b).length ≤ a.length + b.length) ∧
    (∀ a b : FormatList, FormatList.commonCount a b ≤ a.length ∧
      ∀ out, FormatList.intersect a b = .replace out → out.length = FormatList.commonCount a b) ∧
    (∀ (entries : List ChannelLayout) (out : LayoutSet),
      LayoutSet.intersect .allLayouts (.listed entries) = .replace out ∨
        LayoutSet.intersect (.listed entries) .allLayouts = .replace out →
      ∃ known, out = .listed known ∧ known.length = entries.countP (·.isKnown)) ∧
    ∀ (σ : Type) [Mergeable σ] (cs : List (Command σ)),
      let r := (empty : Registry σ).run cs
      let room := (empty : Registry σ).roomAlong 0 cs
      r.freeCells.length ≤ r.cells.size ∧ r.cells.size ≤ room ∧
        ∀ id, (r.free id).freeCells.length ≤ room := by
  refine ⟨fun a b => ?_, fun a b => ?_, fun entries out h => ?_, fun σ _ cs => ?_⟩
  · have hlength := LayoutSet.length_meet_add_length_paired_le a b
    omega
  · exact ⟨FormatList.commonCount_le_length a b, fun out => FormatList.length_of_replace⟩
  · exact h.elim LayoutSet.known_of_replace LayoutSet.known_of_replace
  · intro r room
    have hfree : r.FreeCellsExact := (run_wellFormed cs).freeCells
    have hcount := hfree.length_add_liveSets
    have hroom : r.cells.size ≤ room := size_run_le_room empty_wellFormed (Nat.le_refl 0) cs
    exact ⟨by omega, hroom, fun id => Nat.le_trans (hfree.length_free_le id) hroom⟩

end Registry

end FormatNegotiation
