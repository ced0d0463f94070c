import FormatNegotiation.Proofs.Registry.Narrow

/-! The generations of cells. A cell goes on to its next generation when its set is freed. So a
handle names one set only, and nothing any more once that set is gone, unless a counter starts over
or more cells are made than a handle can tell apart. -/
namespace FormatNegotiation.Registry

variable {σ : Type} {r r' : Registry σ} {id : SetId} {index generation : Nat} {full : Bool}

/-! ## Counters that start over -/

/-- A cell in the last generation of all is emptied, and is in the first one again. -/
def Wraps (r r' : Registry σ) : Prop :=
  ∃ index, r.cellState? index = some (UInt32.size - 1, true) ∧
    r'.cellState? index = some (0, false)

/-- Every generation can be counted in 32 bits. -/
def GenerationsFit (r : Registry σ) : Prop :=
  ∀ index generation full, r.cellState? index = some (generation, full) → generation < UInt32.size

theorem nextGeneration_of_lt (h : generation + 1 < UInt32.size) :
    nextGeneration generation = generation + 1 := Nat.mod_eq_of_lt h

namespace CellChange

variable {id? : Option SetId}

theorem generationsFit (h : CellChange r r' id?) (hr : r.FreeCellsExact)
    (hfit : r.GenerationsFit) : r'.GenerationsFit := by
  intro index generation full hstate
  cases h with
  | keep h => exact hfit index generation full (h index ▸ hstate)
  | retire id hlive h =>
    rw [h] at hstate
    split at hstate
    · cases hstate
      exact Nat.mod_lt _ (by decide)
    · exact hfit index generation full hstate
  | occupy h =>
    rw [h] at hstate
    split at hstate
    · cases hstate
      rcases cellState?_nextId hr with ⟨-, hzero⟩ | hempty
      · rw [hzero]
        decide
      · exact hfit _ _ _ hempty
    · exact hfit index generation full hstate

/-- A cell stays in its generation and full, if it was, or it goes on to a later generation. -/
theorem later (h : CellChange r r' id?) (hr : r.FreeCellsExact) (hfit : r.GenerationsFit)
    (hwraps : ¬ Wraps r r') (hstate : r.cellState? index = some (generation, full)) :
    ∃ generation' full', r'.cellState? index = some (generation', full') ∧
      (generation < generation' ∨ generation' = generation ∧ (full → full')) := by
  have hsame : r'.cellState? index = r.cellState? index →
      ∃ generation' full', r'.cellState? index = some (generation', full') ∧
        (generation < generation' ∨ generation' = generation ∧ (full → full')) := fun heq =>
    ⟨generation, full, heq.trans hstate, .inr ⟨rfl, fun hfull => hfull⟩⟩
  cases h with
  | keep h => exact hsame (h index)
  | retire id hlive h =>
    by_cases hindex : index = id.index
    swap
    · exact hsame ((h index).trans (if_neg hindex))
    subst hindex
    have hfull := isLive_iff_cellState?.mp hlive
    have hnext := (h id.index).trans (if_pos rfl)
    cases hstate.symm.trans hfull
    have hlt := hfit _ _ _ hfull
    have hlast : id.generation ≠ UInt32.size - 1 := by
      intro hlast
      have hzero : nextGeneration id.generation = 0 := by rw [hlast]; rfl
      exact hwraps ⟨id.index, hlast ▸ hfull, hzero ▸ hnext⟩
    rw [nextGeneration_of_lt (by omega)] at hnext
    exact ⟨_, false, hnext, .inl (Nat.lt_succ_self _)⟩
  | occupy h =>
    by_cases hindex : index = r.nextId.index
    swap
    · exact hsame ((h index).trans (if_neg hindex))
    subst hindex
    have hnext := (h r.nextId.index).trans (if_pos rfl)
    rcases cellState?_nextId hr with ⟨hnone, -⟩ | hempty
    · cases hstate.symm.trans hnone
    · cases hstate.symm.trans hempty
      exact ⟨_, true, hnext, .inr ⟨rfl, fun _ => rfl⟩⟩

/-- One command takes a cell at most one generation further. -/
theorem generation_le (h : CellChange r r' id?) (hr : r.FreeCellsExact) {n : Nat}
    (hn : ∀ index generation full, r.cellState? index = some (generation, full) → generation ≤ n)
    (index generation : Nat) (full : Bool)
    (hstate : r'.cellState? index = some (generation, full)) : generation ≤ n + 1 := by
  have hsame : r'.cellState? index = r.cellState? index → generation ≤ n + 1 := fun heq =>
    Nat.le_succ_of_le (hn index generation full (heq ▸ hstate))
  cases h with
  | keep h => exact hsame (h index)
  | retire id hlive h =>
    by_cases hindex : index = id.index
    swap
    · exact hsame ((h index).trans (if_neg hindex))
    have hle := hn _ _ _ (isLive_iff_cellState?.mp hlive)
    rw [h, if_pos hindex] at hstate
    cases hstate
    exact Nat.le_trans (Nat.mod_le _ _) (Nat.succ_le_succ hle)
  | occupy h =>
    by_cases hindex : index = r.nextId.index
    swap
    · exact hsame ((h index).trans (if_neg hindex))
    rw [h, if_pos hindex] at hstate
    cases hstate
    rcases cellState?_nextId hr with ⟨-, hzero⟩ | hempty
    · rw [hzero]
      exact Nat.zero_le _
    · exact Nat.le_succ_of_le (hn _ _ _ hempty)

end CellChange

/-! ## Handles of the past -/

/-- The handle is of an earlier generation than its cell. -/
def Expired (r : Registry σ) (id : SetId) : Prop :=
  ∃ generation full, r.cellState? id.index = some (generation, full) ∧
    id.generation < generation

theorem Expired.not_isLive (h : r.Expired id) : ¬ r.isLive id := by
  obtain ⟨generation, full, hstate, hlt⟩ := h
  rw [isLive_iff_cellState?, hstate]
  intro heq
  cases heq
  exact Nat.lt_irrefl _ hlt

/-- The next handle has not been handed out before. -/
theorem nextId_fresh (h : r.FreeCellsExact) : ¬ r.isLive r.nextId ∧ ¬ r.Expired r.nextId := by
  unfold Expired
  rw [isLive_iff_cellState?]
  rcases cellState?_nextId h with ⟨hnone, -⟩ | hempty
  · simp [hnone]
  · simp [hempty]

/-- These handles have been handed out, each once, and those that are not live are expired. -/
structure Issued (r : Registry σ) (ids : List SetId) : Prop where
  wellFormed : r.WellFormed
  generationsFit : r.GenerationsFit
  nodup : ids.Nodup
  isLive_or_expired (id : SetId) : id ∈ ids → r.isLive id ∨ r.Expired id

theorem empty_issued : (empty : Registry σ).Issued [] where
  wellFormed := empty_wellFormed
  generationsFit := by simp [GenerationsFit, cellState?, empty]
  nodup := List.nodup_nil
  isLive_or_expired := by simp

namespace CellChange

variable {id? : Option SetId}

theorem expired (h : CellChange r r' id?) (hr : r.FreeCellsExact) (hfit : r.GenerationsFit)
    (hwraps : ¬ Wraps r r') (hid : r.Expired id) : r'.Expired id := by
  obtain ⟨generation, full, hstate, hlt⟩ := hid
  obtain ⟨generation', full', hstate', hlater⟩ := h.later hr hfit hwraps hstate
  exact ⟨generation', full', hstate', by omega⟩

/-- A set that is freed leaves an expired handle. -/
theorem isLive_or_expired (h : CellChange r r' id?) (hr : r.FreeCellsExact)
    (hfit : r.GenerationsFit) (hwraps : ¬ Wraps r r') (hid : r.isLive id) :
    r'.isLive id ∨ r'.Expired id := by
  have hstate := isLive_iff_cellState?.mp hid
  obtain ⟨generation', full', hstate', hlater | ⟨rfl, hfull⟩⟩ := h.later hr hfit hwraps hstate
  · exact .inr ⟨generation', full', hstate', hlater⟩
  · rw [hfull rfl] at hstate'
    exact .inl (isLive_iff_cellState?.mpr hstate')

theorem issued (h : CellChange r r' id?) {ids : List SetId} (hids : r.Issued ids)
    (hr' : r'.WellFormed) (hwraps : ¬ Wraps r r') : r'.Issued (ids ++ id?.toList) := by
  have hr := hids.wellFormed.freeCells
  have hold : ∀ id ∈ ids, r'.isLive id ∨ r'.Expired id := by
    intro id hid
    rcases hids.isLive_or_expired id hid with hlive | hexpired
    · exact h.isLive_or_expired hr hids.generationsFit hwraps hlive
    · exact .inr (h.expired hr hids.generationsFit hwraps hexpired)
  have hfit := h.generationsFit hr hids.generationsFit
  cases id? with
  | none => exact ⟨hr', hfit, by simpa using hids.nodup, by simpa using hold⟩
  | some new =>
    obtain ⟨rfl, hnew⟩ : new = r.nextId ∧ r'.isLive r.nextId := by
      cases h with
      | occupy h => exact ⟨rfl, isLive_iff_cellState?.mpr ((h _).trans (if_pos rfl))⟩
    have hfresh : r.nextId ∉ ids := fun hmem =>
      (hids.isLive_or_expired _ hmem).elim (nextId_fresh hr).1 (nextId_fresh hr).2
    refine ⟨hr', hfit, ?_, ?_⟩
    · rw [Option.toList_some, List.nodup_append_comm, List.singleton_append, List.nodup_cons]
      exact ⟨hfresh, hids.nodup⟩
    · intro id hid
      rw [Option.toList_some, List.mem_append, List.mem_singleton] at hid
      rcases hid with hid | rfl
      · exact hold id hid
      · exact .inl hnew

end CellChange

/-! ## Runs -/

section Run

variable [Mergeable σ] {cs cs' : List (Command σ)}

/-- No counter starts over in the course of a run. -/
def NeverWraps (r : Registry σ) : List (Command σ) → Prop
  | [] => True
  | c :: cs => ¬ Wraps r (r.afterNarrow c) ∧ (r.afterNarrow c).NeverWraps cs

theorem neverWraps_append :
    r.NeverWraps (cs ++ cs') ↔ r.NeverWraps cs ∧ (r.runNarrow cs).NeverWraps cs' := by
  induction cs generalizing r with
  | nil => simp [NeverWraps, runNarrow]
  | cons c cs ih =>
    rw [List.cons_append, NeverWraps, NeverWraps, ih, and_assoc]
    rfl

theorem runNarrow_append : r.runNarrow (cs ++ cs') = (r.runNarrow cs).runNarrow cs' :=
  List.foldl_append

/-- It takes as many commands as there are generations for a counter to start over. -/
theorem neverWraps_of_length {n : Nat} (h : r.WellFormed)
    (hbound : (r.runNarrow cs).cells.size ≤ UInt32.size)
    (hn : ∀ index generation full, r.cellState? index = some (generation, full) → generation ≤ n)
    (hlength : n + cs.length < UInt32.size) : r.NeverWraps cs := by
  induction cs generalizing r n with
  | nil => trivial
  | cons c cs ih =>
    rw [List.length_cons] at hlength
    have hfirst := Nat.le_trans ((r.afterNarrow c).size_cells_le_runNarrow cs) hbound
    have hafter := afterNarrow_eq h.freeCells hfirst
    have hchange := after_cellChange h c
    have hrest := after_wellFormed h c
    rw [← hafter] at hchange hrest
    refine ⟨?_, ih hrest hbound (hchange.generation_le h.freeCells hn) (by omega)⟩
    rintro ⟨index, hlast, -⟩
    have hle := hn index _ _ hlast
    omega

/-- The handle that a command hands out, if it stores a set. -/
def attachedNarrow? (r : Registry σ) (c : Command σ) : Option SetId :=
  match execNarrow c r with
  | .ok (.attached id?) _ => id?
  | _ => none

/-- The handles that a run hands out, the first one in front. -/
def issued (r : Registry σ) : List (Command σ) → List SetId
  | [] => []
  | c :: cs => (r.attachedNarrow? c).toList ++ (r.afterNarrow c).issued cs

theorem Issued.after {ids : List SetId} (h : r.Issued ids) {c : Command σ}
    (hbound : (r.afterNarrow c).cells.size ≤ UInt32.size) (hwraps : ¬ Wraps r (r.afterNarrow c)) :
    (r.afterNarrow c).Issued (ids ++ (r.attachedNarrow? c).toList) := by
  have hexec := execNarrow_eq h.wellFormed.freeCells hbound
  have hattached : r.attachedNarrow? c = r.attached? c := by
    unfold attachedNarrow? attached?
    rcases hres : exec c r with ⟨reply, r'⟩ | ⟨e, r'⟩
    · cases reply <;> simp only [hexec, hres]
    · simp only [hexec, hres]
  have hafter := afterNarrow_eq h.wellFormed.freeCells hbound
  rw [hafter] at hwraps
  rw [hafter, hattached]
  exact (after_cellChange h.wellFormed c).issued h (after_wellFormed h.wellFormed c) hwraps

theorem Issued.run {ids : List SetId} (h : r.Issued ids)
    (hbound : (r.runNarrow cs).cells.size ≤ UInt32.size) (hwraps : r.NeverWraps cs) :
    (r.runNarrow cs).Issued (ids ++ r.issued cs) := by
  induction cs generalizing r ids with
  | nil => rwa [issued, List.append_nil]
  | cons c cs ih =>
    have hfirst := Nat.le_trans ((r.afterNarrow c).size_cells_le_runNarrow cs) hbound
    rw [issued, ← List.append_assoc]
    exact ih (h.after hfirst hwraps.1) hbound hwraps.2

theorem Issued.expired_run {ids : List SetId} (h : r.Issued ids)
    (hbound : (r.runNarrow cs).cells.size ≤ UInt32.size) (hwraps : r.NeverWraps cs)
    (hid : r.Expired id) : (r.runNarrow cs).Expired id := by
  induction cs generalizing r ids with
  | nil => exact hid
  | cons c cs ih =>
    have hfirst := Nat.le_trans ((r.afterNarrow c).size_cells_le_runNarrow cs) hbound
    have hchange := after_cellChange h.wellFormed c
    rw [← afterNarrow_eq h.wellFormed.freeCells hfirst] at hchange
    have hid' := hchange.expired h.wellFormed.freeCells h.generationsFit hwraps.1 hid
    exact ih (h.after hfirst hwraps.1) hbound hwraps.2 hid'

/-- The handle names nothing. No slot points at it, and an operation that takes it fails and changes
nothing. -/
structure Unknown (r : Registry σ) (id : SetId) : Prop where
  not_isLive : ¬ r.isLive id
  held?_ne (slot : SlotId) : r.held? slot ≠ some id
  contents?_eq_none : r.contents? id = none
  refcount_eq_zero : r.refcount id = 0
  merge_fails (rule : Mergeable.Rule σ) (other : SetId) :
    merge rule id other r = .error .unknownSet r ∧ merge rule other id r = .error .unknownSet r
  retargetAll_fails (other : SetId) :
    retargetAll id other r = .error .unknownSet r ∧ retargetAll other id r = .error .unknownSet r
  addReference_fails (slot : SlotId) : ∃ e, addReference id slot r = .error e r

theorem Linked.unknown (h : r.Linked) (hid : ¬ r.isLive id) : r.Unknown id where
  not_isLive := hid
  held?_ne slot hheld := hid ((h.held_iff_isLive id slot).mp hheld).1
  contents?_eq_none := by
    rw [isLive, Option.not_isSome_iff_eq_none] at hid
    simp [contents?, hid]
  refcount_eq_zero := by
    rw [h.isLive_iff_refcount_pos] at hid
    omega
  merge_fails rule other := by
    rw [isLive, Option.not_isSome_iff_eq_none] at hid
    exact ⟨merge_of_dead (.inl hid), merge_of_dead (.inr hid)⟩
  retargetAll_fails other := by
    rw [isLive, Option.not_isSome_iff_eq_none] at hid
    constructor
    · rcases retargetAll_cases id other r with ⟨heq, -⟩ | ⟨_, _, -, hfind, -⟩
      · exact heq
      · simp [hid] at hfind
    · rcases retargetAll_cases other id r with ⟨heq, -⟩ | ⟨_, _, -, -, hfind, -⟩
      · exact heq
      · simp [hid] at hfind
  addReference_fails slot := by
    rcases addReference_cases id slot r with heq | ⟨entry, -, hfind, -⟩
    · exact heq
    · exact absurd (isLive_iff.mpr ⟨entry, hfind⟩) hid

/-- In a run that makes up to 2^32 cells and in which no counter starts over, every new set gets a
handle of its own. Once a handle is no longer live it names nothing for the rest of the run. -/
theorem run_handles_never_revive (cs cs' : List (Command σ))
    (hbound : (runNarrow empty (cs ++ cs')).cells.size ≤ UInt32.size)
    (hwraps : NeverWraps empty (cs ++ cs')) :
    (issued empty (cs ++ cs')).Nodup ∧
    ∀ id ∈ issued empty cs, ¬ (runNarrow empty cs).isLive id →
      (runNarrow empty (cs ++ cs')).Unknown id := by
  have hall : (runNarrow empty (cs ++ cs')).Issued (issued empty (cs ++ cs')) :=
    empty_issued.run hbound hwraps
  refine ⟨hall.nodup, fun id hid hdead => hall.wellFormed.linked.unknown ?_⟩
  obtain ⟨hfirst, hrest⟩ := neverWraps_append.mp hwraps
  rw [runNarrow_append] at hbound ⊢
  have hpast : (runNarrow empty cs).Issued (issued empty cs) :=
    empty_issued.run (Nat.le_trans (size_cells_le_runNarrow _ cs') hbound) hfirst
  have hexpired := (hpast.isLive_or_expired id hid).resolve_left hdead
  exact (hpast.expired_run hbound hrest hexpired).not_isLive

end Run

/-- The first set is freed and its cell used again. The new set there is then merged into a third
one. -/
theorem run_handles_never_revive_reused_cell :
    let cs : List (Command FormatList) :=
      [.newSlot, .newSlot, .attach [0, 1] [0], .removeReference 0]
    let cs' : List (Command FormatList) :=
      [.attach [1, 2] [0], .attach [2] [1], .merge ValueRule.rates ⟨0, 1⟩ ⟨1, 0⟩,
        .addReference ⟨0, 0⟩ 1]
    (runNarrow empty (cs ++ cs')).cells.size ≤ UInt32.size ∧ NeverWraps empty (cs ++ cs') ∧
      (issued empty (cs ++ cs')).Nodup ∧ ⟨0, 0⟩ ∈ issued empty cs ∧
      (runNarrow empty (cs ++ cs')).Unknown ⟨0, 0⟩ := by
  intro cs cs'
  have hbound : (runNarrow empty (cs ++ cs')).cells.size ≤ UInt32.size := by decide
  have hwraps : NeverWraps empty (cs ++ cs') :=
    neverWraps_of_length (n := 0) empty_wellFormed hbound (by simp [cellState?, empty]) (by decide)
  have hissued : ⟨0, 0⟩ ∈ issued empty cs := by decide
  obtain ⟨hnodup, hunknown⟩ := run_handles_never_revive cs cs' hbound hwraps
  exact ⟨hbound, hwraps, hnodup, hissued, hunknown _ hissued (by decide)⟩

end FormatNegotiation.Registry
