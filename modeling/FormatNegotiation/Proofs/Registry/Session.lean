import FormatNegotiation.Proofs.Actions
import FormatNegotiation.Proofs.Registry.Merge
import FormatNegotiation.Proofs.Registry.Slots
import FormatNegotiation.Registry.Command
import Mathlib.Data.List.Dedup

/-! What holds of a registry after any run of commands, whatever slots and sets they name. -/
namespace FormatNegotiation.Registry

variable {σ : Type}

section Run

variable [Mergeable σ] {r : Registry σ}

theorem after_eq_stateAfter (r : Registry σ) (c : Command σ) :
    r.after c = stateAfter (exec c) r := by
  unfold after stateAfter
  cases exec c r <;> rfl

theorem merge_wellFormed (h : r.WellFormed) (rule : Mergeable.Rule σ) (a b : SetId) :
    (∃ e, merge rule a b r = .error e r) ∨
      ∃ outcome r', merge rule a b r = .ok outcome r' ∧ r'.WellFormed := by
  by_cases hdead : r.find? a = none ∨ r.find? b = none
  · exact .inl ⟨_, merge_of_dead hdead⟩
  rw [not_or] at hdead
  obtain ⟨x, hx⟩ := Option.ne_none_iff_exists'.mp hdead.1
  obtain ⟨y, hy⟩ := Option.ne_none_iff_exists'.mp hdead.2
  by_cases hne : a = b
  · subst hne
    exact .inr ⟨_, r, merge_self h.linked hx, h⟩
  · rcases merge_of_live h rule hne hx hy with ⟨-, heq⟩ | ⟨r', _, _, _, -, -, heq, ha⟩
    · exact .inr ⟨_, r, heq, h⟩
    · exact .inr ⟨_, r', heq, ha.wellFormed⟩

/-- Every command keeps the invariant, and one that fails changes nothing. -/
theorem after_wellFormed (h : r.WellFormed) (c : Command σ) : (r.after c).WellFormed := by
  cases c with
  | newSlot => exact newSlot_wellFormed h
  | releaseSlot slot => exact releaseSlot_wellFormed h slot
  | attach contents slots =>
    rcases attach_cases contents slots r with ⟨e, heq⟩ | ⟨-, heq⟩ | ⟨hne, hnd, hvacant, heq⟩
    all_goals simp only [after, exec, Functor.map, EStateM.map, heq]
    · exact h
    · exact h
    · exact attach_wellFormed h hne hnd hvacant
  | addReference id slot =>
    rcases addReference_cases id slot r with ⟨e, heq⟩ | ⟨entry, hvacant, hfind, heq⟩
    all_goals simp only [after, exec, Functor.map, EStateM.map, heq]
    · exact h
    · exact addReference_wellFormed h hvacant hfind
  | removeReference slot => exact removeReference_wellFormed h slot
  | changeReference old new =>
    rcases changeReference_cases old new r with
      ⟨e, heq⟩ | ⟨-, heq⟩ | ⟨id, entry, hheld, hne, hvacant, hfind, heq⟩
    all_goals simp only [after, exec, Functor.map, EStateM.map, heq]
    · exact h
    · exact h
    · exact changeReference_wellFormed h hheld hne hvacant hfind
  | retargetAll src dst =>
    rcases retargetAll_cases src dst r with ⟨heq, -⟩ | ⟨moving, entry, hne, hsrc, hdst, heq⟩
    all_goals simp only [after, exec, Functor.map, EStateM.map, heq]
    · exact h
    · exact drain_wellFormed h hne hsrc hdst
  | merge rule a b =>
    rcases merge_wellFormed h rule a b with ⟨e, heq⟩ | ⟨outcome, r', heq, hr⟩
    all_goals simp only [after, exec, Functor.map, EStateM.map, heq]
    · exact h
    · exact hr

theorem run_wellFormed_of (h : r.WellFormed) (cs : List (Command σ)) : (r.run cs).WellFormed := by
  induction cs generalizing r with
  | nil => exact h
  | cons c cs ih => exact ih (after_wellFormed h c)

theorem run_wellFormed (cs : List (Command σ)) : (run empty cs).WellFormed :=
  run_wellFormed_of empty_wellFormed cs

end Run

/-! ## Counting the live sets -/

/-- The sets that slots point at, each once. -/
def heldSets (r : Registry σ) : List SetId := ((List.range r.slotCount).filterMap r.held?).dedup

theorem mem_heldSets (r : Registry σ) (id : SetId) :
    id ∈ r.heldSets ↔ ∃ slot, r.held? slot = some id := by
  simp only [heldSets, List.mem_dedup, List.mem_filterMap, List.mem_range]
  exact ⟨fun ⟨slot, _, hs⟩ => ⟨slot, hs⟩, fun ⟨slot, hs⟩ => ⟨slot, lt_size_of_held? hs, hs⟩⟩

theorem countP_eq_countP_range {α : Type} (l : List α) (p : α → Bool) :
    l.countP p = (List.range l.length).countP fun i => (l[i]?).any p := by
  have hmap : l.map some = (List.range l.length).map fun i => l[i]? := by
    refine List.ext_getElem (by simp) fun i hi _ => ?_
    simp
  have hcount := congrArg (List.countP (Option.any p)) hmap
  rwa [List.countP_map, List.countP_map] at hcount

/-- A set is live as long as some slot points at it, so there are as many live sets as there are
different ones that slots point at. -/
theorem liveSets_eq_length_heldSets {r : Registry σ} (h : r.Linked) :
    r.liveSets = r.heldSets.length := by
  have hlive : ∀ id ∈ r.heldSets, ∃ entry, r.find? id = some entry := by
    intro id hid
    obtain ⟨slot, hs⟩ := (mem_heldSets r id).mp hid
    obtain ⟨entry, hf, -⟩ := h.mem_of_held hs
    exact ⟨entry, hf⟩
  have hinj : ∀ a ∈ r.heldSets, ∀ b ∈ r.heldSets, a.index = b.index → a = b := by
    intro a ha b hb hab
    obtain ⟨x, hx⟩ := hlive a ha
    obtain ⟨y, hy⟩ := hlive b hb
    exact eq_of_index_eq hx hy hab
  have hnd : (r.heldSets.map SetId.index).Nodup := (List.nodup_dedup _).map_on hinj
  -- The cells of the live sets are the occupied ones, each once.
  let occupied : Nat → Bool := fun i => (r.cells.toList[i]?).any (·.occupant.isSome)
  have hperm : (r.heldSets.map SetId.index).Perm
      ((List.range r.cells.toList.length).filter occupied) := by
    refine (List.perm_ext_iff_of_nodup hnd (List.nodup_range.filter _)).mpr fun i => ?_
    simp only [List.mem_map, List.mem_filter, List.mem_range, occupied, Array.getElem?_toList]
    constructor
    · rintro ⟨id, hid, rfl⟩
      obtain ⟨entry, hf⟩ := hlive id hid
      have hc := find?_eq_some.mp hf
      have hbound := (Array.getElem?_eq_some_iff.mp hc).1
      exact ⟨by simpa using hbound, by simp [hc]⟩
    · rintro ⟨-, hocc⟩
      cases hc : r.cells[i]? with
      | none => simp [hc] at hocc
      | some cell =>
        obtain ⟨generation, _ | entry⟩ := cell
        · simp [hc] at hocc
        · have hf : r.find? ⟨i, generation⟩ = some entry := find?_eq_some.mpr hc
          exact ⟨⟨i, generation⟩, (mem_heldSets r _).mpr (h.exists_held hf), rfl⟩
  calc
    r.liveSets = r.cells.toList.countP (·.occupant.isSome) := by
      rw [Array.countP_toList]; rfl
    _ = ((List.range r.cells.toList.length).filter occupied).length := by
      rw [countP_eq_countP_range, List.countP_eq_length_filter]
    _ = r.heldSets.length := by rw [← hperm.length_eq, List.length_map]

/-! ## The invariant in terms of lookups -/

theorem isLive_iff {r : Registry σ} {id : SetId} :
    r.isLive id ↔ ∃ entry, r.find? id = some entry := by
  rw [isLive, Option.isSome_iff_exists]

theorem Linked.held_iff_isLive {r : Registry σ} (h : r.Linked) (id : SetId) (slot : SlotId) :
    r.held? slot = some id ↔ r.isLive id ∧ slot ∈ r.refs id := by
  rw [h.held_iff, isLive_iff]
  constructor
  · rintro ⟨entry, hf, hs⟩
    exact ⟨⟨entry, hf⟩, refs_of_find? hf ▸ hs⟩
  · rintro ⟨⟨entry, hf⟩, hs⟩
    exact ⟨entry, hf, refs_of_find? hf ▸ hs⟩

theorem Linked.nodup_refs_of {r : Registry σ} (h : r.Linked) (id : SetId) : (r.refs id).Nodup := by
  cases hf : r.find? id with
  | none => simp [refs_of_find?_none hf]
  | some entry => exact refs_of_find? hf ▸ h.nodup_refs hf

theorem Linked.isLive_iff_refcount_pos {r : Registry σ} (h : r.Linked) (id : SetId) :
    r.isLive id ↔ 0 < r.refcount id := by
  rw [isLive_iff, refcount, List.length_pos_iff]
  constructor
  · rintro ⟨entry, hf⟩
    exact refs_of_find? hf ▸ h.refs_ne_nil hf
  · intro hne
    cases hf : r.find? id with
    | none => exact absurd (refs_of_find?_none hf) hne
    | some entry => exact ⟨entry, rfl⟩

end FormatNegotiation.Registry
