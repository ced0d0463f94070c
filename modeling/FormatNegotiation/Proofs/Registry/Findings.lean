import FormatNegotiation.Proofs.Merge.Findings
import FormatNegotiation.Proofs.Registry.Cells
import FormatNegotiation.Proofs.Registry.Outcome

/-! What a command checks on its way always holds, whatever slots and sets it names. -/
namespace FormatNegotiation.Registry

variable {σ : Type} {r : Registry σ}

/-! ## Checks of single operations -/

theorem Linked.setFindings_hold (h : r.Linked) (id : SetId) : AllHold (r.setFindings id) := by
  have hrefs : (r.refs id).Nodup ∧ ∀ slot ∈ r.refs id, r.held? slot = some id := by
    cases hfind : r.find? id with
    | none => simp [refs_of_find?_none hfind]
    | some entry =>
      rw [refs_of_find? hfind]
      exact ⟨h.nodup_refs hfind, fun slot hs => h.held_of_mem hfind hs⟩
  have hback : (r.refs id).all (fun slot => r.held? slot = some id) = true := by
    simpa using hrefs.2
  exact .cons (decide_eq_true hrefs.1) (.single hback)

theorem attachFindings_hold (h : r.WellFormed) (contents : σ) (slots : List SlotId) :
    AllHold (r.attachFindings contents slots) := by
  unfold attachFindings
  rcases attach_cases contents slots r with ⟨e, heq⟩ | ⟨-, heq⟩ | ⟨hne, hnd, hvacant, heq⟩
  all_goals rw [heq]
  · exact .nil
  · exact .nil
  · have hlinked : ((r.store ⟨contents, slots⟩).pointAll slots r.nextId).Linked :=
      (attach_wellFormed h hne hnd hvacant).linked
    have hfind : ((r.store ⟨contents, slots⟩).pointAll slots r.nextId).find? r.nextId =
        some ⟨contents, slots⟩ := by
      rw [find?_pointAll, find?_store h.freeCells, if_pos rfl]
    have hall : slots.all (fun slot =>
        ((r.store ⟨contents, slots⟩).pointAll slots r.nextId).held? slot = some r.nextId) =
          true := by
      simpa using fun slot (hs : slot ∈ slots) => hlinked.held_of_mem hfind hs
    exact .cons hall (hlinked.setFindings_hold _)

theorem addReferenceFindings_hold (h : r.WellFormed) (id : SetId) (slot : SlotId) :
    AllHold (r.addReferenceFindings id slot) := by
  unfold addReferenceFindings
  rcases addReference_cases id slot r with ⟨e, heq⟩ | ⟨entry, hvacant, hfind, heq⟩
  all_goals rw [heq]
  · exact .nil
  · exact (addReference_wellFormed h hvacant hfind).linked.setFindings_hold id

theorem removeReferenceFindings_hold (h : r.WellFormed) (slot : SlotId) :
    AllHold (r.removeReferenceFindings slot) := by
  unfold removeReferenceFindings
  cases hheld : r.held? slot with
  | none => exact .nil
  | some id =>
    obtain ⟨entry, hfind, -⟩ := h.linked.mem_of_held hheld
    simp only [hfind]
    split
    · rename_i hlast
      have hgone : (r.removeReference slot).find? id = none := by
        rw [find?_removeReference hheld hfind, if_pos rfl, withoutRef,
          if_pos (List.isEmpty_iff.mp hlast)]
      exact .single (by simp [isLive, hgone])
    · exact (removeReference_wellFormed h slot).linked.setFindings_hold id

theorem releaseSlotsFindings_hold (h : r.WellFormed) (slots : List SlotId) :
    AllHold (r.releaseSlotsFindings slots) := by
  induction slots generalizing r with
  | nil => exact .nil
  | cons slot rest ih =>
    have hfirst := removeReferenceFindings_hold h slot
    exact hfirst.append (ih (releaseSlot_wellFormed h slot))

theorem changeReferenceFindings_hold (h : r.WellFormed) (old new : SlotId) :
    AllHold (r.changeReferenceFindings old new) := by
  unfold changeReferenceFindings
  rcases changeReference_cases old new r with
    ⟨e, heq⟩ | ⟨hnothing, heq⟩ | ⟨id, entry, hheld, hne, hvacant, hfind, heq⟩
  all_goals rw [heq]
  · cases r.held? old <;> exact .nil
  · rcases hnothing with hnone | hsame
    · rw [hnone]
      exact .nil
    · cases r.held? old with
      | none => exact .nil
      | some id => simpa only [hsame, if_true] using AllHold.nil
  · have hlinked := (changeReference_wellFormed h hheld hne hvacant hfind).linked
    simpa only [hheld, hne, if_false] using hlinked.setFindings_hold id

theorem retargetAllFindings_hold (h : r.WellFormed) (src dst : SetId) :
    AllHold (r.retargetAllFindings src dst) := by
  unfold retargetAllFindings
  rcases retargetAll_cases src dst r with ⟨heq, -⟩ | ⟨moving, entry, hne, hsrc, hdst, heq⟩
  all_goals rw [heq]
  · exact .nil
  · have hmoved : ∀ slot ∈ r.refs src, (r.drain src dst).held? slot = some dst := by
      intro slot hs
      rw [refs_of_find? hsrc] at hs
      rw [held?_drain h.linked, if_pos (h.linked.held_of_mem hsrc hs)]
    have hall : (r.refs src).all (fun slot => (r.drain src dst).held? slot = some dst) = true := by
      simpa using hmoved
    exact .cons hall ((drain_wellFormed h hne hsrc hdst).linked.setFindings_hold dst)

/-! ## Checks of a merge -/

variable [Mergeable σ] {rule : Mergeable.Rule σ} {a b survivor loser : SetId} {contents? : Option σ}

theorem planMerge_eq_join (h : r.planMerge rule a b = .ok (.join survivor loser contents?)) :
    a ≠ b ∧ (survivor = a ∧ loser = b ∨ survivor = b ∧ loser = a) ∧ r.isLive a ∧ r.isLive b := by
  unfold planMerge at h
  cases hx : r.find? a with
  | none => simp [hx] at h
  | some x =>
    cases hy : r.find? b with
    | none => simp [hx, hy] at h
    | some y =>
      simp only [hx, hy] at h
      have hlive : r.isLive a ∧ r.isLive b := by simp [isLive, hx, hy]
      split at h
      · cases h
      · split at h
        · cases h
        · rename_i hne
          refine ⟨hne, ?_, hlive⟩
          split at h
          · cases h
          · cases h
            exact .inl ⟨rfl, rfl⟩
          · cases h
            exact .inr ⟨rfl, rfl⟩
          · split at h
            · cases h
              exact .inl ⟨rfl, rfl⟩
            · cases h
              exact .inr ⟨rfl, rfl⟩

/-- A planned join is carried out. -/
theorem absorbs_of_planMerge (h : r.WellFormed)
    (hplan : r.planMerge rule a b = .ok (.join survivor loser contents?)) :
    survivor ≠ loser ∧ r.isLive survivor ∧ r.isLive loser ∧
      ∃ r' contents, merge rule a b r = .ok .merged r' ∧
        r.Absorbs r' survivor loser contents := by
  obtain ⟨hne, hside, ha, hb⟩ := planMerge_eq_join hplan
  have hlive : survivor ≠ loser ∧ r.isLive survivor ∧ r.isLive loser := by
    rcases hside with ⟨rfl, rfl⟩ | ⟨rfl, rfl⟩
    · exact ⟨hne, ha, hb⟩
    · exact ⟨hne.symm, hb, ha⟩
  obtain ⟨hne', hs, hl⟩ := hlive
  obtain ⟨x, hx⟩ := isLive_iff.mp hs
  obtain ⟨y, hy⟩ := isLive_iff.mp hl
  obtain ⟨r', heq, habsorbs⟩ := exists_absorbs_of_join h hplan hne' hx hy
  exact ⟨hne', hs, hl, r', _, heq, habsorbs⟩

theorem mergeFindings_hold [VerifiedMergeable σ] (h : r.WellFormed) (rule : Mergeable.Rule σ)
    (a b : SetId) : AllHold (r.mergeFindings rule a b) := by
  have hinter : AllHold (r.intersectFindings rule a b) := by
    unfold intersectFindings
    split
    · exact VerifiedMergeable.intersectFindings_hold rule _ _
    · exact .nil
  unfold mergeFindings
  rcases hplan : r.planMerge rule a b with e | _ | _ | ⟨survivor, loser, contents?⟩
  · exact .nil
  · exact .nil
  · rw [merge_of_refuse hplan]
    exact hinter.append (.single (by simp))
  · obtain ⟨hne, hs, hl, r', contents, heq, habsorbs⟩ := absorbs_of_planMerge h hplan
    have htakes := habsorbs.takesOver h hne hs hl
    rw [heq]
    have hcount : r'.refcount survivor = r.refcount a + r.refcount b := by
      rw [htakes.refcount_survivor]
      rcases (planMerge_eq_join hplan).2.1 with ⟨rfl, rfl⟩ | ⟨rfl, rfl⟩
      · rfl
      · exact Nat.add_comm _ _
    exact (hinter.append (retargetAllFindings_hold h loser survivor)).append
      (.single (decide_eq_true hcount))

theorem findings_hold [VerifiedMergeable σ] (h : r.WellFormed) (c : Command σ) :
    AllHold (r.findings c) := by
  cases c with
  | newSlot => exact .nil
  | releaseSlot slot => exact removeReferenceFindings_hold h slot
  | attach contents slots => exact attachFindings_hold h contents slots
  | addReference id slot => exact addReferenceFindings_hold h id slot
  | removeReference slot => exact removeReferenceFindings_hold h slot
  | changeReference old new => exact changeReferenceFindings_hold h old new
  | retargetAll src dst => exact retargetAllFindings_hold h src dst
  | merge rule a b => exact mergeFindings_hold h rule a b

end FormatNegotiation.Registry
