import FormatNegotiation.Proofs.Merge.Intersection
import FormatNegotiation.Proofs.Registry.References
import FormatNegotiation.Registry.Merge

/-! What draining one set into another does, and what a merge does beyond that. -/
namespace FormatNegotiation.Registry

variable {σ : Type} {r : Registry σ}

/-! ## Draining a set -/

/-- The registry in which one set has taken over the references of another, which is gone. -/
def drain (r : Registry σ) (src dst : SetId) : Registry σ :=
  ((r.free src).pointAll (r.refs src) dst).modifyEntry dst fun e =>
    { e with refs := e.refs ++ r.refs src }

theorem retargetAll_cases (src dst : SetId) (r : Registry σ) :
    (retargetAll src dst r = .error .unknownSet r ∧
      (src = dst ∨ r.find? src = none ∨ r.find? dst = none)) ∨
    ∃ moving entry, src ≠ dst ∧ r.find? src = some moving ∧ r.find? dst = some entry ∧
      retargetAll src dst r = .ok moving.contents (r.drain src dst) := by
  unfold retargetAll
  by_cases hne : src = dst
  · exact .inl ⟨by simp [hne], .inl hne⟩
  cases hs : r.find? src with
  | none => exact .inl ⟨by simp [hne], .inr (.inl rfl)⟩
  | some moving =>
    cases hd : r.find? dst with
    | none => exact .inl ⟨by simp [hne], .inr (.inr rfl)⟩
    | some entry =>
      exact .inr ⟨moving, entry, hne, rfl, rfl, by simp [hne, drain, refs_of_find? hs]⟩

theorem find?_drain {src dst : SetId} {entry : SetEntry σ} (hne : src ≠ dst)
    (hdst : r.find? dst = some entry) (id : SetId) :
    (r.drain src dst).find? id =
      if id = src then none
      else if id = dst then some { entry with refs := entry.refs ++ r.refs src }
      else r.find? id := by
  simp only [drain, find?_modifyEntry, find?_pointAll, find?_free]
  by_cases hs : id = src
  · simp [hs, hne]
  · by_cases hd : id = dst
    · simp [hd, Ne.symm hne, hdst]
    · simp [hs, hd]

/-- Only the slots of the drained set change, and they go to the other one. -/
theorem slots_drain (h : r.Linked) (src dst : SetId) (s : SlotId) :
    (r.drain src dst).slots[s]? =
      if r.held? s = some src then some (.held dst) else r.slots[s]? := by
  simp only [drain, slots_modifyEntry, slots_pointAll, slots_free]
  by_cases hs : r.held? s = some src
  · obtain ⟨moving, hf, hm⟩ := h.mem_of_held hs
    simp [hs, refs_of_find? hf, hm, lt_size_of_held? hs]
  · have hm : s ∉ r.refs src := fun hm => by
      cases hf : r.find? src with
      | none => simp [refs_of_find?_none hf] at hm
      | some moving => exact hs (h.held_of_mem hf (refs_of_find? hf ▸ hm))
    simp [hs, hm]

theorem held?_drain (h : r.Linked) (src dst : SetId) (s : SlotId) :
    (r.drain src dst).held? s = if r.held? s = some src then some dst else r.held? s :=
  held?_of_repointed (slots_drain h src dst s)

theorem drain_wellFormed (h : r.WellFormed) {src dst : SetId} {moving entry : SetEntry σ}
    (hne : src ≠ dst) (hsrc : r.find? src = some moving) (hdst : r.find? dst = some entry) :
    (r.drain src dst).WellFormed where
  linked := by
    refine h.linked.of_each fun id => ?_
    simp only [find?_drain hne hdst, held?_drain h.linked]
    by_cases hs : id = src
    · refine .inr (.inl ⟨by simp [hs], fun s => ?_⟩)
      split <;> simp_all [Ne.symm hne]
    -- The references of the two sets are disjoint, since a slot points at one set only.
    by_cases hd : id = dst
    · subst hd
      refine .inr (.inr ⟨{ entry with refs := entry.refs ++ r.refs src }, by simp [hs], ?_, ?_,
        fun s => ?_⟩)
      · rw [refs_of_find? hsrc]
        refine List.nodup_append.mpr
          ⟨h.linked.nodup_refs hdst, h.linked.nodup_refs hsrc, fun s hs t ht he => hne ?_⟩
        have hboth := (h.linked.held_of_mem hsrc ht).symm.trans
          (he ▸ h.linked.held_of_mem hdst hs)
        exact Option.some.inj hboth
      · simp [h.linked.refs_ne_nil hdst]
      · simp only [refs_of_find? hsrc, List.mem_append, h.linked.mem_refs_iff hdst,
          h.linked.mem_refs_iff hsrc]
        by_cases hm : r.held? s = some src <;> simp [hm]
    · refine .inl ⟨by simp [hs, hd], fun s => ?_⟩
      split <;> simp_all [Ne.symm hs, Ne.symm hd]
  freeCells := ((h.freeCells.free src).pointAll _ dst).modifyEntry dst _
  freeSlots := by
    refine ((h.freeSlots.free src).pointAll (fun s hs => ?_) dst).modifyEntry dst _
    rw [refs_of_find? hsrc] at hs
    simp [slots_free, held?_eq_some.mp (h.linked.held_of_mem hsrc hs)]

/-! ## Merging two sets -/

/-- How a registry comes out of a merge of two sets: one of them has taken over the references of
the other, which is gone, and has these contents. -/
structure Absorbs (r r' : Registry σ) (survivor loser : SetId) (contents : σ) : Prop where
  wellFormed : r'.WellFormed
  find?_eq (id : SetId) :
    r'.find? id =
      if id = loser then none
      else if id = survivor then some ⟨contents, r.refs survivor ++ r.refs loser⟩
      else r.find? id
  slots_eq (s : SlotId) :
    r'.slots[s]? = if r.held? s = some loser then some (.held survivor) else r.slots[s]?

/-- A change of contents leaves the references alone. -/
theorem replaceContents_wellFormed (h : r.WellFormed) (id : SetId) (contents? : Option σ) :
    (r.replaceContents id contents?).WellFormed := by
  cases contents? with
  | none => exact h
  | some contents =>
    refine ⟨h.linked.of_each fun id' => ?_, h.freeCells.modifyEntry id _,
      h.freeSlots.modifyEntry id _⟩
    simp only [replaceContents, find?_modifyEntry, held?_modifyEntry]
    by_cases hid : id' = id
    · subst hid
      cases hf : r.find? id' with
      | none => exact .inl ⟨by simp, by simp⟩
      | some entry =>
        have hnd := h.linked.nodup_refs hf
        have hne := h.linked.refs_ne_nil hf
        exact .inr (.inr ⟨{ entry with contents }, by simp, hnd, hne,
          fun s => (h.linked.mem_refs_iff hf s).symm⟩)
    · exact .inl ⟨by simp [hid], by simp⟩

theorem absorbs_drain (h : r.WellFormed) {survivor loser : SetId} {x y : SetEntry σ}
    (hne : survivor ≠ loser) (hx : r.find? survivor = some x) (hy : r.find? loser = some y)
    (contents? : Option σ) :
    r.Absorbs ((r.drain loser survivor).replaceContents survivor contents?) survivor loser
      (contents?.getD x.contents) where
  wellFormed := replaceContents_wellFormed (drain_wellFormed h hne.symm hy hx) _ _
  find?_eq id := by
    have hdrain := find?_drain hne.symm hx
    cases contents? with
    | none => simp [replaceContents, hdrain, refs_of_find? hx]
    | some contents =>
      simp only [replaceContents, find?_modifyEntry, hdrain, refs_of_find? hx]
      by_cases hs : id = survivor
      · simp [hs, hne]
      · simp [hs]
  slots_eq s := by
    cases contents? <;> exact slots_drain h.linked loser survivor s

variable [Mergeable σ] {rule : Mergeable.Rule σ} {a b : SetId} {x y : SetEntry σ}

/-- What a merge of two live sets comes down to is read off their intersection. -/
theorem planMerge_of_live (h : r.Linked) (rule : Mergeable.Rule σ) (hne : a ≠ b)
    (hx : r.find? a = some x) (hy : r.find? b = some y) :
    r.planMerge rule a b = .ok
      (match Mergeable.intersect rule x.contents y.contents with
      | .disjoint => .refuse
      | .keep .first => .join a b none
      | .keep .second => .join b a none
      | .replace contents =>
        if y.refs.length ≤ x.refs.length then .join a b (some contents)
        else .join b a (some contents)) := by
  have hxr := h.refs_ne_nil hx
  have hyr := h.refs_ne_nil hy
  cases hi : Mergeable.intersect rule x.contents y.contents with
  | disjoint => simp [planMerge, hx, hy, hxr, hyr, hne, hi]
  | keep side => cases side <;> simp [planMerge, hx, hy, hxr, hyr, hne, hi]
  | replace contents =>
    by_cases hle : y.refs.length ≤ x.refs.length <;>
      simp [planMerge, hx, hy, hxr, hyr, hne, hi, hle]

theorem merge_of_refuse (hplan : r.planMerge rule a b = .ok .refuse) :
    merge rule a b r = .ok .incompatible r := by
  simp [merge, hplan]

theorem merge_of_join {survivor loser : SetId} {contents? : Option σ}
    (hplan : r.planMerge rule a b = .ok (.join survivor loser contents?)) (hne : survivor ≠ loser)
    (hs : (r.find? survivor).isSome) (hl : (r.find? loser).isSome) :
    merge rule a b r =
      .ok .merged ((r.drain loser survivor).replaceContents survivor contents?) := by
  rcases retargetAll_cases loser survivor r with ⟨-, he | he | he⟩ | ⟨_, _, -, -, -, heq⟩
  · exact absurd he hne.symm
  · simp [he] at hl
  · simp [he] at hs
  · simp [merge, hplan, heq]

/-- A merge that is to join two live sets does so. -/
theorem exists_absorbs_of_join (h : r.WellFormed) {survivor loser : SetId} {contents? : Option σ}
    (hplan : r.planMerge rule a b = .ok (.join survivor loser contents?)) (hne : survivor ≠ loser)
    (hx : r.find? survivor = some x) (hy : r.find? loser = some y) :
    ∃ r', merge rule a b r = .ok .merged r' ∧
      r.Absorbs r' survivor loser (contents?.getD x.contents) :=
  ⟨_, merge_of_join hplan hne (by simp [hx]) (by simp [hy]), absorbs_drain h hne hx hy contents?⟩

theorem merge_self (h : r.Linked) (hx : r.find? a = some x) :
    merge rule a a r = .ok .merged r := by
  have hxr := h.refs_ne_nil hx
  simp [merge, planMerge, hx, hxr]

theorem merge_of_dead (h : r.find? a = none ∨ r.find? b = none) :
    merge rule a b r = .error .unknownSet r := by
  have hplan : r.planMerge rule a b = .error .unknownSet := by
    unfold planMerge
    rcases h with h | h
    · simp [h]
    · cases r.find? a <;> simp [h]
  simp [merge, hplan]

/-- Two live sets without a common part are left alone, and otherwise one of them absorbs the other
with what they have in common. -/
theorem merge_of_live (h : r.WellFormed) (rule : Mergeable.Rule σ) (hne : a ≠ b)
    (hx : r.find? a = some x) (hy : r.find? b = some y) :
    ((Mergeable.intersect rule x.contents y.contents).contents? x.contents y.contents = none ∧
      merge rule a b r = .ok .incompatible r) ∨
    ∃ r' contents survivor loser,
      (Mergeable.intersect rule x.contents y.contents).contents? x.contents y.contents =
        some contents ∧
      (survivor = a ∧ loser = b ∨ survivor = b ∧ loser = a) ∧
      merge rule a b r = .ok .merged r' ∧ r.Absorbs r' survivor loser contents := by
  have hplan := planMerge_of_live h.linked rule hne hx hy
  cases hi : Mergeable.intersect rule x.contents y.contents with
  | disjoint =>
    rw [hi] at hplan
    exact .inl ⟨rfl, merge_of_refuse hplan⟩
  | keep side =>
    rw [hi] at hplan
    cases side with
    | first =>
      obtain ⟨r', heq, habsorbs⟩ := exists_absorbs_of_join h hplan hne hx hy
      exact .inr ⟨r', _, a, b, rfl, .inl ⟨rfl, rfl⟩, heq, habsorbs⟩
    | second =>
      obtain ⟨r', heq, habsorbs⟩ := exists_absorbs_of_join h hplan hne.symm hy hx
      exact .inr ⟨r', _, b, a, rfl, .inr ⟨rfl, rfl⟩, heq, habsorbs⟩
  | replace contents =>
    rw [hi] at hplan
    dsimp only at hplan
    split at hplan
    · obtain ⟨r', heq, habsorbs⟩ := exists_absorbs_of_join h hplan hne hx hy
      exact .inr ⟨r', _, a, b, rfl, .inl ⟨rfl, rfl⟩, heq, habsorbs⟩
    · obtain ⟨r', heq, habsorbs⟩ := exists_absorbs_of_join h hplan hne.symm hy hx
      exact .inr ⟨r', _, b, a, rfl, .inr ⟨rfl, rfl⟩, heq, habsorbs⟩

end FormatNegotiation.Registry
