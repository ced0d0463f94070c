import FormatNegotiation.Proofs.Registry.Frames
import FormatNegotiation.Proofs.Registry.Refusals

/-! What each operation on references and slots changes: the slots it names, the set behind them,
and nothing else. -/
namespace FormatNegotiation.Registry

variable {σ : Type} {r r' : Registry σ} {slot old new : SlotId} {slots done rest : List SlotId}
  {id src dst : SetId} {ids : List SetId} {contents : σ}

/-- No slots but these change, and no sets but these; and whatever set stays live keeps its
contents. -/
structure Keeps (r r' : Registry σ) (slots : List SlotId) (ids : List SetId) : Prop where
  slots_eq {s : SlotId} : s ∉ slots → r'.slots[s]? = r.slots[s]?
  find?_eq {id : SetId} : id ∉ ids → r'.find? id = r.find? id
  contents?_eq {id : SetId} : r.isLive id → r'.isLive id → r'.contents? id = r.contents? id

/-- Contents need a look only in the sets that may change. -/
theorem keeps_of_named (hslots : ∀ s ∉ slots, r'.slots[s]? = r.slots[s]?)
    (hfind : ∀ id ∉ ids, r'.find? id = r.find? id)
    (hcontents : ∀ id ∈ ids, r.isLive id → r'.isLive id → r'.contents? id = r.contents? id) :
    r.Keeps r' slots ids where
  slots_eq {s} hs := hslots s hs
  find?_eq {id} hid := hfind id hid
  contents?_eq {id} hlive hlive' := by
    by_cases hid : id ∈ ids
    · exact hcontents id hid hlive hlive'
    · rw [contents?, hfind id hid, contents?]

/-! ## Adding a reference -/

/-- The slot points at the set, and is the last of its references. -/
structure Adds (r r' : Registry σ) (id : SetId) (slot : SlotId) : Prop
    extends r.Keeps r' [slot] [id] where
  held?_eq : r'.held? slot = some id
  isLive : r'.isLive id
  refs_eq : r'.refs id = r.refs id ++ [slot]

theorem addReference_adds (hres : addReference id slot r = .ok () r') : r.Adds r' id slot := by
  rcases addReference_cases id slot r with ⟨e, heq⟩ | ⟨entry, hvacant, hfind, heq⟩
  · cases heq.symm.trans hres
  cases heq.symm.trans hres
  have hfind' : ∀ id', ((r.modifyEntry id fun e => { e with refs := e.refs ++ [slot] }).setSlot slot
      (.held id)).find? id' =
      if id' = id then some { entry with refs := entry.refs ++ [slot] } else r.find? id' := by
    intro id'
    by_cases hid : id' = id
    · simp [find?_modifyEntry, hid, hfind]
    · simp [find?_modifyEntry, hid]
  have hnew := (hfind' id).trans (if_pos rfl)
  refine ⟨keeps_of_named (fun s hs => ?_) (fun id' hid => ?_) (fun id' hid _ _ => ?_), ?_, ?_, ?_⟩
  · rw [slots_setSlot, if_neg (by simpa using hs), slots_modifyEntry]
  · rw [hfind', if_neg (by simpa using hid)]
  · obtain rfl := List.mem_singleton.mp hid
    rw [contents?_of_find? hnew, contents?_of_find? hfind]
  · rw [held?_eq_some]
    simp [slots_setSlot, hvacant]
  · exact Option.isSome_of_eq_some hnew
  · rw [refs_of_find? hnew, refs_of_find? hfind]

theorem addReference_succeeds_iff :
    (∃ r', addReference id slot r = .ok () r') ↔
      r.slots[slot]? = some .vacant ∧ r.isLive id := by
  constructor
  · intro ⟨r', hres⟩
    rcases addReference_cases id slot r with ⟨e, heq⟩ | ⟨entry, hvacant, hfind, -⟩
    · cases heq.symm.trans hres
    · exact ⟨hvacant, Option.isSome_of_eq_some hfind⟩
  · intro ⟨hvacant, hlive⟩
    simp [addReference, checkVacant_eq_ok.mpr hvacant, hlive]

/-! ## Removing references -/

/-- The slot points at nothing. The set that it pointed at has one reference less, and is gone if
that was the last. -/
structure Loses (r r' : Registry σ) (slot : SlotId) : Prop
    extends r.Keeps r' [slot] (r.held? slot).toList where
  held?_eq : r'.held? slot = none
  refs_eq (id : SetId) : r'.refs id = (r.refs id).erase slot
  isLive_iff (id : SetId) : r'.isLive id ↔ r.isLive id ∧ r.refs id ≠ [slot]

theorem loses_of_without (h : r.Linked) (hslots : ∀ s ≠ slot, r'.slots[s]? = r.slots[s]?)
    (hheld : r'.held? slot = none)
    (hfind : ∀ id, r'.find? id = (r.find? id).bind (·.without [slot])) : r.Loses r' slot where
  toKeeps := by
    refine keeps_of_named (fun s hs => hslots s (by simpa using hs)) (fun id hid => ?_)
      fun id _ _ hlive => contents?_of_without (hfind id) hlive
    rw [hfind]
    cases hentry : r.find? id with
    | none => rfl
    | some entry => exact h.without_eq hentry (by simpa using hid)
  held?_eq := hheld
  refs_eq id := by rw [refs_of_without (hfind id), filter_not_mem_singleton (h.nodup_refs_of id)]
  isLive_iff id := by
    rw [isLive_of_without (hfind id)]
    refine and_congr_right fun hlive => ?_
    obtain ⟨entry, hentry⟩ := isLive_iff.mp hlive
    have hne : r.refs id ≠ [] := refs_of_find? hentry ▸ h.refs_ne_nil hentry
    have hrest : (∃ s ∈ r.refs id, s ∉ [slot]) ↔ (r.refs id).erase slot ≠ [] := by
      rw [← filter_not_mem_singleton (h.nodup_refs_of id), ne_eq, List.filter_eq_nil_iff]
      simp
    rw [hrest, ne_eq, List.erase_eq_nil_iff, not_or, and_iff_right hne]

theorem removeReference_loses (h : r.Linked) (slot : SlotId) :
    r.Loses (r.removeReference slot) slot := by
  refine loses_of_without h (fun s hs => ?_) ?_ (find?_removeReference_eq h slot)
  · rw [slots_removeReference, if_neg fun hslot => hs hslot.1]
  · rw [held?_removeReference, if_pos rfl]

/-- A slot without its reference is as good as before. -/
theorem removeReference_unused_iff : (r.removeReference slot).Unused slot ↔ r.Unused slot := by
  unfold Unused
  rw [slots_removeReference]
  cases hheld : r.held? slot with
  | none => simp
  | some id => simp [held?_eq_some.mp hheld]

theorem releaseSlot_loses (h : r.Linked) (slot : SlotId) :
    r.Loses (r.releaseSlot slot) slot := by
  refine loses_of_without h (fun s hs => ?_) ?_ fun id => ?_
  · rw [slots_releaseSlot, if_neg hs]
  · rw [held?_releaseSlot, if_pos rfl]
  · rw [find?_releaseSlot, find?_removeReference_eq h]

theorem find?_removeAll (h : r.WellFormed) (slots : List SlotId) (id : SetId) :
    (slots.foldl removeReference r).find? id = (r.find? id).bind (·.without slots) :=
  find?_foldl_without removeReference_wellFormed
    (fun hr slot id => find?_removeReference_eq hr.linked slot id) h slots id

theorem slots_removeAll (r : Registry σ) {s : SlotId} (hs : s ∉ slots) :
    (slots.foldl removeReference r).slots[s]? = r.slots[s]? := by
  induction slots generalizing r with
  | nil => rfl
  | cons slot rest ih =>
    rw [List.mem_cons, not_or] at hs
    rw [List.foldl_cons, ih _ hs.2, slots_removeReference, if_neg fun hslot => hs.1 hslot.1]

/-- No other set and no other slot is touched when references of one set are removed one by one. -/
theorem removeAll_keeps (h : r.WellFormed) (hdone : ∀ s ∈ done, r.held? s = some id) :
    r.Keeps (done.foldl removeReference r) done [id] := by
  refine keeps_of_named (fun s hs => slots_removeAll r hs) (fun id' hid => ?_)
    fun id' _ _ hlive => contents?_of_without (find?_removeAll h done id') hlive
  rw [find?_removeAll h]
  cases hentry : r.find? id' with
  | none => rfl
  | some entry =>
    refine h.linked.without_eq hentry fun s hs heq => hid ?_
    rw [hdone s hs] at heq
    rw [List.mem_singleton, Option.some.inj heq]

theorem removeAll_isLive_iff (h : r.WellFormed) (hlive : r.isLive id)
    (hperm : (done ++ rest).Perm (r.refs id)) :
    (done.foldl removeReference r).isLive id ↔ rest ≠ [] := by
  have hnd : (done ++ rest).Nodup := hperm.nodup_iff.mpr (h.linked.nodup_refs_of id)
  rw [isLive_of_without (find?_removeAll h done id), and_iff_right hlive]
  constructor
  · intro ⟨s, hs, hleft⟩
    have hboth : s ∈ done ∨ s ∈ rest := List.mem_append.mp (hperm.mem_iff.mpr hs)
    exact List.ne_nil_of_mem (hboth.resolve_left hleft)
  · intro hne
    obtain ⟨s, hs⟩ := List.exists_mem_of_ne_nil rest hne
    have hleft : s ∉ done := fun hs' => (List.nodup_append.mp hnd).2.2 s hs' s hs rfl
    exact ⟨s, hperm.mem_iff.mp (List.mem_append_right done hs), hleft⟩

/-! ## Slots that nobody may use -/

/-- The slot points at nothing, and no operation lets it point at a set. -/
structure Unusable (r : Registry σ) (slot : SlotId) : Prop where
  held?_eq : r.held? slot = none
  addReference_fails (id : SetId) : addReference id slot r = .error (.unknownSlot slot) r
  attach_fails (contents : σ) {slots : List SlotId} :
    slot ∈ slots → ∃ e, attach contents slots r = .error e r
  changeReference_fails {old : SlotId} : r.held? old ≠ none →
    changeReference old slot r = .error (.unknownSlot slot) r

theorem Unused.unusable (h : r.Unused slot) (hr : r.Linked) : r.Unusable slot where
  held?_eq := by rcases h with h | h <;> simp [held?, h]
  addReference_fails id := (addReference_eq_error_iff id).mpr ⟨rfl, .inl (.unknown h)⟩
  attach_fails contents {slots} hs := by
    rcases attach_cases contents slots r with heq | ⟨rfl, -⟩ | ⟨-, -, hvacant, -⟩
    · exact heq
    · cases hs
    · exact absurd (.unknown h) (not_slotFault_of_vacant (hvacant slot hs))
  changeReference_fails {old} hold := by
    have hne : slot ≠ old := by
      rintro rfl
      rcases h with h | h <;> simp [held?, h] at hold
    have hheld := Option.ne_none_iff_exists'.mp hold
    exact (changeReference_eq_error_iff hr old slot).mpr ⟨rfl, .inr ⟨hheld, hne, .unknown h⟩⟩

theorem releaseSlot_unused (r : Registry σ) (slot : SlotId) : (r.releaseSlot slot).Unused slot := by
  unfold Unused
  rw [slots_releaseSlot, if_pos rfl]
  cases r.slots[slot]? with
  | none => exact .inl rfl
  | some state => exact .inr rfl

theorem unused_iff (h : r.FreeSlotsExact) :
    r.Unused slot ↔ r.slotCount ≤ slot ∨ slot ∈ r.freeSlots := by
  rw [Unused, Array.getElem?_eq_none_iff, h.mem_iff]
  rfl

section Run

variable [Mergeable σ] {c : Command σ} {cs : List (Command σ)}

/-- The slot that a command hands out, if it is one that does so. -/
def handsOut (r : Registry σ) : Command σ → List SlotId
  | .newSlot => [r.newSlot.1]
  | _ => []

/-- The slots that a run hands out, the first one in front. -/
def handedOut (r : Registry σ) : List (Command σ) → List SlotId
  | [] => []
  | c :: cs => r.handsOut c ++ (r.after c).handedOut cs

theorem Unused.after (h : r.Unused slot) (hr : r.WellFormed) (hc : slot ∉ r.handsOut c) :
    (r.after c).Unused slot := by
  cases hmoves : c.movesSlot with
  | false =>
    -- Who may use a slot depends on the free list and the number of slots alone.
    obtain ⟨hcount, hfree⟩ := r.after_of_not_movesSlot hmoves
    rw [unused_iff hr.freeSlots] at h
    rw [unused_iff (after_wellFormed hr c).freeSlots, hcount, hfree]
    exact h
  | true =>
    cases c with
    | newSlot =>
      have hne : slot ≠ r.newSlot.1 := by simpa [handsOut] using hc
      have hslot : (r.after .newSlot).slots[slot]? = r.slots[slot]? :=
        (slots_newSlot hr.freeSlots slot).trans (if_neg hne)
      rwa [Unused, hslot]
    | releaseSlot released =>
      by_cases heq : slot = released
      · rw [heq]
        exact releaseSlot_unused r released
      · have hslot : (r.after (.releaseSlot released)).slots[slot]? = r.slots[slot]? :=
          (slots_releaseSlot r released slot).trans (if_neg heq)
        rwa [Unused, hslot]
    | attach | addReference | removeReference | changeReference | retargetAll | merge =>
      cases hmoves

/-- A slot that nobody may use stays so until it is handed out. -/
theorem Unused.run (h : r.Unused slot) (hr : r.WellFormed) (hcs : slot ∉ r.handedOut cs) :
    (r.run cs).Unused slot := by
  induction cs generalizing r with
  | nil => exact h
  | cons c cs ih =>
    rw [handedOut, List.mem_append, not_or] at hcs
    exact ih (h.after hr hcs.1) (after_wellFormed hr c) hcs.2

end Run

/-! ## Moving references -/

/-- One slot takes the place of another among the references of the set that the other pointed at.
If that was none, or both are the same slot, there is nothing to do. -/
structure Moves (r r' : Registry σ) (old new : SlotId) : Prop
    extends r.Keeps r' [old, new] (r.held? old).toList where
  refs_eq (id : SetId) : r'.refs id = (r.refs id).replace old new
  eq_of_nothing : r.held? old = none ∨ old = new → r' = r
  handsOver : old ≠ new → r.held? old ≠ none →
    r'.slots[old]? = some .vacant ∧ r'.held? new = r.held? old

theorem Linked.replace_refs_of_nothing (h : r.Linked) (hnothing : r.held? old = none ∨ old = new)
    (id : SetId) : (r.refs id).replace old new = r.refs id := by
  rcases hnothing with hnone | rfl
  · refine List.replace_of_not_mem fun hmem => ?_
    have hlive : r.isLive id := (h.isLive_iff_refcount_pos id).mpr (List.length_pos_of_mem hmem)
    have hheld := (h.held_iff_isLive id old).mpr ⟨hlive, hmem⟩
    cases hnone.symm.trans hheld
  · have hself : ∀ s : SlotId, (if s = old then old else s) = s := by
      intro s
      by_cases hs : s = old <;> simp [hs]
    simp only [replace_eq_map (h.nodup_refs_of id), hself, List.map_id']

theorem changeReference_moves (h : r.Linked) (hres : changeReference old new r = .ok () r') :
    r.Moves r' old new := by
  rcases changeReference_cases old new r with
    ⟨e, heq⟩ | ⟨hnothing, heq⟩ | ⟨id, entry, hheld, hne, hvacant, -, -⟩
  · cases heq.symm.trans hres
  · cases heq.symm.trans hres
    refine ⟨⟨fun _ => rfl, fun _ => rfl, fun _ _ => rfl⟩, fun id => ?_, fun _ => rfl,
      fun hne hold => ?_⟩
    · exact (h.replace_refs_of_nothing hnothing id).symm
    · exact absurd hnothing (not_or.mpr ⟨hold, hne⟩)
  · have hused : ¬ r.Unused old := by simp [Unused, held?_eq_some.mp hheld]
    have hmoved := changeReference_handsOver h hne hused hvacant hres
    refine ⟨keeps_of_named (fun s hs => ?_) (fun id' hid => ?_)
        (fun id' _ _ _ => contents?_of_replace (hmoved.find?_eq id')),
      fun id' => refs_of_replace (hmoved.find?_eq id'), fun hnothing => ?_,
      fun _ _ => ⟨hmoved.old_vacant, hmoved.held?_new⟩⟩
    · simp only [List.mem_cons, List.not_mem_nil, or_false, not_or] at hs
      exact hmoved.slots_eq hs.1 hs.2
    · rw [hmoved.find?_eq]
      cases hfind : r.find? id' with
      | none => rfl
      | some entry' => rw [Option.map_some, h.replace_refs_eq hfind (by simpa using hid)]
    · exact absurd hnothing (not_or.mpr ⟨by simp [hheld], hne⟩)

theorem changeReference_succeeds_iff (h : r.Linked) :
    (∃ r', changeReference old new r = .ok () r') ↔
      old < r.slotCount ∧
        (r.held? old = none ∨ old = new ∨ r.slots[new]? = some .vacant) := by
  constructor
  · intro ⟨r', hres⟩
    have hold : old < r.slotCount := by
      by_contra hge
      have herror := (changeReference_eq_error_iff h old new).mpr
        ⟨rfl, .inl ⟨Nat.le_of_not_lt hge, rfl⟩⟩
      cases herror.symm.trans hres
    refine ⟨hold, ?_⟩
    rcases changeReference_cases old new r with
      ⟨e, heq⟩ | ⟨hnone | hsame, -⟩ | ⟨_, _, -, -, hvacant, -, -⟩
    · cases heq.symm.trans hres
    · exact .inl hnone
    · exact .inr (.inl hsame)
    · exact .inr (.inr hvacant)
  · intro ⟨hold, hwhy⟩
    rcases hwhy with hnone | rfl | hvacant
    · exact ⟨r, by simp [changeReference, Nat.not_le_of_lt hold, hnone]⟩
    · refine ⟨r, ?_⟩
      cases hheld : r.held? old <;> simp [changeReference, Nat.not_le_of_lt hold, hheld]
    · exact changeReference_succeeds h hold hvacant

/-- All references of one set have gone to another, behind those that it had, and the first one is
gone. -/
structure Drains (r r' : Registry σ) (src dst : SetId) : Prop
    extends r.Keeps r' (r.refs src) [src, dst] where
  held?_eq {s : SlotId} : s ∈ r.refs src → r'.held? s = some dst
  refs_eq : r'.refs dst = r.refs dst ++ r.refs src
  isLive : r'.isLive dst
  not_isLive : ¬ r'.isLive src

theorem retargetAll_drains (h : r.Linked) (hres : retargetAll src dst r = .ok contents r') :
    r.contents? src = some contents ∧ r.Drains r' src dst := by
  rcases retargetAll_cases src dst r with ⟨heq, -⟩ | ⟨moving, entry, hne, hsrc, hdst, heq⟩
  · cases heq.symm.trans hres
  cases heq.symm.trans hres
  have hheld : ∀ s, r.held? s = some src ↔ s ∈ r.refs src := by
    intro s
    rw [← h.mem_refs_iff hsrc, refs_of_find? hsrc]
  have hfind := find?_drain hne hdst
  have hgone : (r.drain src dst).find? src = none := by rw [hfind, if_pos rfl]
  have hnew : (r.drain src dst).find? dst =
      some { entry with refs := entry.refs ++ r.refs src } := by
    rw [hfind, if_neg hne.symm, if_pos rfl]
  refine ⟨contents?_of_find? hsrc, keeps_of_named (fun s hs => ?_) (fun id hid => ?_)
    (fun id hid _ hlive => ?_), fun {s} hs => ?_, ?_, ?_, ?_⟩
  · rw [slots_drain h, if_neg (mt (hheld s).mp hs)]
  · simp only [List.mem_cons, List.not_mem_nil, or_false, not_or] at hid
    rw [hfind, if_neg hid.1, if_neg hid.2]
  · simp only [List.mem_cons, List.not_mem_nil, or_false] at hid
    rcases hid with rfl | rfl
    · simp [Registry.isLive, hgone] at hlive
    · rw [contents?_of_find? hnew, contents?_of_find? hdst]
  · rw [held?_drain h, if_pos ((hheld s).mpr hs)]
  · rw [refs_of_find? hnew, refs_of_find? hdst]
  · exact Option.isSome_of_eq_some hnew
  · simp [Registry.isLive, hgone]

theorem retargetAll_succeeds_iff :
    (∃ contents r', retargetAll src dst r = .ok contents r') ↔
      src ≠ dst ∧ r.isLive src ∧ r.isLive dst := by
  simp only [isLive_iff]
  rcases retargetAll_cases src dst r with ⟨heq, hwhy⟩ | ⟨moving, entry, hne, hsrc, hdst, heq⟩
  · refine iff_of_false (by simp [heq]) fun ⟨hne, ⟨_, hsrc⟩, _, hdst⟩ => ?_
    rcases hwhy with hsame | hnone | hnone
    · exact hne hsame
    · cases hnone.symm.trans hsrc
    · cases hnone.symm.trans hdst
  · exact iff_of_true ⟨_, _, heq⟩ ⟨hne, ⟨_, hsrc⟩, _, hdst⟩

/-! ## Handing out slots -/

/-- A slot that nobody used has been made vacant. -/
structure HandsOut (r r' : Registry σ) (slot : SlotId) : Prop
    extends r.Keeps r' [slot] [] where
  unused : r.Unused slot
  vacant : r'.slots[slot]? = some .vacant

theorem newSlot_handsOut (h : r.FreeSlotsExact) : r.HandsOut r.newSlot.2 r.newSlot.1 where
  toKeeps := by
    refine keeps_of_named (fun s hs => ?_) (fun id _ => find?_newSlot r id) (by simp)
    rw [slots_newSlot h, if_neg (by simpa using hs)]
  unused := newSlot_unused h
  vacant := by rw [slots_newSlot h, if_pos rfl]

/-- After any run, the operations on references and slots have these effects and no others. A
released slot is of no use until it is handed out again. A set whose references are removed one by
one, in any order, stays with its contents up to the last. -/
theorem run_effects_framed [Mergeable σ] (cs : List (Command σ)) :
    let r := run empty cs
    (∀ id slot, ((∃ r', addReference id slot r = .ok () r') ↔
        r.slots[slot]? = some .vacant ∧ r.isLive id) ∧
      ∀ r', addReference id slot r = .ok () r' → r.Adds r' id slot) ∧
    (∀ slot, r.Loses (r.removeReference slot) slot ∧
      ((r.removeReference slot).Unused slot ↔ r.Unused slot)) ∧
    (∀ slot, r.Loses (r.releaseSlot slot) slot ∧
      ∀ cs', slot ∉ (r.releaseSlot slot).handedOut cs' →
        ((r.releaseSlot slot).run cs').Unusable slot) ∧
    (∀ old new, ((∃ r', changeReference old new r = .ok () r') ↔ old < r.slotCount ∧
        (r.held? old = none ∨ old = new ∨ r.slots[new]? = some .vacant)) ∧
      ∀ r', changeReference old new r = .ok () r' → r.Moves r' old new) ∧
    (∀ src dst, ((∃ contents r', retargetAll src dst r = .ok contents r') ↔
        src ≠ dst ∧ r.isLive src ∧ r.isLive dst) ∧
      ∀ contents r', retargetAll src dst r = .ok contents r' →
        r.contents? src = some contents ∧ r.Drains r' src dst) ∧
    r.HandsOut r.newSlot.2 r.newSlot.1 ∧
    ∀ id done rest, r.isLive id → (done ++ rest).Perm (r.refs id) →
      r.Keeps (done.foldl removeReference r) done [id] ∧
      ((done.foldl removeReference r).isLive id ↔ rest ≠ []) := by
  intro r
  have h : r.WellFormed := run_wellFormed cs
  refine ⟨fun id slot => ⟨addReference_succeeds_iff, fun r' => addReference_adds⟩,
    fun slot => ⟨removeReference_loses h.linked slot, removeReference_unused_iff⟩,
    fun slot => ⟨releaseSlot_loses h.linked slot, fun cs' hcs' => ?_⟩,
    fun old new =>
      ⟨changeReference_succeeds_iff h.linked, fun r' => changeReference_moves h.linked⟩,
    fun src dst => ⟨retargetAll_succeeds_iff, fun contents r' => retargetAll_drains h.linked⟩,
    newSlot_handsOut h.freeSlots, fun id done rest hlive hperm => ?_⟩
  · have hreleased := releaseSlot_wellFormed h slot
    have hunused := (releaseSlot_unused r slot).run hreleased hcs'
    exact hunused.unusable (run_wellFormed_of hreleased cs').linked
  · refine ⟨removeAll_keeps h fun s hs => ?_, removeAll_isLive_iff h hlive hperm⟩
    have hmem : s ∈ r.refs id := hperm.mem_iff.mp (List.mem_append_left rest hs)
    exact (h.linked.held_iff_isLive id s).mpr ⟨hlive, hmem⟩

end FormatNegotiation.Registry
