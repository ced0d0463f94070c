import FormatNegotiation.Proofs.Graph.Negotiation
import FormatNegotiation.Proofs.Graph.Ownership
import FormatNegotiation.Proofs.Registry.Refusals

/-! Operations that fail leave the graph as it was, whatever has been done to its registries. An
insertion takes new slots before it moves references, but the moves cannot fail: the slots at the
ends of links were handed out at some time, even if they have been taken back since, and the new
ones are vacant. -/
namespace FormatNegotiation.Graph

variable {g g' : Graph} {l : Link} {err : FormatError}

/-! ## Slots that were handed out -/

/-- The registries keep their invariant, and know the slots at the ends of all links. -/
structure Grounded (g : Graph) : Prop where
  wellFormed (kind : SetKind) : (g.registry kind).WellFormed
  issued (kind : SetKind) : ∀ slot ∈ g.endSlots kind, slot < (g.registry kind).slotCount

theorem empty_grounded : empty.Grounded where
  wellFormed := registry_wellFormed []
  issued _ _ hslot := absurd hslot List.not_mem_nil

theorem Change.slotCount_le {c : Command} (h : Change g c g') (kind : SetKind) :
    (g.registry kind).slotCount ≤ (g'.registry kind).slotCount := by
  obtain ⟨cs, hcs⟩ := h.evolves kind
  have hrun : g'.registry kind = (g.registry kind).run cs := hcs
  rw [hrun]
  exact (g.registry kind).slotCount_le_run cs

theorem freshEnds_issued (h : ∀ kind, (g.registry kind).WellFormed) (kind : SetKind) :
    ∀ slot ∈ [g.freshEnds.1.slot kind, g.freshEnds.2.slot kind],
      slot < (g.withFreshEnds.registry kind).slotCount := by
  have hfirst := Registry.newSlot_wellFormed (h kind)
  have hsource := Registry.newSlot_lt_slotCount (h kind).freeSlots
  have htarget := Registry.newSlot_lt_slotCount hfirst.freeSlots
  have hgrows := (g.registry kind).newSlot.2.slotCount_le_newSlot
  obtain ⟨hone, htwo⟩ := g.slot_freshEnds kind
  rw [registry_withFreshEnds, hone, htwo]
  intro slot hslot
  rcases List.mem_pair.mp hslot with rfl | rfl
  · exact Nat.lt_of_lt_of_le hsource hgrows
  · exact htarget

namespace Grounded

theorem withFreshEnds (hg : g.Grounded) (kind : SetKind) :
    ∀ slot ∈ g.endSlots kind ++ [g.freshEnds.1.slot kind, g.freshEnds.2.slot kind],
      slot < (g.withFreshEnds.registry kind).slotCount := by
  intro slot hslot
  rcases List.mem_append.mp hslot with hold | hnew
  · have hgrows : (g.registry kind).slotCount ≤ (g.withFreshEnds.registry kind).slotCount := by
      rw [registry_withFreshEnds]
      exact Nat.le_trans (Registry.slotCount_le_newSlot _) (Registry.slotCount_le_newSlot _)
    exact Nat.lt_of_lt_of_le (hg.issued kind slot hold) hgrows
  · exact freshEnds_issued hg.wellFormed kind slot hnew

theorem of_change (hg : g.Grounded) {c : Command} (h : Change g c g') : g'.Grounded where
  wellFormed := h.registry_wellFormed hg.wellFormed
  issued kind := by
    have hgrows := h.slotCount_le kind
    have hkept : ∀ slot ∈ g.endSlots kind, slot < (g'.registry kind).slotCount :=
      fun slot hslot => Nat.lt_of_lt_of_le (hg.issued kind slot hslot) hgrows
    cases h with
    | references h =>
      rw [endSlots_of_links h.links_eq]
      exact hkept
    | slots command hmoves =>
      rw [endSlots_of_links rfl]
      exact hkept
    | filter name inputs outputs => exact hkept
    | link h =>
      rw [pushLink_eq, endSlots_appendLink]
      exact hg.withFreshEnds kind
    | @removal _ node n h =>
      intro slot hslot
      have hmem := List.mem_append_right (g.slotsTouching node kind) hslot
      exact hkept slot ((g.endSlots_withoutNode_perm node kind).mem_iff.mp hmem)
    | stuck h hmove =>
      have hmoved := (moveReferences_rereferences _ _ _).of_error hmove
      rw [endSlots_of_links hmoved.links_eq]
      exact hkept
    | insertion h hmove =>
      have hmoved := (moveReferences_rereferences _ _ _).of_ok hmove
      have hcount := (hmoved.slots_eq kind).1
      rw [endSlots_redirect, endSlots_appendLink, endSlots_of_links hmoved.links_eq]
      intro slot hslot
      exact Nat.lt_of_lt_of_eq (hg.withFreshEnds kind slot hslot) hcount.symm

theorem run (hg : g.Grounded) (cs : List Command) : (g.run cs).Grounded := by
  induction cs generalizing g with
  | nil => exact hg
  | cons c cs ih => exact ih (hg.of_change (after_change g c))

/-- The target end of a link may have been taken back, and may even be handed out again as the new
end. -/
theorem target_issued (hg : g.Grounded) (hl : l ∈ g.liveLinks) (kind : SetKind) :
    l.targetEnd.slot kind < (g.withFreshEnds.registry kind).slotCount := by
  exact hg.withFreshEnds kind _ (List.mem_append_left _ (mem_endSlots hl kind).2)

theorem changeReference_succeeds (hg : g.Grounded) (hl : l ∈ g.liveLinks) (kind : SetKind) :
    ∃ r', Registry.changeReference (l.targetEnd.slot kind) (g.freshEnds.2.slot kind)
      (g.withFreshEnds.registry kind) = .ok () r' :=
  Registry.changeReference_succeeds (withFreshEnds_wellFormed hg.wellFormed kind).linked
    (hg.target_issued hl kind) (slots_freshEnds_snd hg.wellFormed kind)

end Grounded

/-! ## Operations that fail -/

theorem onRegistry_error {α : Type} {kind : SetKind} {act : Registry.Action kind.Contents α}
    (hact : ∀ r', act (g.registry kind) = .error err r' → r' = g.registry kind)
    (h : onRegistry kind act g = .error err g') : g' = g := by
  obtain ⟨r, hres, rfl⟩ := onRegistry_eq_error_iff.mp h
  rw [hact r hres, setRegistry_self]

theorem install_eq_error_iff {kind : SetKind} {contents : kind.Contents} {node : NodeId} :
    install kind contents node g = .error err g' ↔ g' = g ∧
      ((∃ e, g.eligibleSlots kind node = .error e ∧ err = .graph e) ∨
        ∃ slots, g.eligibleSlots kind node = .ok slots ∧
          (g.registry kind).FirstFault slots err) := by
  unfold install
  cases g.eligibleSlots kind node with
  | error e => simp [and_comm, eq_comm]
  | ok slots =>
    have hattach : (discard (onRegistry kind (Registry.attach contents slots))) g =
        .error err g' ↔ _ := map_eq_error_iff
    simp only [hattach, onRegistry_eq_error_iff, Registry.attach_eq_error_iff, reduceCtorEq,
      false_and, exists_false, false_or, Except.ok.injEq, exists_eq_left']
    constructor
    · rintro ⟨_, ⟨rfl, hfault⟩, rfl⟩
      exact ⟨setRegistry_self g kind, hfault⟩
    · rintro ⟨rfl, hfault⟩
      exact ⟨g'.registry kind, ⟨rfl, hfault⟩, (setRegistry_self g' kind).symm⟩

theorem install_error {kind : SetKind} {contents : kind.Contents} {node : NodeId}
    (h : install kind contents node g = .error err g') : g' = g := (install_eq_error_iff.mp h).1

theorem installLayouts_error {entries : List ChannelLayout} {node : NodeId}
    (h : installLayouts entries node g = .error err g') : g' = g := by
  unfold installLayouts at h
  cases hset : LayoutSet.ofList entries with
  | error e =>
    rw [hset] at h
    cases h
    rfl
  | ok set =>
    rw [hset] at h
    exact install_error h

theorem liftStructural_error {α : Type} {act : EStateM GraphError Graph α}
    (h : liftStructural act g = .error err g') : ∃ e, act g = .error e g' := by
  unfold liftStructural at h
  cases hres : act g with
  | ok x g'' =>
    rw [hres] at h
    cases h
  | error e g'' =>
    rw [hres] at h
    cases h
    exact ⟨e, rfl⟩

theorem addLink_error {edge : Edge} {e : GraphError} (h : addLink edge g = .error e g') :
    g' = g := by
  unfold addLink at h
  cases hcheck : g.checkEdge edge with
  | error e =>
    rw [hcheck] at h
    cases h
    rfl
  | ok u =>
    rw [hcheck] at h
    cases h

theorem removeNode_error {node : NodeId} {e : GraphError} (h : removeNode node g = .error e g') :
    g' = g := by
  unfold removeNode at h
  cases hn : g.node? node with
  | none =>
    rw [hn] at h
    cases h
    rfl
  | some n =>
    rw [hn] at h
    cases h

theorem Grounded.negotiateLink_error (hg : g.Grounded) {catalog : Catalog} {link : LinkId}
    (h : negotiateLink catalog link g = .error err g') : g' = g := by
  have hnone := (negotiateLink_error_iff hg.wellFormed).mp ⟨err, g', h⟩
  have hres := negotiateLink_of_link?_none hnone catalog
  cases h.symm.trans hres
  rfl

section Insertion

variable {link : LinkId} {node : NodeId} {inPad outPad : PadId}

theorem live_of_checkInsertion (h : g.checkInsertion link node inPad outPad = .ok l) :
    l ∈ g.liveLinks := mem_liveLinks.mpr ⟨link, (splits_of_checkInsertion h).live⟩

/-- Once its checks have passed, an insertion goes through. -/
theorem Grounded.insertFilter_succeeds (hg : g.Grounded)
    (h : g.checkInsertion link node inPad outPad = .ok l) :
    ∃ g', insertFilter link node inPad outPad g = .ok g.links.size g' := by
  have hissued := hg.target_issued (live_of_checkInsertion h)
  obtain ⟨g', hmove⟩ := moveReferences_freshEnds hg.wellFormed hissued
  rw [insertFilter_of_check h, hmove]
  exact ⟨_, rfl⟩

theorem Grounded.insertFilter_error (hg : g.Grounded)
    (h : insertFilter link node inPad outPad g = .error err g') : g' = g := by
  cases hcheck : g.checkInsertion link node inPad outPad with
  | error e =>
    unfold insertFilter at h
    rw [hcheck] at h
    cases h
    rfl
  | ok l =>
    obtain ⟨g'', hres⟩ := hg.insertFilter_succeeds hcheck
    cases h.symm.trans hres

end Insertion

/-- The defaults of a filter are several sets, installed one after the other; every other command
makes one change or none. -/
theorem Grounded.exec_error (hg : g.Grounded) {c : Command}
    (hc : ∀ catalog node, c ≠ .installDefaults catalog node) (h : exec c g = .error err g') :
    g' = g := by
  cases c with
  | addFilter name inputs outputs => cases h
  | addLink edge =>
    obtain ⟨e, hres⟩ := liftStructural_error (map_eq_error_iff.mp h)
    exact addLink_error hres
  | removeNode node =>
    obtain ⟨e, hres⟩ := liftStructural_error (map_eq_error_iff.mp h)
    exact removeNode_error hres
  | install kind contents node => exact install_error (map_eq_error_iff.mp h)
  | installLayouts entries node => exact installLayouts_error (map_eq_error_iff.mp h)
  | installAnyRate node => exact install_error (map_eq_error_iff.mp h)
  | installAnyLayout node => exact install_error (map_eq_error_iff.mp h)
  | installDefaults catalog node => exact absurd rfl (hc catalog node)
  | negotiateLink catalog link => exact hg.negotiateLink_error (map_eq_error_iff.mp h)
  | insertFilter link node inPad outPad => exact hg.insertFilter_error (map_eq_error_iff.mp h)
  | onRegistry kind command =>
    exact onRegistry_error (fun r' hr' => Registry.exec_error hr') (map_eq_error_iff.mp h)

end FormatNegotiation.Graph
