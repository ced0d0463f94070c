import FormatNegotiation.Proofs.Graph.Admission
import FormatNegotiation.Proofs.Graph.Registries
import Mathlib.Data.List.Pairwise

/-! Slots belong to the ends of links. As long as no slot is handed out or taken back past the
graph, the slots in use are those at the ends of its links, each at one of them, and there are no
more slots than its links needed when they were most. -/
namespace FormatNegotiation.Graph

variable {g g' : Graph} {l l' : Link}

/-- The slots that the ends of links have for a kind. -/
def endSlots (g : Graph) (kind : SetKind) : List SlotId :=
  g.liveLinks.flatMap fun l => [l.sourceEnd.slot kind, l.targetEnd.slot kind]

/-- The command hands out a slot or takes one back, past the graph. -/
def Command.movesSlot : Command → Bool
  | .onRegistry _ command => command.movesSlot
  | _ => false

structure Owned (g : Graph) : Prop where
  wellFormed (kind : SetKind) : (g.registry kind).WellFormed
  inUse (kind : SetKind) : (g.registry kind).InUse (g.endSlots kind)

/-! ## The slots at the ends -/

theorem length_endSlots (g : Graph) (kind : SetKind) :
    (g.endSlots kind).length = 2 * g.liveLinks.length := by
  simp [endSlots, List.length_flatMap, Nat.mul_comm]

theorem endSlots_of_links (h : g'.links = g.links) (kind : SetKind) :
    g'.endSlots kind = g.endSlots kind := by
  rw [endSlots, liveLinks, h, endSlots, liveLinks]

theorem endSlots_appendLink (g : Graph) (l : Link) (kind : SetKind) :
    (g.appendLink l).endSlots kind =
      g.endSlots kind ++ [l.sourceEnd.slot kind, l.targetEnd.slot kind] := by
  simp [endSlots, liveLinks, appendLink, List.filterMap_append]

private theorem flatMap_modify_map {α β : Type} {f : α → List β} {u : α → α}
    (hu : ∀ x, f (u x) = f x) (xs : List (Option α)) (i : Nat) :
    ((xs.modify i (·.map u)).filterMap id).flatMap f = (xs.filterMap id).flatMap f := by
  induction xs generalizing i with
  | nil => simp
  | cons x xs ih =>
    cases i with
    | zero => cases x <;> simp [hu]
    | succ i => cases x <;> simpa using ih i

/-- A link keeps its ends when it is led to another pad. -/
theorem endSlots_redirect (g : Graph) (link : LinkId) (target : Port) (kind : SetKind) :
    (g.redirect link target).endSlots kind = g.endSlots kind := by
  simp only [endSlots, liveLinks, redirect, Array.toList_modify]
  exact flatMap_modify_map (u := fun l : Link => { l with target }) (fun _ => rfl) _ _

theorem endSlots_withoutNode_perm (g : Graph) (node : NodeId) (kind : SetKind) :
    (g.slotsTouching node kind ++ (g.withoutNode node).endSlots kind).Perm (g.endSlots kind) := by
  have hlive : (g.withoutNode node).liveLinks = g.liveLinks.filter (!·.touches node) := by
    simp only [liveLinks, withoutNode, Array.toList_map, List.filterMap_map, List.filter_filterMap]
    rfl
  rw [slotsTouching, touching, endSlots, hlive, ← List.flatMap_append]
  exact (List.filter_append_perm _ _).flatMap_right _

theorem mem_endSlots (hl : l ∈ g.liveLinks) (kind : SetKind) :
    l.sourceEnd.slot kind ∈ g.endSlots kind ∧ l.targetEnd.slot kind ∈ g.endSlots kind :=
  ⟨List.mem_flatMap.mpr ⟨l, hl, by simp⟩, List.mem_flatMap.mpr ⟨l, hl, by simp⟩⟩

namespace Owned

/-- No slot is at the ends of two links. -/
theorem eq_of_shared_slot (hg : g.Owned) (hl : l ∈ g.liveLinks) (hl' : l' ∈ g.liveLinks)
    {kind : SetKind} {slot : SlotId}
    (hs : slot ∈ [l.sourceEnd.slot kind, l.targetEnd.slot kind])
    (hs' : slot ∈ [l'.sourceEnd.slot kind, l'.targetEnd.slot kind]) : l = l' := by
  by_contra hne
  let ends (l : Link) : List SlotId := [l.sourceEnd.slot kind, l.targetEnd.slot kind]
  have : Std.Symm (Function.onFun List.Disjoint ends) := ⟨fun _ _ h => h.symm⟩
  have hnodup : (g.liveLinks.flatMap ends).Nodup := (hg.inUse kind).nodup
  exact (List.nodup_flatMap.mp hnodup).2.forall hl hl' hne hs hs'

/-- The two ends of a link have slots of their own. -/
theorem slot_source_ne_target (hg : g.Owned) (hl : l ∈ g.liveLinks) (kind : SetKind) :
    l.sourceEnd.slot kind ≠ l.targetEnd.slot kind := by
  have hnodup := (hg.inUse kind).nodup
  rw [endSlots, List.nodup_flatMap] at hnodup
  have hpair := hnodup.1 l hl
  simpa using hpair

end Owned

/-! ## Changes -/

theorem Owned.withFreshEnds_allots (hg : g.Owned) (kind : SetKind) :
    (g.registry kind).Allots (g.withFreshEnds.registry kind)
      (g.endSlots kind ++ [g.freshEnds.1.slot kind, g.freshEnds.2.slot kind]) := by
  have hsource := (hg.inUse kind).newSlot_allots
  have htarget := hsource.inUse.newSlot_allots
  have hboth := hsource.trans htarget (Nat.le_succ _)
  obtain ⟨hfirst, hsecond⟩ := g.slot_freshEnds kind
  rw [registry_withFreshEnds, hfirst, hsecond]
  apply hboth.perm
  exact List.perm_append_comm.trans (.swap _ _ _)

/-- References can be moved from one end to another whose slots are vacant. -/
theorem moveReferences_succeeds {old new : LinkEnd} {kinds : List SetKind} (hnodup : kinds.Nodup)
    (hg : ∀ kind ∈ kinds, (g.registry kind).Linked ∧
      old.slot kind < (g.registry kind).slotCount ∧
      (g.registry kind).slots[new.slot kind]? = some .vacant) :
    ∃ g', moveReferences old new kinds g = .ok () g' := by
  induction kinds generalizing g with
  | nil => exact ⟨g, rfl⟩
  | cons kind rest ih =>
    obtain ⟨hfresh, hrest⟩ := List.nodup_cons.mp hnodup
    obtain ⟨hlinked, hold, hnew⟩ := hg kind List.mem_cons_self
    obtain ⟨r', hres⟩ := Registry.changeReference_succeeds hlinked hold hnew
    obtain ⟨g', hmove⟩ := ih (g := g.setRegistry kind r') hrest fun kind' hkind' => by
      have hne : kind' ≠ kind := ne_of_mem_of_not_mem hkind' hfresh
      rw [registry_setRegistry_of_ne g r' hne]
      exact hg kind' (List.mem_cons_of_mem _ hkind')
    have hfirst := onRegistry_eq_ok_iff.mpr ⟨r', hres, rfl⟩
    exact ⟨g', bind_eq_ok_iff.mpr ⟨(), _, hfirst, hmove⟩⟩

theorem withFreshEnds_wellFormed (h : ∀ kind, (g.registry kind).WellFormed) (kind : SetKind) :
    (g.withFreshEnds.registry kind).WellFormed := by
  rw [registry_withFreshEnds]
  exact Registry.newSlot_wellFormed (Registry.newSlot_wellFormed (h kind))

theorem slots_freshEnds_snd (h : ∀ kind, (g.registry kind).WellFormed) (kind : SetKind) :
    (g.withFreshEnds.registry kind).slots[g.freshEnds.2.slot kind]? = some .vacant := by
  have hfirst := Registry.newSlot_wellFormed (h kind)
  rw [registry_withFreshEnds, (g.slot_freshEnds kind).2, Registry.slots_newSlot hfirst.freeSlots,
    if_pos rfl]

/-- An insertion does not fail for the references that it moves from slots that were handed out. -/
theorem moveReferences_freshEnds (h : ∀ kind, (g.registry kind).WellFormed) {old : LinkEnd}
    (hold : ∀ kind, old.slot kind < (g.withFreshEnds.registry kind).slotCount) :
    ∃ g', moveReferences old g.freshEnds.2 SetKind.all g.withFreshEnds = .ok () g' := by
  apply moveReferences_succeeds (by decide)
  intro kind _
  have hlinked := (withFreshEnds_wellFormed h kind).linked
  exact ⟨hlinked, hold kind, slots_freshEnds_snd h kind⟩

theorem Owned.moveReferences_succeeds (hg : g.Owned) (hl : l ∈ g.liveLinks) :
    ∃ g', moveReferences l.targetEnd g.freshEnds.2 SetKind.all g.withFreshEnds = .ok () g' := by
  apply moveReferences_freshEnds hg.wellFormed
  intro kind
  have hend : l.targetEnd.slot kind ∈ g.endSlots kind := (mem_endSlots hl kind).2
  exact (hg.withFreshEnds_allots kind).inUse.lt_slotCount (List.mem_append_left _ hend)

/-- The slots in use are those of the links that touch a node, and those of the other links. -/
theorem Owned.inUse_touching_append (hg : g.Owned) (node : NodeId) (kind : SetKind) :
    (g.registry kind).InUse (g.slotsTouching node kind ++ (g.withoutNode node).endSlots kind) :=
  (hg.inUse kind).perm (g.endSlots_withoutNode_perm node kind)

theorem Owned.withoutNode_allots (hg : g.Owned) (node : NodeId) (kind : SetKind) :
    (g.registry kind).Allots ((g.withoutNode node).registry kind)
      ((g.withoutNode node).endSlots kind) := by
  rw [registry_withoutNode]
  exact (hg.inUse_touching_append node kind).releaseAll_allots (hg.wellFormed kind)

theorem Change.allots {c : Command} (h : Change g c g') (hc : c.movesSlot = false) (hg : g.Owned)
    (kind : SetKind) : (g.registry kind).Allots (g'.registry kind) (g'.endSlots kind) := by
  cases h with
  | references h =>
    obtain ⟨hcount, hfree⟩ := h.slots_eq kind
    rw [endSlots_of_links h.links_eq]
    exact (hg.inUse kind).allots_of_eq hcount hfree
  | slots command hmoves => exact absurd hmoves (by simpa [Command.movesSlot] using hc)
  | filter name inputs outputs => exact (hg.inUse kind).allots_of_eq rfl rfl
  | link h =>
    rw [pushLink_eq, endSlots_appendLink]
    exact hg.withFreshEnds_allots kind
  | removal h => exact hg.withoutNode_allots _ kind
  | @stuck _ _ link _ _ _ l _ h hmove =>
    -- The old end is in use and the new one is vacant, so the references do move.
    have hlive : l ∈ g.liveLinks := mem_liveLinks.mpr ⟨link, (splits_of_checkInsertion h).live⟩
    obtain ⟨_, hmoved⟩ := hg.moveReferences_succeeds hlive
    rw [hmoved] at hmove
    cases hmove
  | insertion h hmove =>
    have hmoved := (moveReferences_rereferences _ _ _).of_ok hmove
    obtain ⟨hcount, hfree⟩ := hmoved.slots_eq kind
    have hfresh := hg.withFreshEnds_allots kind
    rw [endSlots_redirect, endSlots_appendLink, endSlots_of_links hmoved.links_eq]
    exact hfresh.trans (hfresh.inUse.allots_of_eq hcount hfree) (Nat.le_refl _)

/-! ## Runs -/

theorem empty_owned : empty.Owned where
  wellFormed := registry_wellFormed []
  inUse kind := by cases kind <;> exact .empty

theorem Owned.after (hg : g.Owned) {c : Command} (hc : c.movesSlot = false) :
    (g.after c).Owned where
  wellFormed := (after_change g c).registry_wellFormed hg.wellFormed
  inUse kind := ((after_change g c).allots hc hg kind).inUse

theorem Owned.run (hg : g.Owned) {cs : List Command} (hcs : ∀ c ∈ cs, c.movesSlot = false) :
    (g.run cs).Owned := by
  induction cs generalizing g with
  | nil => exact hg
  | cons c cs ih =>
    rw [List.forall_mem_cons] at hcs
    exact ih (hg.after hcs.1) hcs.2

/-- The largest number of links that there are at once in the course of a run. -/
def peakLinks (g : Graph) : List Command → Nat
  | [] => g.liveLinks.length
  | c :: cs => max g.liveLinks.length (peakLinks (g.after c) cs)

theorem Owned.two_mul_le_slotCount (hg : g.Owned) (kind : SetKind) :
    2 * g.liveLinks.length ≤ (g.registry kind).slotCount := by
  have hlength := (hg.inUse kind).length_add
  rw [length_endSlots] at hlength
  omega

/-- A registry grows in a run only to serve more links than ever before. -/
theorem Owned.slotCount_run (hg : g.Owned) {cs : List Command}
    (hcs : ∀ c ∈ cs, c.movesSlot = false) (kind : SetKind) :
    ((g.run cs).registry kind).slotCount =
      max (g.registry kind).slotCount (2 * g.peakLinks cs) := by
  induction cs generalizing g with
  | nil =>
    have hle := hg.two_mul_le_slotCount kind
    show (g.registry kind).slotCount = max _ (2 * g.liveLinks.length)
    omega
  | cons c cs ih =>
    rw [List.forall_mem_cons] at hcs
    have hle := hg.two_mul_le_slotCount kind
    have hstep := ((after_change g c).allots hcs.1 hg kind).slotCount_eq
    have hrest := ih (hg.after hcs.1) hcs.2
    have hpeak : (g.after c).liveLinks.length ≤ (g.after c).peakLinks cs := by
      cases cs with
      | nil => exact Nat.le_refl _
      | cons => exact Nat.le_max_left _ _
    rw [length_endSlots] at hstep
    rw [hstep] at hrest
    show ((g.after c).run cs |>.registry kind).slotCount = _
    rw [hrest, peakLinks]
    omega

/-- In a run that leaves the slots to the graph, no slot is lost and none is shared: those at the
ends of links are in use, each at one end, and all others are released. -/
theorem run_slots_owned (cs : List Command) (hcs : ∀ c ∈ cs, c.movesSlot = false)
    (kind : SetKind) :
    let g := run .empty cs
    let r := g.registry kind
    (g.endSlots kind).Nodup ∧
    (∀ slot ∈ g.endSlots kind,
      r.slots[slot]? = some .vacant ∨ ∃ id, r.slots[slot]? = some (.held id)) ∧
    (∀ slot ∉ g.endSlots kind,
      r.held? slot = none ∧ (slot < r.slotCount → r.slots[slot]? = some .released)) ∧
    (∀ id, r.refs id ⊆ g.endSlots kind) ∧
    (g.liveLinks = [] → r.liveSets = 0) ∧
    r.slotCount = 2 * peakLinks .empty cs := by
  intro g r
  have hg : g.Owned := empty_owned.run hcs
  have hr : r.WellFormed := hg.wellFormed kind
  have hused : r.InUse (g.endSlots kind) := hg.inUse kind
  refine ⟨hused.nodup, fun slot hs => hused.state hr.freeSlots hs, fun slot hs => ⟨?_, ?_⟩,
    hused.refs_subset hr, fun hnone => ?_, ?_⟩
  · by_contra hheld
    obtain ⟨id, hid⟩ := Option.ne_none_iff_exists'.mp hheld
    exact hs (hused.mem_of_held hr.freeSlots hid)
  · exact hused.released_of_not_mem hr.freeSlots hs
  · have hends : g.endSlots kind = [] := by rw [endSlots, hnone, List.flatMap_nil]
    rw [hends] at hused
    exact hused.liveSets_eq_zero hr
  · have hcount := empty_owned.slotCount_run hcs kind
    have hempty : (empty.registry kind).slotCount = 0 := by cases kind <;> rfl
    rwa [hempty, Nat.zero_max] at hcount

/-- A filter is put between a source and a sink, and removed again with both links; the sink is then
linked anew. -/
theorem run_slots_owned_relinked :
    let cs : List Command :=
      [.addFilter "source" [] [.audio], .addFilter "volume" [.audio] [.audio],
        .addFilter "sink" [.audio] [], .addLink ⟨⟨0, 0⟩, ⟨2, 0⟩, .audio⟩,
        .installDefaults .builtin 2, .insertFilter 0 1 0 0, .installDefaults .builtin 0,
        .negotiateLink .builtin 0, .removeNode 1, .addLink ⟨⟨0, 0⟩, ⟨2, 0⟩, .audio⟩]
    (∀ c ∈ cs, c.movesSlot = false) ∧ ((run .empty cs).endSlots .sampleRates).Nodup ∧
      ((run .empty cs).registry .sampleRates).slotCount = 4 := by
  intro cs
  have hcs : ∀ c ∈ cs, c.movesSlot = false := by simp [cs, Command.movesSlot]
  obtain ⟨hnodup, -, -, -, -, hcount⟩ := run_slots_owned cs hcs .sampleRates
  have hpeak : peakLinks .empty cs = 2 := by decide +kernel
  exact ⟨hcs, hnodup, by rw [hcount, hpeak]⟩

end FormatNegotiation.Graph
