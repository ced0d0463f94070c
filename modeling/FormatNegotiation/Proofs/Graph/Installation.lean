import FormatNegotiation.Proofs.Graph.Ownership
import FormatNegotiation.Proofs.Graph.Structure
import FormatNegotiation.Proofs.Registry.Frames

/-! Installing a set on a node reaches just those of its connected pads that the kind applies to and
that hold none yet, in the order of the pads. -/
namespace FormatNegotiation

/-! ## Pads -/

namespace FilterNode

/-- The pads of a filter, inputs before outputs. -/
def pads (n : FilterNode) : List PadRef :=
  (List.range n.inputs.length).map .input ++ (List.range n.outputs.length).map .output

/-- The media that a pad carries. -/
def media? (n : FilterNode) : PadRef → Option Media
  | .input i => n.inputs[i]?
  | .output i => n.outputs[i]?

theorem nodup_pads (n : FilterNode) : n.pads.Nodup := by
  apply List.Nodup.append
  · exact List.nodup_range.map fun _ _ => PadRef.input.inj
  · exact List.nodup_range.map fun _ _ => PadRef.output.inj
  · simp [List.Disjoint]

theorem mem_pads_of_media {n : FilterNode} {pad : PadRef} {media : Media}
    (h : n.media? pad = some media) : pad ∈ n.pads := by
  cases pad with
  | input i | output i =>
    have hbound := (List.getElem?_eq_some_iff.mp h).1
    simpa [pads] using hbound

end FilterNode

namespace Link

/-- The link starts or ends at this pad of a node. -/
def Uses (l : Link) (node : NodeId) : PadRef → Prop
  | .input i => l.target = ⟨node, i⟩
  | .output i => l.source = ⟨node, i⟩

/-- The end of the link on the side of a pad that it uses. -/
def endAt (l : Link) : PadRef → LinkEnd
  | .input _ => l.targetEnd
  | .output _ => l.sourceEnd

end Link

namespace Graph

variable {g g' : Graph} {l l' : Link} {kind : SetKind} {node : NodeId} {n : FilterNode}
  {pad pad' : PadRef} {slot : SlotId}

/-- The slot for a kind at a pad, if the pad is connected. -/
def padSlot? (g : Graph) (kind : SetKind) (node : NodeId) (pad : PadRef) : Option SlotId :=
  match g.padEnd node pad with
  | .ok e => some (e.slot kind)
  | .error _ => none

/-- The slots at those pads of a node that are connected and that the kind applies to, in the order
of the pads. -/
def padSlots (g : Graph) (kind : SetKind) (node : NodeId) (n : FilterNode) : List SlotId :=
  (n.pads.filter fun pad => (n.media? pad).any kind.appliesTo).filterMap (g.padSlot? kind node)

/-- Those of them that hold nothing. -/
def openSlots (g : Graph) (kind : SetKind) (node : NodeId) (n : FilterNode) : List SlotId :=
  (g.padSlots kind node n).filter fun slot => ((g.registry kind).held? slot).isNone

/-! ## The links at the pads -/

namespace Structured

theorem padEnd_iff (hg : g.Structured) {e : LinkEnd} : g.padEnd node pad = .ok e ↔
    ∃ id l, g.link? id = some l ∧ l.Uses node pad ∧ l.endAt pad = e := by
  cases pad with
  | input i => exact hg.padEnd_input_iff
  | output i => exact hg.padEnd_output_iff

theorem padSlot?_eq_some_iff (hg : g.Structured) : g.padSlot? kind node pad = some slot ↔
    ∃ id l, g.link? id = some l ∧ l.Uses node pad ∧ (l.endAt pad).slot kind = slot := by
  have hend : g.padSlot? kind node pad = some slot ↔
      ∃ e, g.padEnd node pad = .ok e ∧ e.slot kind = slot := by
    unfold padSlot?
    cases g.padEnd node pad <;> simp
  rw [hend]
  constructor
  · rintro ⟨e, hok, rfl⟩
    obtain ⟨id, l, hl, huses, rfl⟩ := hg.padEnd_iff.mp hok
    exact ⟨id, l, hl, huses, rfl⟩
  · rintro ⟨id, l, hl, huses, rfl⟩
    exact ⟨l.endAt pad, hg.padEnd_iff.mpr ⟨id, l, hl, huses, rfl⟩, rfl⟩

/-- A link carries the media of the pads that it uses. -/
theorem media_of_uses (hg : g.Structured) (hn : g.node? node = some n) {id : LinkId}
    (hl : g.link? id = some l) (huses : l.Uses node pad) : n.media? pad = some l.media := by
  obtain ⟨⟨source, hsource, hout⟩, ⟨target, htarget, hin⟩⟩ := hg.fits hl
  cases pad with
  | input i =>
    have hport : l.target = ⟨node, i⟩ := huses
    rw [hport] at htarget hin
    obtain rfl := Option.some.inj (hn.symm.trans htarget)
    exact hin
  | output i =>
    have hport : l.source = ⟨node, i⟩ := huses
    rw [hport] at hsource hout
    obtain rfl := Option.some.inj (hn.symm.trans hsource)
    exact hout

theorem mem_padSlots (hg : g.Structured) (hn : g.node? node = some n) :
    slot ∈ g.padSlots kind node n ↔ ∃ pad id l, g.link? id = some l ∧ kind.appliesTo l.media ∧
      l.Uses node pad ∧ (l.endAt pad).slot kind = slot := by
  simp only [padSlots, List.mem_filterMap, List.mem_filter, Option.any_eq_true,
    hg.padSlot?_eq_some_iff]
  constructor
  · rintro ⟨pad, ⟨-, media, hmedia, happlies⟩, id, l, hl, huses, hslot⟩
    obtain rfl := Option.some.inj (hmedia.symm.trans (hg.media_of_uses hn hl huses))
    exact ⟨pad, id, l, hl, happlies, huses, hslot⟩
  · rintro ⟨pad, id, l, hl, happlies, huses, hslot⟩
    have hmedia := hg.media_of_uses hn hl huses
    exact ⟨pad, ⟨FilterNode.mem_pads_of_media hmedia, l.media, hmedia, happlies⟩, id, l, hl,
      huses, hslot⟩

end Structured

theorem mem_endSlots_of_endAt (hl : l ∈ g.liveLinks) (pad : PadRef) (kind : SetKind) :
    (l.endAt pad).slot kind ∈ g.endSlots kind := by
  cases pad with
  | input i => exact (mem_endSlots hl kind).2
  | output i => exact (mem_endSlots hl kind).1

/-- Different pads have different slots. -/
theorem Owned.padSlot?_inj (hg : g.Owned) (hs : g.Structured)
    (h : g.padSlot? kind node pad = some slot) (h' : g.padSlot? kind node pad' = some slot) :
    pad = pad' := by
  obtain ⟨id, l, hl, huses, hslot⟩ := hs.padSlot?_eq_some_iff.mp h
  obtain ⟨id', l', hl', huses', hslot'⟩ := hs.padSlot?_eq_some_iff.mp h'
  have hlive : l ∈ g.liveLinks := mem_liveLinks.mpr ⟨id, hl⟩
  have hlive' : l' ∈ g.liveLinks := mem_liveLinks.mpr ⟨id', hl'⟩
  -- The slot decides the link, and then the end of it.
  have hend (l : Link) (pad : PadRef) :
      (l.endAt pad).slot kind ∈ [l.sourceEnd.slot kind, l.targetEnd.slot kind] := by
    cases pad <;> simp [Link.endAt]
  obtain rfl := hg.eq_of_shared_slot hlive hlive' (hslot ▸ hend l pad) (hslot' ▸ hend l' pad')
  have hne := hg.slot_source_ne_target hlive kind
  have hsame := hslot.trans hslot'.symm
  cases pad with
  | input i =>
    cases pad' with
    | input j => exact congrArg PadRef.input (Port.mk.inj (huses.symm.trans huses')).2
    | output j => exact absurd hsame.symm hne
  | output i =>
    cases pad' with
    | input j => exact absurd hsame hne
    | output j => exact congrArg PadRef.output (Port.mk.inj (huses.symm.trans huses')).2

theorem Owned.nodup_padSlots (hg : g.Owned) (hs : g.Structured) :
    (g.padSlots kind node n).Nodup :=
  (n.nodup_pads.filter _).filterMap fun _ _ _ => hg.padSlot?_inj hs

/-! ## The pads that an installation reaches -/

/-- The link at a pad, found as an installation finds it. -/
def padLink? (g : Graph) (node : NodeId) : PadRef → Option Link
  | .input i => g.inputLink? ⟨node, i⟩
  | .output i => g.outputLink? ⟨node, i⟩

theorem padEnds_eq_filterMap (g : Graph) (n : FilterNode) (node : NodeId) :
    g.padEnds n node =
      n.pads.filterMap fun pad => (g.padLink? node pad).map fun l => (l.media, l.endAt pad) := by
  rw [FilterNode.pads, List.filterMap_append, List.filterMap_map, List.filterMap_map]
  rfl

theorem Structured.padLink?_eq_some_iff (hg : g.Structured) :
    g.padLink? node pad = some l ↔ (∃ id, g.link? id = some l) ∧ l.Uses node pad := by
  cases pad with
  | input i => exact hg.inputLink?_eq_some_iff
  | output i => exact hg.outputLink?_eq_some_iff

theorem Structured.eligibleSlots_eq (hg : g.Structured) (hn : g.node? node = some n) :
    g.eligibleSlots kind node = .ok (g.openSlots kind node n) := by
  have hpad : ∀ pad, (((g.padLink? node pad).map fun l => (l.media, l.endAt pad)).filter
      fun p => kind.appliesTo p.1).map (fun p => p.2.slot kind) =
        if (n.media? pad).any kind.appliesTo then g.padSlot? kind node pad else none := by
    intro pad
    cases hlink : g.padLink? node pad with
    | none =>
      have hnone : g.padSlot? kind node pad = none := by
        rw [Option.eq_none_iff_forall_ne_some]
        intro slot hslot
        obtain ⟨id, l, hl, huses, -⟩ := hg.padSlot?_eq_some_iff.mp hslot
        cases hlink.symm.trans (hg.padLink?_eq_some_iff.mpr ⟨⟨id, hl⟩, huses⟩)
      rw [hnone, ite_self]
      rfl
    | some l =>
      obtain ⟨⟨id, hl⟩, huses⟩ := hg.padLink?_eq_some_iff.mp hlink
      have hslot : g.padSlot? kind node pad = some ((l.endAt pad).slot kind) :=
        hg.padSlot?_eq_some_iff.mpr ⟨id, l, hl, huses, rfl⟩
      rw [hslot, hg.media_of_uses hn hl huses]
      cases happlies : kind.appliesTo l.media <;> simp [happlies]
  unfold eligibleSlots
  rw [hn]
  simp only [padEnds_eq_filterMap, List.filter_filterMap, List.map_filterMap, hpad, openSlots,
    padSlots, List.filterMap_filter]

/-! ## Installations -/

variable {contents : kind.Contents}

theorem install_eq_ok_iff : install kind contents node g = .ok () g' ↔
    ∃ slots id? r, g.eligibleSlots kind node = .ok slots ∧
      Registry.attach contents slots (g.registry kind) = .ok id? r ∧
      g' = g.setRegistry kind r := by
  unfold install
  cases g.eligibleSlots kind node with
  | error e => simp
  | ok slots =>
    have hattach : (discard (onRegistry kind (Registry.attach contents slots))) g = .ok () g' ↔ _ :=
      map_eq_ok_iff
    simp [hattach, onRegistry_eq_ok_iff]

/-- The slots of pads are in use, so those that hold nothing are vacant. -/
theorem Owned.openSlots_vacant (hg : g.Owned) (hs : g.Structured) (hn : g.node? node = some n)
    (hopen : slot ∈ g.openSlots kind node n) :
    (g.registry kind).slots[slot]? = some .vacant := by
  obtain ⟨hpad, hnone⟩ := List.mem_filter.mp hopen
  obtain ⟨pad, id, l, hl, -, -, rfl⟩ := (hs.mem_padSlots hn).mp hpad
  have hused := mem_endSlots_of_endAt (mem_liveLinks.mpr ⟨id, hl⟩) pad kind
  apply Registry.vacant_of_held?_none
  · exact (hg.inUse kind).not_unused (hg.wellFormed kind).freeSlots hused
  · simpa using hnone

/-- On a node that is there an installation succeeds. -/
theorem Owned.install_succeeds (hg : g.Owned) (hs : g.Structured) (hn : g.node? node = some n)
    (contents : kind.Contents) : ∃ r, install kind contents node g = .ok () (g.setRegistry kind r) ∧
      (g.registry kind).Installs r contents (g.openSlots kind node n) := by
  have hnd : (g.openSlots kind node n).Nodup := (hg.nodup_padSlots hs).filter _
  obtain ⟨id?, r, hattach⟩ := Registry.attach_succeeds hnd
    (fun _ hopen => hg.openSlots_vacant hs hn hopen) contents
  refine ⟨r, install_eq_ok_iff.mpr ?_, Registry.attach_installs (hg.wellFormed kind) hattach⟩
  exact ⟨_, id?, r, hs.eligibleSlots_eq hn, hattach, rfl⟩

/-- An installation leaves no pad open. -/
theorem held?_padSlots_of_installs {r : Registry kind.Contents}
    (h : (g.registry kind).Installs r contents (g.openSlots kind node n))
    (hpad : slot ∈ g.padSlots kind node n) : r.held? slot ≠ none := by
  by_cases hopen : slot ∈ g.openSlots kind node n
  · exact h.held?_ne_none hopen
  · rw [Registry.held?_congr (h.slots_eq hopen)]
    intro hnone
    exact hopen (List.mem_filter.mpr ⟨hpad, by simp [hnone]⟩)

/-- Without open pads an installation does nothing. -/
theorem Structured.install_of_held (hg : g.Structured) (hn : g.node? node = some n)
    (hheld : ∀ slot ∈ g.padSlots kind node n, (g.registry kind).held? slot ≠ none)
    (contents : kind.Contents) : install kind contents node g = .ok () g := by
  have hnone : g.openSlots kind node n = [] :=
    List.filter_eq_nil_iff.mpr fun slot hpad => by simpa using hheld slot hpad
  have heligible : g.eligibleSlots kind node = .ok [] := by rw [hg.eligibleSlots_eq hn, hnone]
  apply install_eq_ok_iff.mpr
  exact ⟨[], none, g.registry kind, heligible, rfl, (setRegistry_self g kind).symm⟩

/-- After a run that leaves the slots to the graph, an installation on a node that is there
succeeds, and only the registry of its kind changes. It gains the set, referenced from the open pads
in their order. All pads of the node that are connected and that the kind applies to then hold a
set, so that there is nothing left for a second installation to do. -/
theorem run_installations_exact (cs : List Command) (hcs : ∀ c ∈ cs, c.movesSlot = false)
    (kind : SetKind) (contents : kind.Contents) (node : NodeId) (n : FilterNode)
    (hn : (run .empty cs).node? node = some n) :
    let g := run .empty cs
    (∀ slot, slot ∈ g.padSlots kind node n ↔ ∃ pad id l, g.link? id = some l ∧
      kind.appliesTo l.media ∧ l.Uses node pad ∧ (l.endAt pad).slot kind = slot) ∧
    ∃ r, install kind contents node g = .ok () (g.setRegistry kind r) ∧
      (g.registry kind).Installs r contents (g.openSlots kind node n) ∧
      (∀ slot ∈ g.padSlots kind node n, ∃ set, r.held? slot = some set) ∧
      ∀ contents', install kind contents' node (g.setRegistry kind r) =
        .ok () (g.setRegistry kind r) := by
  intro g
  have hg : g.Owned := empty_owned.run hcs
  have hs : g.Structured := empty_structured.run cs
  obtain ⟨r, hres, hinstalls⟩ := hg.install_succeeds hs hn contents
  have hheld : ∀ slot ∈ g.padSlots kind node n, r.held? slot ≠ none :=
    fun _ hpad => held?_padSlots_of_installs hinstalls hpad
  have hs' : (g.setRegistry kind r).Structured := hs.congr (fun _ => rfl) fun _ => rfl
  refine ⟨fun slot => hs.mem_padSlots hn, r, hres, hinstalls,
    fun slot hpad => Option.ne_none_iff_exists'.mp (hheld slot hpad), fun contents' => ?_⟩
  apply hs'.install_of_held hn
  rw [registry_setRegistry_self]
  exact hheld

/-- A mixer with two inputs, one of which holds a set already. Only the other one gets the new set.
-/
theorem run_installations_exact_mixer :
    let cs : List Command :=
      [.addFilter "left" [] [.audio], .addFilter "right" [] [.audio],
        .addFilter "mix" [.audio, .audio] [.audio], .addLink ⟨⟨0, 0⟩, ⟨2, 0⟩, .audio⟩,
        .addLink ⟨⟨1, 0⟩, ⟨2, 1⟩, .audio⟩, .onRegistry .formats (.attach [1] [1])]
    let mix : FilterNode := ⟨2, "mix", [.audio, .audio], [.audio]⟩
    (∀ c ∈ cs, c.movesSlot = false) ∧ (run .empty cs).node? 2 = some mix ∧
      (run .empty cs).padSlots .formats 2 mix = [1, 3] ∧
      ∃ r set, install .formats [1, 2] 2 (run .empty cs) =
          .ok () ((run .empty cs).setRegistry .formats r) ∧
        r.find? set = some ⟨[1, 2], [3]⟩ ∧ r.find? ⟨0, 0⟩ = some ⟨[1], [1]⟩ := by
  intro cs mix
  have hcs : ∀ c ∈ cs, c.movesSlot = false := by
    simp [cs, Command.movesSlot, Registry.Command.movesSlot]
  have hnode : (run .empty cs).node? 2 = some mix := by decide +kernel
  have hpads : (run .empty cs).padSlots .formats 2 mix = [1, 3] := by decide +kernel
  have hopen : (run .empty cs).openSlots .formats 2 mix = [3] := by decide +kernel
  have hheld : ((run .empty cs).registry .formats).find? ⟨0, 0⟩ = some ⟨[1], [1]⟩ := by
    decide +kernel
  obtain ⟨-, r, hres, ⟨-, hgains⟩, -⟩ :=
    run_installations_exact cs hcs .formats [1, 2] 2 mix hnode
  rw [hopen] at hgains
  obtain ⟨set, hgains⟩ := hgains (by simp)
  have hne : (⟨0, 0⟩ : SetId) ≠ set := by
    rintro rfl
    exact hgains.not_isLive (Option.isSome_of_eq_some hheld)
  refine ⟨hcs, hnode, hpads, r, set, hres, ?_, ?_⟩
  · rw [hgains.find?_eq, if_pos rfl]
  · rw [hgains.find?_eq, if_neg hne, hheld]

end Graph

end FormatNegotiation
