import FormatNegotiation.Proofs.Graph.Ownership
import FormatNegotiation.Proofs.Registry.Frames

/-! Removing a node takes the links that touch it out of the graph and their slots out of the
registries, and leaves all else as it was. -/
namespace FormatNegotiation.Graph

variable {g : Graph} {node : NodeId} {n : FilterNode}

theorem removeNode_of_live (hn : g.node? node = some n) :
    removeNode node g = .ok () (g.withoutNode node) := by
  unfold removeNode
  rw [hn]
  rfl

theorem mem_slotsTouching {kind : SetKind} {slot : SlotId} :
    slot ∈ g.slotsTouching node kind ↔ ∃ id l, g.link? id = some l ∧
      (l.source.node = node ∨ l.target.node = node) ∧
      (slot = l.sourceEnd.slot kind ∨ slot = l.targetEnd.slot kind) := by
  simp only [slotsTouching, touching, List.mem_flatMap, List.mem_filter, mem_liveLinks,
    Link.touches, Bool.or_eq_true, decide_eq_true_eq, List.mem_pair]
  constructor
  · rintro ⟨l, ⟨⟨id, hl⟩, htouches⟩, hslot⟩
    exact ⟨id, l, hl, htouches, hslot⟩
  · rintro ⟨id, l, hl, htouches, hslot⟩
    exact ⟨l, ⟨⟨id, hl⟩, htouches⟩, hslot⟩

/-- No slot is at two ends, so the links that stay keep theirs. -/
theorem Owned.not_mem_slotsTouching (hg : g.Owned) {kind : SetKind} {slot : SlotId}
    (hs : slot ∈ (g.withoutNode node).endSlots kind) : slot ∉ g.slotsTouching node kind := by
  intro hgone
  have hnodup := (hg.inUse_touching_append node kind).nodup
  exact (List.nodup_append.mp hnodup).2.2 slot hgone slot hs rfl

theorem Owned.withoutNode_drops (hg : g.Owned) (node : NodeId) (kind : SetKind) :
    (g.registry kind).Drops ((g.withoutNode node).registry kind) (g.slotsTouching node kind) := by
  rw [registry_withoutNode]
  exact Registry.releaseAll_drops (hg.wellFormed kind) _

/-- After a run that leaves the slots to the graph, the removal of a node succeeds and does this and
nothing else: the links that touch the node are gone, their slots are taken back, every set loses
the references from these slots and no others, and the sets that had no others are gone. -/
theorem run_removals_exact (cs : List Command) (hcs : ∀ c ∈ cs, c.movesSlot = false)
    (node : NodeId) (n : FilterNode) (hn : (run .empty cs).node? node = some n) :
    let g := run .empty cs
    ∃ g', removeNode node g = .ok () g' ∧
      (∀ id, g'.node? id = if id = node then none else g.node? id) ∧
      (∀ id l, g'.link? id = some l ↔
        g.link? id = some l ∧ l.source.node ≠ node ∧ l.target.node ≠ node) ∧
      ∀ kind,
        let r := g.registry kind
        let r' := g'.registry kind
        let gone := g.slotsTouching node kind
        (∀ slot, slot ∈ gone ↔ ∃ id l, g.link? id = some l ∧
          (l.source.node = node ∨ l.target.node = node) ∧
          (slot = l.sourceEnd.slot kind ∨ slot = l.targetEnd.slot kind)) ∧
        (∀ id l, g'.link? id = some l →
          r'.slots[l.sourceEnd.slot kind]? = r.slots[l.sourceEnd.slot kind]? ∧
          r'.slots[l.targetEnd.slot kind]? = r.slots[l.targetEnd.slot kind]?) ∧
        (∀ set, r'.refs set = (r.refs set).filter (· ∉ gone)) ∧
        (∀ set, r'.isLive set ↔ r.isLive set ∧ ∃ slot ∈ r.refs set, slot ∉ gone) ∧
        (∀ set, r'.isLive set → r'.contents? set = r.contents? set) ∧
        (∀ slot ∈ gone, r'.slots[slot]? = some .released) ∧
        ∀ slot, slot ∉ gone → r'.slots[slot]? = r.slots[slot]? := by
  intro g
  have hg : g.Owned := empty_owned.run hcs
  refine ⟨g.withoutNode node, removeNode_of_live hn, g.node?_withoutNode node,
    fun id l => link?_withoutNode_eq_some_iff, fun kind => ?_⟩
  have hdrops := hg.withoutNode_drops node kind
  refine ⟨fun slot => mem_slotsTouching, fun id l hl => ?_, hdrops.refs_eq, hdrops.isLive_iff,
    fun set => hdrops.contents?_eq, fun slot hs => ?_, fun slot => hdrops.slots_eq⟩
  · obtain ⟨hsource, htarget⟩ := mem_endSlots (mem_liveLinks.mpr ⟨id, hl⟩) kind
    exact ⟨hdrops.slots_eq (hg.not_mem_slotsTouching hsource),
      hdrops.slots_eq (hg.not_mem_slotsTouching htarget)⟩
  · have hused := hg.inUse_touching_append node kind
    exact hdrops.released hs (hused.lt_slotCount (List.mem_append_left _ hs))

/-- One set of sample rates is shared along a chain, and another set of formats is only at its end.
The last node goes with the second set, and the first set keeps its other two references, in the
order in which the merges left them. -/
theorem run_removals_exact_chain :
    let cs : List Command :=
      [.addFilter "source" [] [.audio], .addFilter "volume" [.audio] [.audio],
        .addFilter "sink" [.audio] [], .addLink ⟨⟨0, 0⟩, ⟨1, 0⟩, .audio⟩,
        .addLink ⟨⟨1, 0⟩, ⟨2, 0⟩, .audio⟩, .installDefaults .builtin 0,
        .install .sampleRates [48000] 1, .installDefaults .builtin 2, .negotiateLink .builtin 0,
        .negotiateLink .builtin 1]
    (∀ c ∈ cs, c.movesSlot = false) ∧
      (run .empty cs).node? 2 = some ⟨2, "sink", [.audio], []⟩ ∧
      ((run .empty cs).registry .sampleRates).refs ⟨1, 0⟩ = [1, 2, 0, 3] ∧
      ((run .empty cs).registry .formats).refs ⟨1, 0⟩ = [3] ∧
      ∃ g', removeNode 2 (run .empty cs) = .ok () g' ∧
        (g'.registry .sampleRates).refs ⟨1, 0⟩ = [1, 0] ∧
        ¬ (g'.registry .formats).isLive ⟨1, 0⟩ := by
  intro cs
  have hcs : ∀ c ∈ cs, c.movesSlot = false := by simp [cs, Command.movesSlot]
  have hnode : (run .empty cs).node? 2 = some ⟨2, "sink", [.audio], []⟩ := by decide +kernel
  have hrates : ((run .empty cs).registry .sampleRates).refs ⟨1, 0⟩ = [1, 2, 0, 3] := by
    decide +kernel
  have hformats : ((run .empty cs).registry .formats).refs ⟨1, 0⟩ = [3] := by decide +kernel
  have hgone : (run .empty cs).slotsTouching 2 .sampleRates = [2, 3] ∧
      (run .empty cs).slotsTouching 2 .formats = [2, 3] := by decide +kernel
  obtain ⟨g', hres, -, -, hkinds⟩ := run_removals_exact cs hcs 2 _ hnode
  obtain ⟨-, -, hleft, -⟩ := hkinds .sampleRates
  obtain ⟨-, -, -, hlive, -⟩ := hkinds .formats
  refine ⟨hcs, hnode, hrates, hformats, g', hres, ?_, ?_⟩
  · rw [hleft, hrates, hgone.1]
    rfl
  · rw [hlive, hformats, hgone.2]
    simp

end FormatNegotiation.Graph
