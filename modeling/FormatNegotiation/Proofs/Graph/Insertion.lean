import FormatNegotiation.Proofs.Graph.Ownership
import FormatNegotiation.Proofs.Registry.Frames

/-! Inserting a filter moves what the target end of the link references to the target end of the new
link, set by set in the same place, and leaves all else as it was. -/
namespace FormatNegotiation

theorem SetKind.mem_all (kind : SetKind) : kind ∈ SetKind.all := by
  cases kind <;> decide

namespace Graph

variable {g g' : Graph} {l : Link} {link id : LinkId} {node : NodeId} {inPad outPad : PadId}

/-! ## The references that move -/

/-- The kinds have nothing to do with each other: in the registry of each of them one reference is
moved, and no other kind is touched. -/
theorem registry_moveReferences {old new : LinkEnd} {kinds : List SetKind} (hnodup : kinds.Nodup)
    (h : moveReferences old new kinds g = .ok () g') (kind : SetKind) :
    (kind ∈ kinds → Registry.changeReference (old.slot kind) (new.slot kind) (g.registry kind) =
      .ok () (g'.registry kind)) ∧
    (kind ∉ kinds → g'.registry kind = g.registry kind) := by
  induction kinds generalizing g with
  | nil =>
    cases h
    exact ⟨fun hmem => absurd hmem List.not_mem_nil, fun _ => rfl⟩
  | cons first rest ih =>
    obtain ⟨hfresh, hrest⟩ := List.nodup_cons.mp hnodup
    obtain ⟨_, _, hfirst, hmoved⟩ := bind_eq_ok_iff.mp h
    obtain ⟨r, hchange, rfl⟩ := onRegistry_eq_ok_iff.mp hfirst
    obtain ⟨hin, hout⟩ := ih hrest hmoved
    by_cases hkind : kind = first
    · subst hkind
      rw [hout hfresh, registry_setRegistry_self]
      exact ⟨fun _ => hchange, fun hmem => absurd List.mem_cons_self hmem⟩
    · rw [registry_setRegistry_of_ne g r hkind] at hin hout
      constructor
      · exact fun hmem => hin ((List.mem_cons.mp hmem).resolve_left hkind)
      · exact fun hmem => hout fun hlater => hmem (List.mem_cons_of_mem first hlater)

/-- An insertion that succeeds has passed its checks and moved the references. -/
theorem insertFilter_eq_ok (h : insertFilter link node inPad outPad g = .ok id g') :
    ∃ l moved, g.checkInsertion link node inPad outPad = .ok l ∧
      moveReferences l.targetEnd g.freshEnds.2 SetKind.all g.withFreshEnds = .ok () moved ∧
      id = g.links.size ∧
      g' = (moved.appendLink (g.nextLink ⟨⟨node, outPad⟩, l.target, l.media⟩)).redirect link
        ⟨node, inPad⟩ := by
  cases hcheck : g.checkInsertion link node inPad outPad with
  | error e =>
    unfold insertFilter at h
    rw [hcheck] at h
    cases h
  | ok l =>
    rw [insertFilter_of_check hcheck] at h
    cases hmove : moveReferences l.targetEnd g.freshEnds.2 SetKind.all g.withFreshEnds with
    | error e moved =>
      rw [hmove] at h
      cases h
    | ok u moved =>
      rw [hmove] at h
      cases h
      exact ⟨l, moved, rfl, hmove, rfl, rfl⟩

/-- The target end of a link is in use, so in every registry its reference moves to a slot that was
in no use before. -/
theorem Owned.relocates (hg : g.Owned) (hl : l ∈ g.liveLinks)
    (hmove : moveReferences l.targetEnd g.freshEnds.2 SetKind.all g.withFreshEnds = .ok () g')
    (kind : SetKind) :
    (g.registry kind).Relocates (g'.registry kind) (l.targetEnd.slot kind)
      (g.freshEnds.1.slot kind) (g.freshEnds.2.slot kind) := by
  have hused : ¬ (g.registry kind).Unused (l.targetEnd.slot kind) := by
    apply (hg.inUse kind).not_unused (hg.wellFormed kind).freeSlots
    exact (mem_endSlots hl kind).2
  have hchange := (registry_moveReferences (by decide) hmove kind).1 (SetKind.mem_all kind)
  obtain ⟨hfirst, hsecond⟩ := g.slot_freshEnds kind
  rw [registry_withFreshEnds, hsecond] at hchange
  rw [hfirst, hsecond]
  exact Registry.changeReference_relocates (hg.wellFormed kind) hused hchange

/-! ## The links afterwards -/

theorem link?_inserted (hl : g.link? link = some l) (hlinks : g'.links = g.links) (added : Link)
    (target : Port) (id : LinkId) :
    ((g'.appendLink added).redirect link target).link? id =
      if id = link then some { l with target }
      else if id = g.links.size then some added
      else g.link? id := by
  have hne : link ≠ g.links.size := Nat.ne_of_lt (lt_size_of_link? hl)
  have hlink : g'.link? id = g.link? id := by rw [link?, hlinks, link?]
  rw [link?_redirect, link?_appendLink, hlinks, hlink]
  by_cases hid : id = link
  · subst hid
    rw [if_pos rfl, if_neg hne, hl, if_pos rfl, Option.map_some]
  · rw [if_neg hid, if_neg hid]

/-- After a run that leaves the slots to the graph, an insertion that succeeds does this and nothing
else: the link ends at the filter, with nothing at its target end; a new link leads from the filter
to where the link ended, with nothing at its source end; and of every kind its target end holds the
set that the target end of the link held, in the same place among the references of that set. -/
theorem run_insertions_exact (cs : List Command) (hcs : ∀ c ∈ cs, c.movesSlot = false)
    (link : LinkId) (node : NodeId) (inPad outPad : PadId) (id : LinkId) (g' : Graph)
    (h : insertFilter link node inPad outPad (run .empty cs) = .ok id g') :
    let g := run .empty cs
    ∃ l sourceEnd targetEnd, g.link? link = some l ∧ id = g.links.size ∧
      g'.link? link = some { l with target := ⟨node, inPad⟩ } ∧
      g'.link? id = some
        { source := ⟨node, outPad⟩, target := l.target, media := l.media, id, sourceEnd,
          targetEnd } ∧
      (∀ id', id' ≠ link → id' ≠ id → g'.link? id' = g.link? id') ∧
      (∀ id', g'.node? id' = g.node? id') ∧
      ∀ kind,
        let r := g.registry kind
        let r' := g'.registry kind
        let old := l.targetEnd.slot kind
        let new := targetEnd.slot kind
        r'.held? (l.sourceEnd.slot kind) = r.held? (l.sourceEnd.slot kind) ∧
        r'.slots[old]? = some .vacant ∧
        r'.slots[sourceEnd.slot kind]? = some .vacant ∧
        r'.held? new = r.held? old ∧
        (∀ set, r'.refs set = (r.refs set).replace old new) ∧
        (∀ set, r'.refcount set = r.refcount set ∧ r'.contents? set = r.contents? set) ∧
        (∀ set, r.held? old ≠ some set → r'.find? set = r.find? set) ∧
        (∀ slot ∈ g.endSlots kind, slot ≠ old → r'.slots[slot]? = r.slots[slot]?) ∧
        ∀ slot, slot ≠ old → slot ≠ sourceEnd.slot kind → slot ≠ new →
          r'.slots[slot]? = r.slots[slot]? := by
  intro g
  have hg : g.Owned := empty_owned.run hcs
  obtain ⟨l, moved, hcheck, hmove, rfl, rfl⟩ := insertFilter_eq_ok h
  have hlink : g.link? link = some l := (splits_of_checkInsertion hcheck).live
  have hlive : l ∈ g.liveLinks := mem_liveLinks.mpr ⟨link, hlink⟩
  have hmoved := (moveReferences_rereferences _ _ _).of_ok hmove
  have hlinks := link?_inserted hlink hmoved.links_eq
    (g.nextLink ⟨⟨node, outPad⟩, l.target, l.media⟩) ⟨node, inPad⟩
  have hne : g.links.size ≠ link := Nat.ne_of_gt (lt_size_of_link? hlink)
  refine ⟨l, g.freshEnds.1, g.freshEnds.2, hlink, rfl, ?_, ?_, fun id' hid hid' => ?_,
    fun id' => ?_, fun kind => ?_⟩
  · rw [hlinks, if_pos rfl]
  · rw [hlinks, if_neg hne, if_pos rfl]
    rfl
  · rw [hlinks, if_neg hid, if_neg hid']
  · show (moved.nodes[id']?).join = (g.nodes[id']?).join
    rw [hmoved.nodes_eq, withFreshEnds]
  · have hr : (g.registry kind).WellFormed := hg.wellFormed kind
    have hrelocates := hg.relocates hlive hmove kind
    have hkept : ∀ slot ∈ g.endSlots kind, slot ≠ l.targetEnd.slot kind →
        (moved.registry kind).slots[slot]? = (g.registry kind).slots[slot]? :=
      fun slot hs => hrelocates.slots_eq_of_used ((hg.inUse kind).not_unused hr.freeSlots hs)
    have hsource : l.sourceEnd.slot kind ∈ g.endSlots kind := (mem_endSlots hlive kind).1
    have hsourceKept := hkept _ hsource (hg.slot_source_ne_target hlive kind)
    exact ⟨Registry.held?_congr hsourceKept, hrelocates.old_vacant, hrelocates.spare_vacant,
      hrelocates.held?_new, hrelocates.refs_eq,
      fun set => ⟨hrelocates.refcount_eq set, hrelocates.contents?_eq set⟩,
      fun set => hrelocates.find?_eq_of_ne hr.linked, hkept, fun slot => hrelocates.slots_eq⟩

/-- The link has been negotiated, so both of its ends hold the same sets when the filter is put in;
they still do so, one at either side of the filter. -/
theorem run_insertions_exact_negotiated :
    let cs : List Command :=
      [.addFilter "source" [] [.audio], .addFilter "volume" [.audio] [.audio],
        .addFilter "sink" [.audio] [], .addLink ⟨⟨0, 0⟩, ⟨2, 0⟩, .audio⟩,
        .installDefaults .builtin 0, .installDefaults .builtin 2, .negotiateLink .builtin 0]
    (∀ c ∈ cs, c.movesSlot = false) ∧ ((run .empty cs).registry .formats).refs ⟨0, 0⟩ = [0, 1] ∧
      ∃ g', insertFilter 0 1 0 0 (run .empty cs) = .ok 1 g' ∧
        (g'.registry .formats).refs ⟨0, 0⟩ = [0, 3] ∧
        (g'.registry .formats).refcount ⟨0, 0⟩ = 2 := by
  intro cs
  have hcs : ∀ c ∈ cs, c.movesSlot = false := by simp [cs, Command.movesSlot]
  have hrefs : ((run .empty cs).registry .formats).refs ⟨0, 0⟩ = [0, 1] := by decide +kernel
  obtain ⟨g', hres⟩ : ∃ g', insertFilter 0 1 0 0 (run .empty cs) = .ok 1 g' :=
    exists_ok_of_run' (by decide +kernel)
  obtain ⟨l, sourceEnd, targetEnd, hl, -, -, hadded, -, -, hkinds⟩ :=
    run_insertions_exact cs hcs 0 1 0 0 1 g' hres
  obtain ⟨-, -, -, -, hmoved, hcounts, -⟩ := hkinds .formats
  have hold : ((run .empty cs).link? 0).map (·.targetEnd.formats) = some 1 := by decide +kernel
  have hnew : ((stateAfter (insertFilter 0 1 0 0) (run .empty cs)).link? 1).map
      (·.targetEnd.formats) = some 3 := by decide +kernel
  rw [hl] at hold
  rw [stateAfter_of_ok hres, hadded] at hnew
  have hold' : l.targetEnd.slot .formats = 1 := Option.some.inj hold
  have hnew' : targetEnd.slot .formats = 3 := Option.some.inj hnew
  refine ⟨hcs, hrefs, g', hres, ?_, ?_⟩
  · rw [hmoved, hrefs, hold', hnew']
    rfl
  · rw [(hcounts ⟨0, 0⟩).1, Registry.refcount, hrefs]
    rfl

end Graph

end FormatNegotiation
