import FormatNegotiation.Proofs.Graph.Negotiation
import FormatNegotiation.Proofs.Registry.SlotView

/-! Links that can all be negotiated can be negotiated in any order, and lead to the same graph up
to the names of its sets. -/
namespace FormatNegotiation

namespace SetKind

/-- What a set of this kind accepts or does not accept. -/
abbrev Value : SetKind → Type
  | .formats => FormatId
  | .sampleRates => FormatId
  | .channelLayouts => ChannelLayout

/-- Whether a set of this kind accepts a value. -/
def Accepts : (kind : SetKind) → kind.Contents → kind.Value → Prop
  | .formats => fun formats format => format ∈ formats
  | .sampleRates => FormatList.AcceptsRate
  | .channelLayouts => fun layouts layout => layouts.accepts layout

/-- The contents that come down to the values that they accept. -/
def Plain : (kind : SetKind) → kind.Contents → Prop
  | .formats => fun _ => True
  | .sampleRates => fun _ => True
  | .channelLayouts => LayoutSet.Plain

theorem rule_exact {media : Media} (hmedia : media ≠ .video) (catalog : Catalog)
    (kind : SetKind) : ExactRule (kind.rule media catalog) kind.Plain kind.Accepts := by
  cases kind with
  | formats => exact FormatList.formats_exact hmedia catalog
  | sampleRates => exact FormatList.rates_exact
  | channelLayouts => exact LayoutSet.layouts_exact

end SetKind

/-! ## Actions one after the other -/

theorem mapM_cons_eq_ok {ε σ α β : Type} {f : α → EStateM ε σ β} {a : α} {as : List α}
    {b : β} {bs : List β} {s s'' : σ} :
    (a :: as).mapM f s = .ok (b :: bs) s'' ↔
      ∃ s', f a s = .ok b s' ∧ as.mapM f s' = .ok bs s'' := by
  rw [List.mapM_cons]
  simp only [bind, EStateM.bind, pure, EStateM.pure]
  cases f a s with
  | error e s' => simp
  | ok x s' =>
    cases hrest : as.mapM f s' with
    | error e s'' => simp [hrest]
    | ok xs s'' => simp [hrest, and_assoc]

namespace Graph

variable {g g' : Graph} {catalog : Catalog} {link : LinkId} {l : Link} {kind : SetKind}

/-- The slots of a kind, without the names of the sets that they share. -/
def slotView (g : Graph) (kind : SetKind) : Sharing kind.Value :=
  (g.registry kind).slotView kind.Accepts

/-- The registries are as runs leave them, and hold only contents that come down to values. -/
structure Plain (g : Graph) : Prop where
  wellFormed (kind : SetKind) : (g.registry kind).WellFormed
  allPlain (kind : SetKind) : (g.registry kind).AllPlain kind.Plain

/-- The slots that the negotiation of a link joins, if the link is live and the kind matters. -/
def joinedSlots (g : Graph) (kind : SetKind) (link : LinkId) : List (SlotId × SlotId) :=
  match g.link? link with
  | some l =>
    if kind ∈ SetKind.applicable l.media then
      [(l.sourceEnd.slot kind, l.targetEnd.slot kind)]
    else []
  | none => []

theorem link?_congr (h : g'.links = g.links) (link : LinkId) : g'.link? link = g.link? link := by
  simp only [link?, h]

theorem joinedSlots_congr (h : g'.links = g.links) (kind : SetKind) :
    g'.joinedSlots kind = g.joinedSlots kind := by
  funext link
  simp only [joinedSlots, link?_congr h]

/-! ## Negotiating one link -/

theorem not_refuses_iff_joinable (hg : g.Plain) (hmedia : l.media ≠ .video) :
    ¬ g.Refuses catalog l kind ↔
      (g.slotView kind).Joinable (l.sourceEnd.slot kind) (l.targetEnd.slot kind) := by
  have hrule := SetKind.rule_exact hmedia catalog kind
  have hrefuses := Registry.refuses_iff_not_joinable (s := l.sourceEnd.slot kind)
    (t := l.targetEnd.slot kind) hrule (hg.wellFormed kind) (hg.allPlain kind)
  exact (not_congr hrefuses).trans not_not

theorem allJoinable_joinedSlots (hl : g.link? link = some l) :
    (g.slotView kind).AllJoinable (g.joinedSlots kind link) ↔
      (kind ∈ SetKind.applicable l.media →
        (g.slotView kind).Joinable (l.sourceEnd.slot kind) (l.targetEnd.slot kind)) := by
  simp only [joinedSlots, hl]
  split
  · rename_i hkind
    simp [hkind, Sharing.AllJoinable]
  · rename_i hkind
    simp [hkind, Sharing.AllJoinable]

theorem JoinsEnds.plain (h : JoinsEnds catalog l (SetKind.applicable l.media) g g')
    (hg : g.Plain) (hmedia : l.media ≠ .video) : g'.Plain := by
  refine ⟨fun kind => ?_, fun kind => ?_⟩
  all_goals by_cases hkind : kind ∈ SetKind.applicable l.media
  · exact (h.joins kind hkind).wellFormed (hg.wellFormed kind)
  · rw [h.registry_eq kind hkind]
    exact hg.wellFormed kind
  · exact ((h.joins kind hkind).slotView_eq (SetKind.rule_exact hmedia catalog kind)
      (hg.wellFormed kind) (hg.allPlain kind)).2
  · rw [h.registry_eq kind hkind]
    exact hg.allPlain kind

theorem JoinsEnds.slotView_eq (h : JoinsEnds catalog l (SetKind.applicable l.media) g g')
    (hg : g.Plain) (hl : g.link? link = some l) (hmedia : l.media ≠ .video) (kind : SetKind) :
    g'.slotView kind = (g.slotView kind).joinAll (g.joinedSlots kind link) := by
  simp only [joinedSlots, hl]
  by_cases hkind : kind ∈ SetKind.applicable l.media
  · rw [if_pos hkind]
    exact ((h.joins kind hkind).slotView_eq (SetKind.rule_exact hmedia catalog kind)
      (hg.wellFormed kind) (hg.allPlain kind)).1
  · rw [if_neg hkind, slotView, h.registry_eq kind hkind]
    rfl

/-- A link is merged exactly if its slots can be joined for every kind. -/
theorem negotiateLink_merged_iff_allJoinable (hg : g.Plain) (hl : g.link? link = some l)
    (hmedia : l.media ≠ .video) (catalog : Catalog) :
    (∃ g', negotiateLink catalog link g = .ok .merged g') ↔
      ∀ kind, (g.slotView kind).AllJoinable (g.joinedSlots kind link) := by
  rw [negotiateLink_merged_iff hg.wellFormed hl]
  refine forall_congr' fun kind => ?_
  rw [allJoinable_joinedSlots hl, not_refuses_iff_joinable hg hmedia]

/-! ## Negotiating many links -/

/-- Negotiates links one after the other, each by the catalog that goes with it. -/
def negotiateAll (calls : List (Catalog × LinkId)) : Action (List Negotiation) :=
  calls.mapM fun call => negotiateLink call.1 call.2

variable {calls : List (Catalog × LinkId)}

/-- The links to be negotiated are live and do not carry video. -/
def AllNonVideo (g : Graph) (calls : List (Catalog × LinkId)) : Prop :=
  ∀ call ∈ calls, ∃ l, g.link? call.2 = some l ∧ l.media ≠ .video

theorem AllNonVideo.congr (h : g'.links = g.links) (hcalls : g.AllNonVideo calls) :
    g'.AllNonVideo calls := by
  intro call hcall
  rw [link?_congr h]
  exact hcalls call hcall

/-- The slots that the negotiation of all these links joins, in this order. -/
def allJoinedSlots (g : Graph) (kind : SetKind) (calls : List (Catalog × LinkId)) :
    List (SlotId × SlotId) :=
  (calls.map Prod.snd).flatMap (g.joinedSlots kind)

theorem allJoinedSlots_cons (g : Graph) (kind : SetKind) (call : Catalog × LinkId)
    (calls : List (Catalog × LinkId)) :
    g.allJoinedSlots kind (call :: calls) =
      g.joinedSlots kind call.2 ++ g.allJoinedSlots kind calls := rfl

theorem allJoinedSlots_congr (h : g'.links = g.links) (kind : SetKind) :
    g'.allJoinedSlots kind calls = g.allJoinedSlots kind calls := by
  rw [allJoinedSlots, joinedSlots_congr h, allJoinedSlots]

/-- What all negotiations together do, if they succeed: they join the slots of their links. -/
theorem negotiateAll_merged (hg : g.Plain) (hcalls : g.AllNonVideo calls)
    (hrun : negotiateAll calls g = .ok (calls.map fun _ => .merged) g') :
    g'.nodes = g.nodes ∧ g'.links = g.links ∧
    ∀ kind, (g.slotView kind).AllJoinable (g.allJoinedSlots kind calls) ∧
      g'.slotView kind = (g.slotView kind).joinAll (g.allJoinedSlots kind calls) := by
  induction calls generalizing g with
  | nil =>
    cases hrun
    exact ⟨rfl, rfl, fun _ => ⟨trivial, rfl⟩⟩
  | cons call calls ih =>
    obtain ⟨g₁, hfirst, hrest⟩ := mapM_cons_eq_ok.mp hrun
    obtain ⟨l, hl, hmedia⟩ := hcalls call List.mem_cons_self
    have hjoins := joinsEnds_of_merged hg.wellFormed hl hfirst
    have hcalls₁ : g₁.AllNonVideo calls :=
      AllNonVideo.congr hjoins.links_eq fun c hc => hcalls c (List.mem_cons_of_mem call hc)
    obtain ⟨hnodes, hlinks, hall⟩ := ih (hjoins.plain hg hmedia) hcalls₁ hrest
    refine ⟨hnodes.trans hjoins.nodes_eq, hlinks.trans hjoins.links_eq, fun kind => ?_⟩
    have hone := (negotiateLink_merged_iff_allJoinable hg hl hmedia call.1).mp ⟨g₁, hfirst⟩ kind
    have hview := hjoins.slotView_eq hg hl hmedia kind
    obtain ⟨hjoinable, hview'⟩ := hall kind
    rw [allJoinedSlots_congr hjoins.links_eq, hview] at hjoinable hview'
    rw [allJoinedSlots_cons, Sharing.allJoinable_append, Sharing.joinAll_append]
    exact ⟨⟨hone, hjoinable⟩, hview'⟩

/-- If all these slots can be joined, all negotiations succeed. -/
theorem negotiateAll_of_allJoinable (hg : g.Plain) (hcalls : g.AllNonVideo calls)
    (hall : ∀ kind, (g.slotView kind).AllJoinable (g.allJoinedSlots kind calls)) :
    ∃ g', negotiateAll calls g = .ok (calls.map fun _ => .merged) g' := by
  induction calls generalizing g with
  | nil => exact ⟨g, rfl⟩
  | cons call calls ih =>
    simp only [allJoinedSlots_cons, Sharing.allJoinable_append] at hall
    obtain ⟨l, hl, hmedia⟩ := hcalls call List.mem_cons_self
    have hone := negotiateLink_merged_iff_allJoinable hg hl hmedia call.1
    obtain ⟨g₁, hfirst⟩ := hone.mpr fun kind => (hall kind).1
    have hjoins := joinsEnds_of_merged hg.wellFormed hl hfirst
    have hcalls₁ : g₁.AllNonVideo calls :=
      AllNonVideo.congr hjoins.links_eq fun c hc => hcalls c (List.mem_cons_of_mem call hc)
    obtain ⟨g', hrest⟩ := ih (hjoins.plain hg hmedia) hcalls₁ fun kind => by
      rw [allJoinedSlots_congr hjoins.links_eq, hjoins.slotView_eq hg hl hmedia kind]
      exact (hall kind).2
    exact ⟨g', mapM_cons_eq_ok.mpr ⟨g₁, hfirst, hrest⟩⟩

/-! ## The order of negotiation -/

/-- Two graphs are the same up to the names of their sets: the same slots point at nothing, the same
ones share a set, and the sets at each slot accept the same. -/
structure AgreeUpToNames (g g' : Graph) : Prop where
  nodes_eq : g.nodes = g'.nodes
  links_eq : g.links = g'.links
  held?_eq_none_iff (kind : SetKind) (s : SlotId) :
    (g.registry kind).held? s = none ↔ (g'.registry kind).held? s = none
  shares_iff (kind : SetKind) (s t : SlotId) :
    (g.registry kind).Shares s t ↔ (g'.registry kind).Shares s t
  acceptsAt_iff (kind : SetKind) (s : SlotId) (v : kind.Value) :
    (g.registry kind).AcceptsAt kind.Accepts s v ↔ (g'.registry kind).AcceptsAt kind.Accepts s v

theorem AgreeUpToNames.of_slotView (hnodes : g.nodes = g'.nodes) (hlinks : g.links = g'.links)
    (hview : ∀ kind, g.slotView kind = g'.slotView kind) : AgreeUpToNames g g' := by
  have hshares : ∀ kind s t,
      (g.registry kind).Shares s t ↔ (g'.registry kind).Shares s t := fun kind s t =>
    iff_of_eq (congrArg (fun view : Sharing kind.Value => view.shares s t) (hview kind))
  refine ⟨hnodes, hlinks, fun kind s => ?_, hshares, fun kind s v => ?_⟩
  · have hself := hshares kind s s
    rw [Registry.shares_self_iff, Registry.shares_self_iff] at hself
    exact not_iff_not.mp hself
  · exact iff_of_eq (congrArg (fun view : Sharing kind.Value => view.accepts s v) (hview kind))

theorem run_plain (cs : List Command) (hlayouts : ∀ id layouts,
    (run .empty cs).registries.channelLayouts.contents? id = some layouts →
      layouts ≠ .allLayouts ∧ layouts ≠ .listed []) : (run .empty cs).Plain := by
  refine ⟨registry_wellFormed cs, fun kind id entry hf => ?_⟩
  cases kind with
  | formats => exact trivial
  | sampleRates => exact trivial
  | channelLayouts => exact hlayouts id entry.contents (Registry.contents?_of_find? hf)

/-- Links that do not carry video can be negotiated in any order, if they all can in one. What comes
of it is the same, up to the names of the sets. -/
theorem negotiateAll_perm (cs : List Command) (calls calls' : List (Catalog × LinkId)) (g' : Graph)
    (hlayouts : ∀ id layouts,
      (run .empty cs).registries.channelLayouts.contents? id = some layouts →
        layouts ≠ .allLayouts ∧ layouts ≠ .listed [])
    (hlinks : ∀ call ∈ calls, ∃ l, (run .empty cs).link? call.2 = some l ∧ l.media ≠ .video)
    (hperm : (calls.map Prod.snd).Perm (calls'.map Prod.snd))
    (hrun : negotiateAll calls (run .empty cs) = .ok (calls.map fun _ => .merged) g') :
    ∃ g'', negotiateAll calls' (run .empty cs) = .ok (calls'.map fun _ => .merged) g'' ∧
      AgreeUpToNames g' g'' := by
  have hg := run_plain cs hlayouts
  have hslots : ∀ kind, ((run .empty cs).allJoinedSlots kind calls).Perm
      ((run .empty cs).allJoinedSlots kind calls') := fun kind => hperm.flatMap_right _
  have hcalls' : (run .empty cs).AllNonVideo calls' := by
    intro call' hcall'
    have hmem := hperm.mem_iff.mpr (List.mem_map_of_mem hcall')
    obtain ⟨call, hcall, heq⟩ := List.mem_map.mp hmem
    exact heq ▸ hlinks call hcall
  obtain ⟨hnodes, hlinks', hall⟩ := negotiateAll_merged hg hlinks hrun
  obtain ⟨g'', hrun'⟩ := negotiateAll_of_allJoinable hg hcalls' fun kind =>
    (hall kind).1.perm (hslots kind)
  obtain ⟨hnodes'', hlinks'', hall''⟩ := negotiateAll_merged hg hcalls' hrun'
  refine ⟨g'', hrun', .of_slotView (hnodes.trans hnodes''.symm) (hlinks'.trans hlinks''.symm)
    fun kind => ?_⟩
  rw [(hall kind).2, (hall'' kind).2, Sharing.joinAll_perm (hslots kind)]

/-- A source and a sink with a filter between them whose pads share their sets. -/
theorem negotiateAll_perm_chain :
    let cs : List Command :=
      [.addFilter "source" [] [.audio], .addFilter "volume" [.audio] [.audio],
        .addFilter "sink" [.audio] [], .addLink ⟨⟨0, 0⟩, ⟨1, 0⟩, .audio⟩,
        .addLink ⟨⟨1, 0⟩, ⟨2, 0⟩, .audio⟩, .install .formats [1, 2, 3] 0,
        .install .formats [2, 3, 4] 1, .install .formats [3, 4, 5] 2, .installAnyRate 0,
        .install .sampleRates [44100, 48000] 1, .install .sampleRates [48000] 2,
        .install .channelLayouts (.listed [.stereo, .count 6]) 0, .installAnyLayout 1,
        .install .channelLayouts (.listed [.count 2]) 2]
    ∃ g' g'', negotiateAll [(.builtin, 0), (.builtin, 1)] (run .empty cs) =
        .ok [.merged, .merged] g' ∧
      negotiateAll [(.builtin, 1), (.builtin, 0)] (run .empty cs) = .ok [.merged, .merged] g'' ∧
      AgreeUpToNames g' g'' := by
  intro cs
  have hcells : ∀ cell ∈ (run .empty cs).registries.channelLayouts.cells.toList,
      cell.occupant.map (·.contents) ≠ some .allLayouts ∧
      cell.occupant.map (·.contents) ≠ some (.listed []) := by decide +kernel
  have hlinks : ∀ link ∈ [0, 1],
      ((run .empty cs).link? link).any (·.media ≠ .video) = true := by decide +kernel
  obtain ⟨g', hrun⟩ : ∃ g', negotiateAll [(.builtin, 0), (.builtin, 1)] (run .empty cs) =
      .ok [.merged, .merged] g' := exists_ok_of_run' (by decide +kernel)
  obtain ⟨g'', hrun', hagree⟩ := negotiateAll_perm cs [(.builtin, 0), (.builtin, 1)]
    [(.builtin, 1), (.builtin, 0)] g'
    (fun id layouts hlayouts => by
      obtain ⟨cell, hcell, hcontents⟩ := Registry.exists_cell_of_contents? hlayouts
      have hplain := hcells cell hcell
      rw [hcontents] at hplain
      exact ⟨fun he => hplain.1 (congrArg some he), fun he => hplain.2 (congrArg some he)⟩)
    (fun call hcall => by
      have hany := hlinks call.2 (List.mem_map_of_mem (f := Prod.snd) hcall)
      rw [Option.any_eq_true] at hany
      obtain ⟨l, hl, hmedia⟩ := hany
      exact ⟨l, hl, by simpa using hmedia⟩)
    (List.Perm.swap _ _ _) hrun
  exact ⟨g', g'', hrun, hrun', hagree⟩

end Graph

end FormatNegotiation
