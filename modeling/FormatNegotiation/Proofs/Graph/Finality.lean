import FormatNegotiation.Proofs.Graph.Narrowing
import FormatNegotiation.Proofs.Registry.Finality

/-! A link that does not carry video and was found incompatible stays so, whichever links are
negotiated next. -/
namespace FormatNegotiation

namespace SetKind

/-- Contents of any kind but the wildcard for known layouts. -/
def NotAllLayouts : (kind : SetKind) → kind.Contents → Prop
  | .formats => fun _ => True
  | .sampleRates => fun _ => True
  | .channelLayouts => fun layouts => layouts ≠ .allLayouts

theorem rule_refusalLasts {media : Media} (hmedia : media ≠ .video) (media' : Media)
    (catalog catalog' : Catalog) (kind : SetKind) :
    RefusalLasts (kind.rule media catalog) (kind.rule media' catalog') kind.NotAllLayouts := by
  cases kind with
  | formats => exact FormatList.formats_refusalLasts hmedia media' catalog catalog'
  | sampleRates => exact FormatList.rates_refusalLasts
  | channelLayouts => exact LayoutSet.layouts_refusalLasts

theorem idxOf_le_of_append {kinds before after : List SetKind} {kind kind' : SetKind}
    (h : kinds = before ++ kind' :: after) (hkind : kind ∉ before) :
    kinds.idxOf kind' ≤ kinds.idxOf kind := by
  have hlast : kinds.idxOf kind = before.length + (kind' :: after).idxOf kind := by
    rw [h, List.idxOf_append_of_notMem hkind]
  have hfirst : kinds.idxOf kind' ≤ before.length := by
    by_cases hmem : kind' ∈ before
    · rw [h, List.idxOf_append_of_mem hmem]
      exact List.idxOf_le_length
    · rw [h, List.idxOf_append_of_notMem hmem, List.idxOf_cons_self]
      exact Nat.le_refl _
  omega

end SetKind

namespace Graph

variable {g g' : Graph} {catalog catalog' : Catalog} {link : LinkId} {l l' : Link} {kind : SetKind}
  {kinds : List SetKind}

/-- The registries are as runs leave them, and no set is the wildcard for known layouts. -/
structure NoneAllLayouts (g : Graph) : Prop where
  wellFormed (kind : SetKind) : (g.registry kind).WellFormed
  allPlain (kind : SetKind) : (g.registry kind).AllPlain kind.NotAllLayouts

/-! ## Negotiations leave a refusal -/

theorem JoinsEnds.noneAllLayouts (h : JoinsEnds catalog' l' kinds g g') (hg : g.NoneAllLayouts) :
    g'.NoneAllLayouts := by
  -- Any rule tells what a merge leaves, that of a link with audio among them.
  have haudio : Media.audio ≠ .video := by decide
  have hrule := SetKind.rule_refusalLasts haudio l'.media catalog' catalog'
  refine ⟨fun kind => ?_, fun kind => ?_⟩
  all_goals by_cases hkind : kind ∈ kinds
  · exact (h.joins kind hkind).wellFormed (hg.wellFormed kind)
  · rw [h.registry_eq kind hkind]
    exact hg.wellFormed kind
  · exact (h.joins kind hkind).allPlain (hrule kind) (hg.allPlain kind)
  · rw [h.registry_eq kind hkind]
    exact hg.allPlain kind

/-- The link whose ends are joined may carry video, other than the one that is refused. -/
theorem JoinsEnds.refuses (h : JoinsEnds catalog' l' kinds g g') (hg : g.NoneAllLayouts)
    (hmedia : l.media ≠ .video) (hrefuses : g.Refuses catalog l kind) :
    g'.Refuses catalog l kind := by
  by_cases hkind : kind ∈ kinds
  · have hrule := SetKind.rule_refusalLasts hmedia l'.media catalog catalog' kind
    exact (h.joins kind hkind).refuses hrule (hg.wellFormed kind) (hg.allPlain kind) hrefuses
  · rw [Refuses, h.registry_eq kind hkind]
    exact hrefuses

theorem run_negotiations_refuses (hg : g.NoneAllLayouts) (hmedia : l.media ≠ .video)
    (hrefuses : g.Refuses catalog l kind) (calls : List (Catalog × LinkId)) :
    (g.run (negotiations calls)).NoneAllLayouts ∧
      (g.run (negotiations calls)).Refuses catalog l kind := by
  induction calls generalizing g with
  | nil => exact ⟨hg, hrefuses⟩
  | cons call calls ih =>
    have hstep : (g.after (.negotiateLink call.1 call.2)).NoneAllLayouts ∧
        (g.after (.negotiateLink call.1 call.2)).Refuses catalog l kind := by
      rcases after_negotiateLink_cases hg.wellFormed call.1 call.2 with heq | ⟨l', -, hjoins⟩
      · rw [heq]
        exact ⟨hg, hrefuses⟩
      · exact ⟨hjoins.noneAllLayouts hg, hjoins.refuses hg hmedia hrefuses⟩
    exact ih hstep.1 hstep.2

/-! ## The answer to a later negotiation -/

/-- A kind that stands against a link under some catalog does so under any, unless an earlier one
does. -/
theorem NoneAllLayouts.negotiateLink_incompatible (hg : g.NoneAllLayouts)
    (hl : g.link? link = some l) (hmedia : l.media ≠ .video)
    (hkind : kind ∈ SetKind.applicable l.media) (hrefuses : g.Refuses catalog l kind)
    (catalog' : Catalog) :
    ∃ kind', negotiateLink catalog' link g = .ok (.incompatible kind') g ∧
      (SetKind.applicable l.media).idxOf kind' ≤ (SetKind.applicable l.media).idxOf kind := by
  have hrefuses' : g.Refuses catalog' l kind :=
    Registry.Refuses.of_refusalLasts hrefuses
      (SetKind.rule_refusalLasts hmedia l.media catalog catalog' kind) (hg.wellFormed kind)
      (hg.allPlain kind)
  rcases negotiateLink_cases hg.wellFormed hl catalog' with ⟨kind', hfirst, heq⟩ | ⟨hnone, -⟩
  · obtain ⟨before, after, happ, -, hbefore⟩ := hfirst
    have hlater : kind ∉ before := fun hmem => hbefore kind hmem hrefuses'
    exact ⟨kind', heq, SetKind.idxOf_le_of_append happ hlater⟩
  · exact absurd hrefuses' (hnone kind hkind)

/-- If no set is the wildcard for known layouts, a link that does not carry video and is
incompatible stays so while any links are negotiated with any catalogs, and is refused for the same
kind or an earlier one. -/
theorem incompatible_final (cs : List Command) (calls : List (Catalog × LinkId))
    (catalog catalog' : Catalog) (link : LinkId) (l : Link) (kind : SetKind) (g' : Graph)
    (hlayouts : ∀ id layouts,
      (run .empty cs).registries.channelLayouts.contents? id = some layouts →
        layouts ≠ .allLayouts)
    (hl : (run .empty cs).link? link = some l) (hmedia : l.media ≠ .video)
    (hres : negotiateLink catalog link (run .empty cs) = .ok (.incompatible kind) g') :
    let g'' := g'.run (negotiations calls)
    ∃ kind', negotiateLink catalog' link g'' = .ok (.incompatible kind') g'' ∧
      (SetKind.applicable l.media).idxOf kind' ≤ (SetKind.applicable l.media).idxOf kind := by
  intro g''
  have hg : (run .empty cs).NoneAllLayouts := by
    refine ⟨registry_wellFormed cs, fun kind id entry hfind => ?_⟩
    cases kind with
    | formats => exact trivial
    | sampleRates => exact trivial
    | channelLayouts => exact hlayouts id entry.contents (Registry.contents?_of_find? hfind)
  obtain ⟨hfirst, rfl⟩ := (negotiateLink_incompatible_iff hg.wellFormed hl).mp hres
  obtain ⟨hkind, hrefuses⟩ := hfirst.refuses
  have hafter := run_negotiations_refuses hg hmedia hrefuses calls
  have hlinks : g''.links = (run .empty cs).links := (narrows_run hg.wellFormed calls).links_eq
  have hl'' : g''.link? link = some l := (link?_congr hlinks link).trans hl
  exact hafter.1.negotiateLink_incompatible hl'' hmedia hkind hafter.2 catalog'

/-- A source that offers the same to two sinks. The second one narrows the offer, which does not
help the first one. -/
theorem incompatible_final_two_sinks :
    let cs : List Command :=
      [.addFilter "source" [] [.audio, .audio], .addFilter "sink" [.audio] [],
        .addFilter "sink" [.audio] [], .addLink ⟨⟨0, 0⟩, ⟨1, 0⟩, .audio⟩,
        .addLink ⟨⟨0, 1⟩, ⟨2, 0⟩, .audio⟩, .install .formats [1, 2] 0,
        .install .formats [3] 1, .install .formats [2, 3] 2, .installAnyLayout 0]
    let g := run .empty cs
    ∃ g', negotiateLink .builtin 0 g = .ok (.incompatible .formats) g' ∧
      let g'' := g'.run (negotiations [(.builtin, 1)])
      ∃ kind', negotiateLink .builtin 0 g'' = .ok (.incompatible kind') g'' ∧
        (SetKind.applicable .audio).idxOf kind' ≤ (SetKind.applicable .audio).idxOf .formats := by
  intro cs g
  have hcells : ∀ cell ∈ g.registries.channelLayouts.cells.toList,
      cell.occupant.map (·.contents) ≠ some .allLayouts := by decide +kernel
  have hmedia : ((g.link? 0).map (·.media)) = some .audio := by decide +kernel
  obtain ⟨l, hl, haudio⟩ := Option.map_eq_some_iff.mp hmedia
  obtain ⟨g', hres⟩ : ∃ g', negotiateLink .builtin 0 g = .ok (.incompatible .formats) g' :=
    exists_ok_of_run' (by decide +kernel)
  have hfinal := incompatible_final cs [(.builtin, 1)] .builtin .builtin 0 l .formats g'
    (fun id layouts hlayouts => by
      obtain ⟨cell, hcell, hcontents⟩ := Registry.exists_cell_of_contents? hlayouts
      have hplain := hcells cell hcell
      rw [hcontents] at hplain
      exact fun he => hplain (congrArg some he))
    hl (by simp [haudio]) hres
  rw [haudio] at hfinal
  exact ⟨g', hres, hfinal⟩

/-- On a link with video a refusal can be overcome. The source gives up the alpha that the first
sink would lose. -/
example :
    let cs : List Command :=
      [.addFilter "source" [] [.video, .video], .addFilter "sink" [.video] [],
        .addFilter "sink" [.video] [], .addLink ⟨⟨0, 0⟩, ⟨1, 0⟩, .video⟩,
        .addLink ⟨⟨0, 1⟩, ⟨2, 0⟩, .video⟩,
        .install .formats [PixelFormat.yuv420p.id, PixelFormat.argb.id] 0,
        .install .formats [PixelFormat.yuv420p.id, PixelFormat.rgba.id] 1,
        .install .formats [PixelFormat.yuv420p.id] 2]
    let g := run .empty cs
    (negotiateLink .builtin 0).run' g = some (.incompatible .formats) ∧
      (negotiateLink .builtin 0).run' (g.run (negotiations [(.builtin, 1)])) = some .merged := by
  decide +kernel

end Graph

end FormatNegotiation
