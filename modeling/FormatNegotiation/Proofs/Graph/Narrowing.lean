import FormatNegotiation.Proofs.Graph.Order
import FormatNegotiation.Proofs.Registry.Narrowing

/-! Negotiating links only narrows the sets of a graph, whichever links are negotiated and however
that ends. A link that was negotiated once stays negotiated: to negotiate it again does nothing. -/
namespace FormatNegotiation

namespace SetKind

/-- The contents of a kind have entries of their own. -/
def Lists : (kind : SetKind) → kind.Contents → Prop
  | .formats => fun formats => formats ≠ []
  | .sampleRates => fun rates => rates ≠ []
  | .channelLayouts => fun layouts => layouts.layouts ≠ []

theorem rule_narrowing (media : Media) (catalog : Catalog) (kind : SetKind) :
    NarrowingRule (kind.rule media catalog) kind.Accepts kind.Lists := by
  cases kind with
  | formats => exact FormatList.formats_narrowing media catalog
  | sampleRates => exact FormatList.rates_narrowing
  | channelLayouts => exact LayoutSet.layouts_narrowing

end SetKind

namespace Graph

variable {g g' g'' : Graph} {catalog : Catalog} {link : LinkId} {l : Link}

/-! ## Narrowing -/

/-- How a graph comes out of changes that only narrow its sets. -/
structure Narrows (g g' : Graph) : Prop where
  nodes_eq : g'.nodes = g.nodes
  links_eq : g'.links = g.links
  registry (kind : SetKind) : (g.registry kind).Narrows kind.Accepts kind.Lists (g'.registry kind)

theorem Narrows.refl (g : Graph) : g.Narrows g := ⟨rfl, rfl, fun _ => .refl _⟩

theorem Narrows.trans (h : g.Narrows g') (h' : g'.Narrows g'') : g.Narrows g'' where
  nodes_eq := h'.nodes_eq.trans h.nodes_eq
  links_eq := h'.links_eq.trans h.links_eq
  registry kind := (h.registry kind).trans (h'.registry kind)

theorem JoinsEnds.narrows {kinds : List SetKind} (h : JoinsEnds catalog l kinds g g') :
    g.Narrows g' where
  nodes_eq := h.nodes_eq
  links_eq := h.links_eq
  registry kind := by
    by_cases hkind : kind ∈ kinds
    · exact (h.joins kind hkind).narrows (SetKind.rule_narrowing l.media catalog kind)
    · rw [h.registry_eq kind hkind]
      exact .refl _

/-- Negotiating a link leaves the graph alone or joins the ends of the link. -/
theorem after_negotiateLink_cases (hg : ∀ kind, (g.registry kind).WellFormed) (catalog : Catalog)
    (link : LinkId) :
    g.after (.negotiateLink catalog link) = g ∨
      ∃ l, g.link? link = some l ∧ JoinsEnds catalog l (SetKind.applicable l.media) g
        (g.after (.negotiateLink catalog link)) := by
  rw [after_eq_stateAfter, exec, stateAfter_map]
  cases hl : g.link? link with
  | none => exact .inl (stateAfter_of_error (negotiateLink_of_link?_none hl catalog))
  | some l =>
    rcases negotiateLink_cases hg hl catalog with ⟨kind, -, heq⟩ | ⟨-, g', heq, hjoins⟩
    · exact .inl (stateAfter_of_ok heq)
    · rw [stateAfter_of_ok heq]
      exact .inr ⟨l, rfl, hjoins⟩

theorem after_negotiateLink_narrows (hg : ∀ kind, (g.registry kind).WellFormed)
    (catalog : Catalog) (link : LinkId) : g.Narrows (g.after (.negotiateLink catalog link)) := by
  rcases after_negotiateLink_cases hg catalog link with heq | ⟨l, -, hjoins⟩
  · rw [heq]
    exact .refl g
  · exact hjoins.narrows

/-- The commands that negotiate these links in turn, each with a catalog of its own. -/
def negotiations (calls : List (Catalog × LinkId)) : List Command :=
  calls.map fun call => .negotiateLink call.1 call.2

theorem narrows_run (hg : ∀ kind, (g.registry kind).WellFormed)
    (calls : List (Catalog × LinkId)) : g.Narrows (g.run (negotiations calls)) := by
  induction calls generalizing g with
  | nil => exact .refl g
  | cons call calls ih =>
    have hstep := after_negotiateLink_narrows hg call.1 call.2
    have hg' := (after_change g (.negotiateLink call.1 call.2)).registry_wellFormed hg
    exact hstep.trans (ih hg')

/-! ## Links that are negotiated -/

/-- There is nothing to negotiate on a link. -/
def Settled (g : Graph) (l : Link) : Prop :=
  ∀ kind ∈ SetKind.applicable l.media,
    (g.registry kind).Settled (l.sourceEnd.slot kind) (l.targetEnd.slot kind)

theorem JoinsEnds.settled (h : JoinsEnds catalog l (SetKind.applicable l.media) g g') :
    g'.Settled l :=
  fun kind hkind => (h.joins kind hkind).settled

theorem Settled.narrows (h : g.Settled l) (hn : g.Narrows g') : g'.Settled l :=
  fun kind hkind => (h kind hkind).narrows (hn.registry kind)

theorem eq_of_registry_eq (hnodes : g'.nodes = g.nodes) (hlinks : g'.links = g.links)
    (hregistry : ∀ kind, g'.registry kind = g.registry kind) : g' = g := by
  obtain ⟨nodes, links, formats, sampleRates, channelLayouts⟩ := g
  obtain ⟨nodes', links', formats', sampleRates', channelLayouts'⟩ := g'
  have hformats : formats' = formats := hregistry .formats
  have hrates : sampleRates' = sampleRates := hregistry .sampleRates
  have hlayouts : channelLayouts' = channelLayouts := hregistry .channelLayouts
  subst hformats hrates hlayouts
  cases hnodes
  cases hlinks
  rfl

theorem JoinsEnds.eq_of_settled (h : JoinsEnds catalog l (SetKind.applicable l.media) g g')
    (hsettled : g.Settled l) : g' = g := by
  apply eq_of_registry_eq h.nodes_eq h.links_eq
  intro kind
  by_cases hkind : kind ∈ SetKind.applicable l.media
  · exact (h.joins kind hkind).eq_of_settled (hsettled kind hkind)
  · exact h.registry_eq kind hkind

theorem Settled.negotiateLink (h : g.Settled l) (hg : ∀ kind, (g.registry kind).WellFormed)
    (hl : g.link? link = some l) (catalog : Catalog) :
    negotiateLink catalog link g = .ok .merged g := by
  rcases negotiateLink_cases hg hl catalog with ⟨kind, hrefusal, -⟩ | ⟨-, g', heq, hjoins⟩
  · obtain ⟨hkind, hrefuses⟩ := hrefusal.refuses
    exact absurd hrefuses (h kind hkind).not_refuses
  · obtain rfl : g' = g := hjoins.eq_of_settled h
    exact heq

/-- A link that was negotiated is settled from then on. -/
theorem Narrows.settled_of_merged (hn : g'.Narrows g'') (hg : ∀ kind, (g.registry kind).WellFormed)
    (hres : Graph.negotiateLink catalog link g = .ok .merged g') :
    ∃ l, g''.link? link = some l ∧ g''.Settled l := by
  cases hl : g.link? link with
  | none => cases hres.symm.trans (negotiateLink_of_link?_none hl catalog)
  | some l =>
    have hjoins := joinsEnds_of_merged hg hl hres
    have hlinks : g''.links = g.links := hn.links_eq.trans hjoins.links_eq
    have hl'' : g''.link? link = some l := by
      rw [link?, hlinks]
      exact hl
    exact ⟨l, hl'', hjoins.settled.narrows hn⟩

/-- Negotiations of any links with any outcomes only narrow the sets of a graph that a run leads to.
The ends of each link of which one succeeded agree from then on, and to negotiate it again succeeds
and changes nothing. -/
theorem run_negotiations_narrow (cs : List Command) (calls : List (Catalog × LinkId)) :
    let g := run .empty cs
    let g' := g.run (negotiations calls)
    g.Narrows g' ∧
    ∀ before catalog link after mid, calls = before ++ (catalog, link) :: after →
      negotiateLink catalog link (g.run (negotiations before)) = .ok .merged mid →
      (∃ l, g'.link? link = some l ∧ g'.Settled l) ∧
      ∀ catalog', negotiateLink catalog' link g' = .ok .merged g' := by
  intro g g'
  have hwf : ∀ calls kind, ((g.run (negotiations calls)).registry kind).WellFormed := by
    intro calls kind
    have hrun : g.run (negotiations calls) = run .empty (cs ++ negotiations calls) :=
      List.foldl_append.symm
    rw [hrun]
    exact registry_wellFormed _ kind
  refine ⟨narrows_run (hwf []) calls, ?_⟩
  rintro before catalog link after mid rfl hres
  have hmid : (g.run (negotiations before)).after (.negotiateLink catalog link) = mid := by
    rw [after_eq_stateAfter, exec, stateAfter_map, stateAfter_of_ok hres]
  have hsplit : g' = mid.run (negotiations after) := by
    rw [← hmid]
    simp only [g', run, negotiations, List.map_append, List.map_cons, List.foldl_append,
      List.foldl_cons]
  have hwfMid : ∀ kind, (mid.registry kind).WellFormed :=
    hmid ▸ (after_change _ _).registry_wellFormed (hwf before)
  have hn : mid.Narrows g' := hsplit ▸ narrows_run hwfMid after
  obtain ⟨l, hl, hsettled⟩ := hn.settled_of_merged (hwf before) hres
  exact ⟨⟨l, hl, hsettled⟩, hsettled.negotiateLink (hwf _) hl⟩

/-- A set narrows wherever it is shared: at the second link too, though only the first one is
negotiated. -/
example :
    let cs : List Command :=
      [.addFilter "source" [] [.video, .video], .addFilter "sink" [.video, .video] [],
        .addLink ⟨⟨0, 0⟩, ⟨1, 0⟩, .video⟩, .addLink ⟨⟨0, 1⟩, ⟨1, 1⟩, .video⟩,
        .install .formats [1, 2, 3] 0, .onRegistry .formats (.attach [2, 3, 4] [1]),
        .negotiateLink .builtin 0]
    ((run .empty cs).registry .formats).heldContents? 2 = some [2, 3] := by
  decide +kernel

end Graph

end FormatNegotiation
