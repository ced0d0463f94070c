import FormatNegotiation.Proofs.Graph.Atomicity
import FormatNegotiation.Proofs.Graph.Installation

/-! The defaults of a filter are sets of several kinds, installed one after the other. They all go
through as long as the graph has the slots to itself. Otherwise the ones before the first that fails
stay. -/
namespace FormatNegotiation

/-- What a filter works with if it states nothing itself, in the order in which it is installed. -/
def FilterNode.defaults (catalog : Catalog) (n : FilterNode) :
    List ((kind : SetKind) × kind.Contents) :=
  ⟨.formats, FormatList.allFormats n.defaultMedia catalog⟩ ::
    if n.defaultMedia.isAudio then
      [⟨.channelLayouts, LayoutSet.allCounts⟩, ⟨.sampleRates, FormatList.allSampleRates⟩]
    else []

theorem FilterNode.nodup_defaults (catalog : Catalog) (n : FilterNode) :
    ((n.defaults catalog).map Sigma.fst).Nodup := by
  unfold defaults
  split <;> simp

namespace Graph

variable {g g' : Graph} {kind : SetKind} {contents : kind.Contents} {node : NodeId}
  {n : FilterNode} {sets : List ((kind : SetKind) × kind.Contents)} {err : FormatError}

/-- Installs these sets one after the other, until one fails. -/
def installAll (node : NodeId) : List ((kind : SetKind) × kind.Contents) → Action Unit
  | [] => pure ()
  | ⟨kind, contents⟩ :: rest => do
    install kind contents node
    installAll node rest

theorem installDefaults_of_live (hn : g.node? node = some n) (catalog : Catalog) :
    installDefaults catalog node g = installAll node (n.defaults catalog) g := by
  unfold installDefaults FilterNode.defaults
  rw [hn]
  cases haudio : n.defaultMedia.isAudio with
  | false => simp [haudio, installAll]
  | true => simp [haudio, installAll, installAnyLayout, installAnyRate]

/-- How a graph comes out when sets of different kinds are installed on a node. -/
structure InstallsAll (g g' : Graph) (node : NodeId)
    (sets : List ((kind : SetKind) × kind.Contents)) : Prop where
  nodes_eq : g'.nodes = g.nodes
  links_eq : g'.links = g.links
  installed : ∀ set ∈ sets, ∃ slots, g.eligibleSlots set.1 node = .ok slots ∧
    (g.registry set.1).Installs (g'.registry set.1) set.2 slots
  untouched : ∀ kind, kind ∉ sets.map Sigma.fst → g'.registry kind = g.registry kind

/-- The pads that are open to a kind do not depend on the other kinds. -/
theorem eligibleSlots_setRegistry_of_ne {kind' : SetKind} (r : Registry kind.Contents)
    (hne : kind' ≠ kind) :
    (g.setRegistry kind r).eligibleSlots kind' node = g.eligibleSlots kind' node := by
  unfold eligibleSlots
  rw [registry_setRegistry_of_ne g r hne]
  rfl

namespace InstallsAll

theorem nil : g.InstallsAll g node [] where
  nodes_eq := rfl
  links_eq := rfl
  installed _ hset := absurd hset List.not_mem_nil
  untouched _ _ := rfl

theorem cons {slots : List SlotId} {r : Registry kind.Contents}
    (hslots : g.eligibleSlots kind node = .ok slots)
    (hinstalls : (g.registry kind).Installs r contents slots) (hfresh : kind ∉ sets.map Sigma.fst)
    (h : (g.setRegistry kind r).InstallsAll g' node sets) :
    g.InstallsAll g' node (⟨kind, contents⟩ :: sets) where
  nodes_eq := h.nodes_eq
  links_eq := h.links_eq
  installed set hset := by
    rcases List.mem_cons.mp hset with rfl | hset
    · refine ⟨slots, hslots, ?_⟩
      rwa [h.untouched kind hfresh, registry_setRegistry_self]
    · have hne : set.1 ≠ kind := fun heq => hfresh (heq ▸ List.mem_map_of_mem hset)
      obtain ⟨slots', hslots', hinstalls'⟩ := h.installed set hset
      rw [eligibleSlots_setRegistry_of_ne r hne] at hslots'
      rw [registry_setRegistry_of_ne g r hne] at hinstalls'
      exact ⟨slots', hslots', hinstalls'⟩
  untouched kind' hkind := by
    rw [List.map_cons, List.mem_cons, not_or] at hkind
    rw [h.untouched kind' hkind.2, registry_setRegistry_of_ne g r hkind.1]

/-- Only sets that reach no pad leave no trace. -/
theorem registries_eq_iff (h : g.InstallsAll g' node sets) :
    (∀ kind, g'.registry kind = g.registry kind) ↔
      ∀ set ∈ sets, g.eligibleSlots set.1 node = .ok [] := by
  constructor
  · intro hsame set hset
    obtain ⟨slots, hslots, hinstalls⟩ := h.installed set hset
    rw [hslots, hinstalls.eq_iff.mp (hsame set.1)]
  · intro hnone kind
    by_cases hkind : kind ∈ sets.map Sigma.fst
    · obtain ⟨set, hset, rfl⟩ := List.mem_map.mp hkind
      obtain ⟨slots, hslots, hinstalls⟩ := h.installed set hset
      apply hinstalls.eq_iff.mpr
      exact Except.ok.inj (hslots.symm.trans (hnone set hset))
    · exact h.untouched kind hkind

end InstallsAll

/-- The set that fails would have failed on its own, and those before it have been installed. -/
theorem installAll_error (hg : ∀ kind, (g.registry kind).WellFormed)
    (hnodup : (sets.map Sigma.fst).Nodup) (h : installAll node sets g = .error err g') :
    ∃ done kind contents later, sets = done ++ ⟨kind, contents⟩ :: later ∧
      g.InstallsAll g' node done ∧ install kind contents node g = .error err g := by
  induction sets generalizing g with
  | nil => cases h
  | cons set rest ih =>
    obtain ⟨kind, contents⟩ := set
    obtain ⟨hfresh, hrest⟩ := List.nodup_cons.mp hnodup
    -- A later set is tried on a graph in which its own kind is as it was.
    rcases bind_eq_error_iff.mp h with hfirst | ⟨_, g₁, hfirst, hlater⟩
    · obtain rfl := install_error hfirst
      exact ⟨[], kind, contents, rest, rfl, .nil, hfirst⟩
    · have hg₁ := ((install_rereferences kind contents node).of_ok hfirst).evolves.wellFormed hg
      obtain ⟨slots, id?, r, hslots, hattach, rfl⟩ := install_eq_ok_iff.mp hfirst
      obtain ⟨done, kind', contents', later, rfl, hdone, hfails⟩ := ih hg₁ hrest hlater
      rw [List.map_append, List.map_cons, List.mem_append, List.mem_cons, not_or, not_or] at hfresh
      obtain ⟨hfresh, hne, -⟩ := hfresh
      have hinstalls := Registry.attach_installs (hg kind) hattach
      refine ⟨⟨kind, contents⟩ :: done, kind', contents', later, rfl,
        .cons hslots hinstalls hfresh hdone, ?_⟩
      obtain ⟨-, hfault⟩ := install_eq_error_iff.mp hfails
      rw [eligibleSlots_setRegistry_of_ne r (Ne.symm hne),
        registry_setRegistry_of_ne g r (Ne.symm hne)] at hfault
      exact install_eq_error_iff.mpr ⟨rfl, hfault⟩

/-- Sets of different kinds do not get into each other's way. -/
theorem Owned.installAll_succeeds (hg : g.Owned) (hs : g.Structured)
    (hn : g.node? node = some n) (hnodup : (sets.map Sigma.fst).Nodup) :
    ∃ g', installAll node sets g = .ok () g' ∧ g.InstallsAll g' node sets := by
  induction sets generalizing g with
  | nil => exact ⟨g, rfl, .nil⟩
  | cons set rest ih =>
    obtain ⟨kind, contents⟩ := set
    obtain ⟨hfresh, hrest⟩ := List.nodup_cons.mp hnodup
    obtain ⟨r, hfirst, hinstalls⟩ := hg.install_succeeds hs hn contents
    have hg₁ : (g.setRegistry kind r).Owned := by
      have hafter : g.after (.install kind contents node) = g.setRegistry kind r := by
        rw [after_eq_stateAfter, exec, stateAfter_map, stateAfter_of_ok hfirst]
      exact hafter ▸ hg.after rfl
    have hs₁ : (g.setRegistry kind r).Structured := hs.congr (fun _ => rfl) fun _ => rfl
    obtain ⟨g', hlater, hall⟩ := ih hg₁ hs₁ hn hrest
    refine ⟨g', bind_eq_ok_iff.mpr ⟨(), _, hfirst, hlater⟩, ?_⟩
    exact .cons (hs.eligibleSlots_eq hn) hinstalls hfresh hall

/-! ## Runs -/

/-- In a run that leaves the slots to the graph, the defaults of a filter that is there all go
through. -/
theorem run_defaults_succeed (cs : List Command) (hcs : ∀ c ∈ cs, c.movesSlot = false)
    (catalog : Catalog) (node : NodeId) (n : FilterNode)
    (hn : (run .empty cs).node? node = some n) :
    ∃ g', installDefaults catalog node (run .empty cs) = .ok () g' ∧
      (run .empty cs).InstallsAll g' node (n.defaults catalog) := by
  have hg : (run .empty cs).Owned := empty_owned.run hcs
  rw [installDefaults_of_live hn]
  exact hg.installAll_succeeds (empty_structured.run cs) hn (n.nodup_defaults catalog)

/-- After any run, with whatever changes past the graph, defaults fail without a change if the node
is gone. Otherwise they fail at one of their sets, which would have failed on its own, and those
before it have been installed and stay. So the registries are as they were just if none of those
reaches a pad. -/
theorem run_defaults_error (cs : List Command) (catalog : Catalog) (node : NodeId)
    (err : FormatError) (g' : Graph)
    (h : installDefaults catalog node (run .empty cs) = .error err g') :
    let g := run .empty cs
    (g.node? node = none ∧ err = .graph .invalidNode ∧ g' = g) ∨
    ∃ n done kind contents later, g.node? node = some n ∧
      n.defaults catalog = done ++ ⟨kind, contents⟩ :: later ∧
      install kind contents node g = .error err g ∧ g.InstallsAll g' node done ∧
      ((∀ kind, g'.registry kind = g.registry kind) ↔
        ∀ set ∈ done, g.eligibleSlots set.1 node = .ok []) := by
  intro g
  cases hn : g.node? node with
  | none =>
    unfold installDefaults at h
    rw [hn] at h
    cases h
    exact .inl ⟨rfl, rfl, rfl⟩
  | some n =>
    rw [installDefaults_of_live hn] at h
    obtain ⟨done, kind, contents, later, hsets, hdone, hfails⟩ :=
      installAll_error (registry_wellFormed cs) (n.nodup_defaults catalog) h
    exact .inr ⟨n, done, kind, contents, later, rfl, hsets, hfails, hdone,
      hdone.registries_eq_iff⟩

/-- On a video link only formats are installed. The slot has been taken back, so the defaults fail
and nothing changes. -/
theorem run_defaults_error_video :
    let cs : List Command :=
      [.addFilter "source" [] [.video], .addFilter "sink" [.video] [],
        .addLink ⟨⟨0, 0⟩, ⟨1, 0⟩, .video⟩, .onRegistry .formats (.releaseSlot 1)]
    ∃ err g', installDefaults .builtin 1 (run .empty cs) = .error err g' ∧
      ∀ kind, g'.registry kind = (run .empty cs).registry kind := by
  intro cs
  have hnode : (run .empty cs).node? 1 = some ⟨1, "sink", [.video], []⟩ := by decide +kernel
  have hfails : (installDefaults .builtin 1).run' (run .empty cs) = none := by decide +kernel
  obtain ⟨err, g', hres⟩ := exists_error_of_run' hfails
  refine ⟨err, g', hres, ?_⟩
  rcases run_defaults_error cs .builtin 1 err g' hres with
    ⟨-, -, rfl⟩ | ⟨n, done, kind, contents, later, hn, hsets, -, -, hsame⟩
  · exact fun _ => rfl
  · obtain rfl := Option.some.inj (hnode.symm.trans hn)
    have hlength := congrArg List.length hsets
    have hdone : done = [] := by
      cases done with
      | nil => rfl
      | cons set rest =>
        simp [FilterNode.defaults, FilterNode.defaultMedia, Media.isAudio] at hlength
    exact hsame.mpr (by simp [hdone])

/-- Defaults are not all or nothing. On an audio link the slot for sample rates has been taken back;
the defaults fail there, when formats and layouts have been installed. -/
theorem not_defaults_all_or_nothing :
    ¬ ∀ (cs : List Command) (catalog : Catalog) (node : NodeId) (err : FormatError) (g' : Graph),
      installDefaults catalog node (run .empty cs) = .error err g' →
      ∀ kind, g'.registry kind = (run .empty cs).registry kind := by
  intro h
  let cs : List Command :=
    [.addFilter "source" [] [.audio], .addFilter "sink" [.audio] [],
      .addLink ⟨⟨0, 0⟩, ⟨1, 0⟩, .audio⟩, .onRegistry .sampleRates (.releaseSlot 1)]
  have hfails : (installDefaults .builtin 1).run' (run .empty cs) = none := by decide +kernel
  obtain ⟨err, g', hres⟩ := exists_error_of_run' hfails
  have hbefore : ((run .empty cs).registry .formats).liveSets = 0 := by decide +kernel
  have hafter : ((stateAfter (installDefaults .builtin 1) (run .empty cs)).registry
      .formats).liveSets = 1 := by decide +kernel
  rw [stateAfter_of_error hres, h cs .builtin 1 err g' hres .formats, hbefore] at hafter
  cases hafter

end Graph

end FormatNegotiation
