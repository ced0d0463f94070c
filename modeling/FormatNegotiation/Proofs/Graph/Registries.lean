import FormatNegotiation.Proofs.Graph.Changes

/-! Whatever happens to a graph, each of its registries goes through a run of commands of its own,
and so it keeps the invariant of registries. -/
namespace FormatNegotiation

/-! ## The registries of the kinds -/

namespace Registries

/-- The registry of each kind has gone through some commands, those of other kinds aside. -/
def Evolves (rs rs' : Registries) : Prop :=
  ∀ kind, ∃ cs : List (Registry.Command kind.Contents), rs'.of kind = (rs.of kind).run cs

theorem Evolves.refl (rs : Registries) : rs.Evolves rs := fun _ => ⟨[], rfl⟩

theorem Evolves.trans {rs rs' rs'' : Registries} (h : rs.Evolves rs') (h' : rs'.Evolves rs'') :
    rs.Evolves rs'' := by
  intro kind
  obtain ⟨cs, hcs⟩ := h kind
  obtain ⟨cs', hcs'⟩ := h' kind
  refine ⟨cs ++ cs', ?_⟩
  rw [hcs', hcs, Registry.run, Registry.run, Registry.run, List.foldl_append]

theorem set_evolves (rs : Registries) {kind : SetKind} (c : Registry.Command kind.Contents) :
    rs.Evolves (rs.set kind ((rs.of kind).after c)) := by
  intro kind'
  by_cases hkind : kind' = kind
  · subst hkind
    exact ⟨[c], of_set_self rs kind' _⟩
  · exact ⟨[], of_set_of_ne rs _ hkind⟩

theorem Evolves.wellFormed {rs rs' : Registries} (h : rs.Evolves rs')
    (hrs : ∀ kind, (rs.of kind).WellFormed) (kind : SetKind) : (rs'.of kind).WellFormed := by
  obtain ⟨cs, hcs⟩ := h kind
  rw [hcs]
  exact Registry.run_wellFormed_of (hrs kind) cs

theorem set_wellFormed {rs : Registries} (hrs : ∀ kind, (rs.of kind).WellFormed) {kind : SetKind}
    {r : Registry kind.Contents} (hr : r.WellFormed) (kind' : SetKind) :
    ((rs.set kind r).of kind').WellFormed := by
  by_cases hkind : kind' = kind
  · subst hkind
    rwa [of_set_self]
  · rw [of_set_of_ne rs r hkind]
    exact hrs kind'

end Registries

namespace Graph

/-! ## Changes -/

theorem Rereferenced.evolves {g g' : Graph} (h : Rereferenced g g') :
    g.registries.Evolves g'.registries := by
  induction h with
  | refl g => exact .refl _
  | @step g _ kind c _ _ ih => exact (Registries.set_evolves g.registries c).trans ih

theorem withFreshEnds_evolves (g : Graph) : g.registries.Evolves g.withFreshEnds.registries :=
  fun kind => ⟨[.newSlot, .newSlot], g.registry_withFreshEnds kind⟩

theorem withoutNode_evolves (g : Graph) (node : NodeId) :
    g.registries.Evolves (g.withoutNode node).registries := by
  intro kind
  refine ⟨(g.slotsTouching node kind).map .releaseSlot, ?_⟩
  rw [Registry.run, List.foldl_map]
  exact g.registry_withoutNode node kind

theorem Change.evolves {g g' : Graph} {c : Command} (h : Change g c g') :
    g.registries.Evolves g'.registries := by
  cases h with
  | references h => exact h.evolves
  | slots command _ => exact g.registries.set_evolves command
  | filter name inputs outputs => exact .refl _
  | link h => exact g.withFreshEnds_evolves
  | removal h => exact g.withoutNode_evolves _
  | stuck h hmove =>
    have hmoved := (moveReferences_rereferences _ _ _).of_error hmove
    exact g.withFreshEnds_evolves.trans hmoved.evolves
  | insertion h hmove =>
    have hmoved := (moveReferences_rereferences _ _ _).of_ok hmove
    exact g.withFreshEnds_evolves.trans hmoved.evolves

theorem Change.registry_wellFormed {g g' : Graph} {c : Command} (h : Change g c g')
    (hg : ∀ kind, (g.registry kind).WellFormed) (kind : SetKind) :
    (g'.registry kind).WellFormed := h.evolves.wellFormed hg kind

/-! ## Runs -/

theorem run_evolves (g : Graph) (cs : List Command) :
    g.registries.Evolves (g.run cs).registries := by
  induction cs generalizing g with
  | nil => exact .refl _
  | cons c cs ih => exact (after_change g c).evolves.trans (ih (g.after c))

/-- Each registry of a graph that a run leads to is one that a run of its own leads to. -/
theorem exists_registry_run (cs : List Command) (kind : SetKind) :
    ∃ commands, (run .empty cs).registry kind = Registry.run .empty commands := by
  obtain ⟨commands, hrun⟩ := run_evolves .empty cs kind
  refine ⟨commands, hrun.trans ?_⟩
  cases kind <;> rfl

theorem registry_wellFormed (cs : List Command) (kind : SetKind) :
    ((run .empty cs).registry kind).WellFormed := by
  obtain ⟨commands, hrun⟩ := exists_registry_run cs kind
  rw [hrun]
  exact Registry.run_wellFormed commands

end Graph

end FormatNegotiation
