import FormatNegotiation.Graph.Command
import FormatNegotiation.Proofs.Registry.InUse

/-! Installing, negotiating and the moving of references come down to commands to single registries
that hand out no slot and take none back. The nodes and the links of a graph stay. -/
namespace FormatNegotiation

/-! ## The registries of the kinds -/

namespace Registries

@[simp] theorem of_set_self (rs : Registries) (kind : SetKind) (r : Registry kind.Contents) :
    (rs.set kind r).of kind = r := by
  cases kind <;> rfl

theorem of_set_of_ne (rs : Registries) {kind kind' : SetKind} (r : Registry kind.Contents)
    (hne : kind' ≠ kind) : (rs.set kind r).of kind' = rs.of kind' := by
  cases kind <;> cases kind' <;> first | rfl | exact absurd rfl hne

end Registries

namespace Graph

theorem after_eq_stateAfter (g : Graph) (c : Graph.Command) :
    g.after c = stateAfter (Graph.exec c) g := by
  unfold Graph.after stateAfter
  cases Graph.exec c g <;> rfl

@[simp] theorem registry_setRegistry_self (g : Graph) (kind : SetKind)
    (r : Registry kind.Contents) : (g.setRegistry kind r).registry kind = r :=
  Registries.of_set_self g.registries kind r

theorem registry_setRegistry_of_ne (g : Graph) {kind kind' : SetKind}
    (r : Registry kind.Contents) (hne : kind' ≠ kind) :
    (g.setRegistry kind r).registry kind' = g.registry kind' :=
  Registries.of_set_of_ne g.registries r hne

theorem setRegistry_self (g : Graph) (kind : SetKind) :
    g.setRegistry kind (g.registry kind) = g := by
  cases kind <;> rfl

theorem stateAfter_onRegistry {α : Type} (kind : SetKind)
    (act : Registry.Action kind.Contents α) (g : Graph) :
    stateAfter (onRegistry kind act) g =
      g.setRegistry kind (stateAfter act (g.registry kind)) := by
  unfold stateAfter onRegistry
  cases act (g.registry kind) <;> rfl

theorem onRegistry_eq_ok_iff {α : Type} {g g' : Graph} {kind : SetKind}
    {act : Registry.Action kind.Contents α} {x : α} : onRegistry kind act g = .ok x g' ↔
      ∃ r, act (g.registry kind) = .ok x r ∧ g' = g.setRegistry kind r := by
  unfold onRegistry
  cases act (g.registry kind) with
  | ok y r =>
    simp only [EStateM.Result.ok.injEq]
    constructor
    · rintro ⟨rfl, rfl⟩
      exact ⟨r, ⟨rfl, rfl⟩, rfl⟩
    · rintro ⟨_, ⟨rfl, rfl⟩, rfl⟩
      exact ⟨rfl, rfl⟩
  | error e r => simp

theorem onRegistry_eq_error_iff {α : Type} {g g' : Graph} {kind : SetKind}
    {act : Registry.Action kind.Contents α} {e : FormatError} :
    onRegistry kind act g = .error e g' ↔
      ∃ r, act (g.registry kind) = .error e r ∧ g' = g.setRegistry kind r := by
  unfold onRegistry
  cases act (g.registry kind) with
  | ok y r => simp
  | error e r =>
    simp only [EStateM.Result.error.injEq]
    constructor
    · rintro ⟨rfl, rfl⟩
      exact ⟨r, ⟨rfl, rfl⟩, rfl⟩
    · rintro ⟨_, ⟨rfl, rfl⟩, rfl⟩
      exact ⟨rfl, rfl⟩

theorem stateAfter_liftStructural {α : Type} (act : EStateM GraphError Graph α) (g : Graph) :
    stateAfter (liftStructural act) g = stateAfter act g := by
  unfold stateAfter liftStructural
  cases act g <;> rfl

/-! ## Commands on references alone -/

/-- The second graph comes of the first by commands to its registries, none of which hands out a
slot or takes one back. -/
inductive Rereferenced : Graph → Graph → Prop where
  | refl (g : Graph) : Rereferenced g g
  | step {g g' : Graph} {kind : SetKind} (c : Registry.Command kind.Contents)
      (hc : c.movesSlot = false)
      (hrest : Rereferenced (g.setRegistry kind ((g.registry kind).after c)) g') :
      Rereferenced g g'

namespace Rereferenced

variable {g g' g'' : Graph}

theorem of_command {kind : SetKind} (c : Registry.Command kind.Contents)
    (hc : c.movesSlot = false) :
    Rereferenced g (g.setRegistry kind ((g.registry kind).after c)) :=
  .step c hc (.refl _)

theorem trans (h : Rereferenced g g') (h' : Rereferenced g' g'') : Rereferenced g g'' := by
  induction h with
  | refl => exact h'
  | step c hc _ ih => exact .step c hc (ih h')

theorem nodes_eq (h : Rereferenced g g') : g'.nodes = g.nodes := by
  induction h with
  | refl => rfl
  | step _ _ _ ih => exact ih

theorem links_eq (h : Rereferenced g g') : g'.links = g.links := by
  induction h with
  | refl => rfl
  | step _ _ _ ih => exact ih

theorem slots_eq (h : Rereferenced g g') (kind : SetKind) :
    (g'.registry kind).slotCount = (g.registry kind).slotCount ∧
      (g'.registry kind).freeSlots = (g.registry kind).freeSlots := by
  induction h with
  | refl => exact ⟨rfl, rfl⟩
  | @step g g' kind' c hc _ ih =>
    by_cases hkind : kind = kind'
    · subst hkind
      obtain ⟨hcount, hfree⟩ := (g.registry kind).after_of_not_movesSlot hc
      rw [registry_setRegistry_self] at ih
      exact ⟨ih.1.trans hcount, ih.2.trans hfree⟩
    · rwa [registry_setRegistry_of_ne g _ hkind] at ih

/-- A failure of the first of two actions leaves what the first did. -/
theorem bind {ε α β : Type} {act : EStateM ε Graph α} {f : α → EStateM ε Graph β}
    (h : Rereferenced g (stateAfter act g)) (hf : ∀ x g', Rereferenced g' (stateAfter (f x) g')) :
    Rereferenced g (stateAfter (act >>= f) g) := by
  rw [stateAfter_bind]
  rw [stateAfter] at h
  cases hres : act g with
  | ok x g' =>
    rw [hres] at h
    exact h.trans (hf x g')
  | error e g' =>
    rw [hres] at h
    exact h

end Rereferenced

/-- Whether it succeeds or fails, the action comes down to such commands. -/
def Action.Rereferences {α : Type} (act : Action α) : Prop :=
  ∀ g : Graph, Rereferenced g (stateAfter act g)

namespace Action.Rereferences

variable {α β : Type}

theorem pure (x : α) : Action.Rereferences (pure x) := fun g => .refl g

theorem map {act : Action α} (h : act.Rereferences) (f : α → β) :
    Action.Rereferences (f <$> act) := by
  intro g
  rw [stateAfter_map]
  exact h g

theorem bind {act : Action α} {f : α → Action β} (h : act.Rereferences)
    (hf : ∀ x, (f x).Rereferences) : Action.Rereferences (act >>= f) := fun g =>
  (h g).bind fun x => hf x

theorem of_ok {act : Action α} (h : act.Rereferences) {g g' : Graph} {x : α}
    (hres : act g = .ok x g') : Rereferenced g g' := stateAfter_of_ok hres ▸ h g

theorem of_error {act : Action α} (h : act.Rereferences) {g g' : Graph} {e : FormatError}
    (hres : act g = .error e g') : Rereferenced g g' := stateAfter_of_error hres ▸ h g

end Action.Rereferences

/-- An operation of a registry that is among the commands counts as that command. -/
theorem onRegistry_rereferences {α : Type} {kind : SetKind}
    {act : Registry.Action kind.Contents α} (c : Registry.Command kind.Contents)
    (hc : c.movesSlot = false) (h : ∀ r, stateAfter act r = r.after c) :
    (onRegistry kind act).Rereferences := by
  intro g
  rw [stateAfter_onRegistry, h]
  exact .of_command c hc

theorem install_rereferences (kind : SetKind) (contents : kind.Contents) (node : NodeId) :
    (install kind contents node).Rereferences := by
  intro g
  cases hslots : g.eligibleSlots kind node with
  | error e =>
    have hres : install kind contents node g = .error (.graph e) g := by
      simp only [install, hslots]
    rw [stateAfter_of_error hres]
    exact .refl g
  | ok slots =>
    have hres : stateAfter (install kind contents node) g =
        stateAfter (discard (onRegistry kind (Registry.attach contents slots))) g := by
      simp only [stateAfter, install, hslots]
    have hattach : (onRegistry kind (Registry.attach contents slots)).Rereferences :=
      onRegistry_rereferences (.attach contents slots) rfl fun r => by
        rw [Registry.after_eq_stateAfter, Registry.exec, stateAfter_map]
    rw [hres]
    exact hattach.map (fun _ => ()) g

theorem installLayouts_rereferences (entries : List ChannelLayout) (node : NodeId) :
    (installLayouts entries node).Rereferences := by
  intro g
  unfold stateAfter installLayouts
  cases LayoutSet.ofList entries with
  | error e => exact .refl g
  | ok set => exact install_rereferences .channelLayouts set node g

theorem installDefaults_rereferences (catalog : Catalog) (node : NodeId) :
    (installDefaults catalog node).Rereferences := by
  intro g
  unfold stateAfter installDefaults
  cases g.node? node with
  | none => exact .refl g
  | some n =>
    refine (install_rereferences .formats _ node).bind (fun _ => ?_) g
    split
    · exact (install_rereferences .channelLayouts .allCounts node).bind
        fun _ => install_rereferences .sampleRates _ node
    · exact .pure ()

/-! ## Negotiation -/

theorem mergeEnds_of_endSets?_none {g : Graph} {catalog : Catalog} {l : Link} {kind : SetKind}
    (h : g.endSets? l kind = none) (rest : List SetKind) :
    mergeEnds catalog l (kind :: rest) g = mergeEnds catalog l rest g := by
  simp only [mergeEnds, h]

theorem mergeEnds_of_endSets?_some {g : Graph} {catalog : Catalog} {l : Link} {kind : SetKind}
    {a b : SetId} (h : g.endSets? l kind = some (a, b)) (rest : List SetKind) :
    mergeEnds catalog l (kind :: rest) g =
      match Registry.merge (kind.rule l.media catalog) a b (g.registry kind) with
      | .error e r => .error e (g.setRegistry kind r)
      | .ok .incompatible r => .ok (.incompatible kind) (g.setRegistry kind r)
      | .ok .merged r => mergeEnds catalog l rest (g.setRegistry kind r) := by
  simp only [mergeEnds, h, onRegistry]
  rcases Registry.merge (kind.rule l.media catalog) a b (g.registry kind) with
    ⟨_ | _, r⟩ | ⟨e, r⟩ <;> rfl

theorem mergeEnds_rereferences (catalog : Catalog) (l : Link) (kinds : List SetKind) :
    (mergeEnds catalog l kinds).Rereferences := by
  induction kinds with
  | nil => exact .pure _
  | cons kind rest ih =>
    intro g
    cases hends : g.endSets? l kind with
    | none =>
      rw [stateAfter, mergeEnds_of_endSets?_none hends]
      exact ih g
    | some ends =>
      obtain ⟨a, b⟩ := ends
      have hset : ∀ r, stateAfter (Registry.merge (kind.rule l.media catalog) a b)
          (g.registry kind) = r → Rereferenced g (g.setRegistry kind r) := by
        rintro r rfl
        have hmerge : Rereferenced g (g.setRegistry kind
            ((g.registry kind).after (.merge (kind.rule l.media catalog) a b))) :=
          .of_command _ rfl
        rwa [Registry.after_eq_stateAfter, Registry.exec, stateAfter_map] at hmerge
      rw [stateAfter, mergeEnds_of_endSets?_some hends]
      cases hres : Registry.merge (kind.rule l.media catalog) a b (g.registry kind) with
      | error e r => exact hset r (stateAfter_of_error hres)
      | ok outcome r =>
        have hr := hset r (stateAfter_of_ok hres)
        cases outcome with
        | incompatible => exact hr
        | merged => exact hr.trans (ih (g.setRegistry kind r))

theorem negotiateLink_rereferences (catalog : Catalog) (link : LinkId) :
    (negotiateLink catalog link).Rereferences := by
  intro g
  unfold stateAfter negotiateLink
  cases g.link? link with
  | none => exact .refl g
  | some l =>
    dsimp only
    cases (SetKind.applicable l.media).find? (!g.endsCompatible catalog l ·) with
    | some kind => exact .refl g
    | none => exact mergeEnds_rereferences catalog l _ g

/-! ## Insertion -/

theorem moveReferences_rereferences (old new : LinkEnd) (kinds : List SetKind) :
    (moveReferences old new kinds).Rereferences := by
  induction kinds with
  | nil => exact .pure _
  | cons kind rest ih =>
    have hchange : (onRegistry kind
        (Registry.changeReference (old.slot kind) (new.slot kind))).Rereferences :=
      onRegistry_rereferences (.changeReference (old.slot kind) (new.slot kind)) rfl fun r => by
        rw [Registry.after_eq_stateAfter, Registry.exec, stateAfter_map]
    exact hchange.bind fun _ => ih

end Graph

end FormatNegotiation
