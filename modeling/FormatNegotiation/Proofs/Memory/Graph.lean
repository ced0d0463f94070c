import FormatNegotiation.Memory.Graph
import FormatNegotiation.Proofs.Graph.Atomicity
import FormatNegotiation.Proofs.Memory.Registry

/-! Graphs where room may be refused. A command that fails leaves the graph as it was, with one
exception: a negotiation merges kind by kind, and one that is refused room for a later kind leaves
the earlier ones merged. -/
namespace FormatNegotiation

/-- There is a request that is refused for this cause. -/
def Memory.Refuses (memory : Memory) (cause : ReserveError) : Prop :=
  ∃ request, memory request = some cause

theorem Memory.not_ample_refuses (cause : ReserveError) : ¬ Memory.ample.Refuses cause := by
  simp [Refuses, ample]

/-- The room that a command cannot do without if it is to be all or nothing: that for the kinds
which a negotiation merges after another one. -/
def Memory.Suffices (memory : Memory) : Graph.Command → Prop
  | .negotiateLink _ _ => ∀ kind, kind ≠ .formats → memory (.registry kind) = none
  | _ => True

/-- Of the kinds that a link negotiates formats come first. -/
theorem SetKind.eq_nil_of_applicable {media : Media} {done rest : List SetKind}
    (h : applicable media = done ++ .formats :: rest) : done = [] := by
  have hnd := applicable_nodup media
  rw [h] at hnd
  cases done with
  | nil => rfl
  | cons kind done =>
    have hfirst : (applicable media).head? = some .formats := rfl
    rw [h] at hfirst
    cases hfirst
    simp at hnd

namespace Graph

variable {g g' : Graph} {memory : Memory} {err : MemoryError}

theorem afterIn_eq_stateAfter (g : Graph) (memory : Memory) (c : Command) :
    g.afterIn memory c = stateAfter (execIn memory c) g := by
  unfold afterIn stateAfter
  cases execIn memory c g <;> rfl

theorem stateAfter_onRegistryIn {α : Type} (kind : SetKind)
    (act : Registry.MemoryAction kind.Contents α) (g : Graph) :
    stateAfter (onRegistryIn kind act) g =
      g.setRegistry kind (stateAfter act (g.registry kind)) := by
  unfold stateAfter onRegistryIn
  cases act (g.registry kind) <;> rfl

/-! ## Operations with one reservation -/

theorem onRegistryIn_reserving {α : Type} {refused : ReserveError → Prop} {kind : SetKind}
    {reserving : Registry.MemoryAction kind.Contents α} {act : Registry.Action kind.Contents α}
    (h : Reserving refused reserving act) :
    Reserving refused (onRegistryIn kind reserving) (onRegistry kind act) := by
  intro g
  simp only [onRegistryIn, withoutRoom, onRegistry]
  rcases h (g.registry kind) with heq | ⟨cause, hcause, heq⟩
  · rw [heq, withoutRoom]
    cases act (g.registry kind) <;> exact .inl rfl
  · exact .inr ⟨cause, hcause, by simp only [heq, setRegistry_self]⟩

theorem installIn_reserving (memory : Memory) (kind : SetKind) (contents : kind.Contents)
    (node : NodeId) :
    Reserving memory.Refuses (installIn memory kind contents node)
      (install kind contents node) := by
  intro g
  unfold installIn withoutRoom install
  cases g.eligibleSlots kind node with
  | error e => exact .inl rfl
  | ok slots =>
    have hattach := onRegistryIn_reserving
      (withRoom_reserving (memory (.registry kind)) (fun _ id? => id?.isSome)
        (Registry.attach contents slots))
    exact (hattach.mono fun cause hcause => ⟨.registry kind, hcause⟩).map (fun _ => ()) g

theorem installLayoutsIn_reserving (memory : Memory) (entries : List ChannelLayout)
    (node : NodeId) :
    Reserving memory.Refuses (installLayoutsIn memory entries node)
      (installLayouts entries node) := by
  intro g
  unfold installLayoutsIn withoutRoom installLayouts
  rcases LayoutSet.ofListIn_cases (fun place => memory (.entry place)) entries with
    heq | ⟨cause, ⟨place, hcause⟩, heq⟩
  all_goals rw [heq]
  · cases LayoutSet.ofList entries with
    | error e => exact .inl rfl
    | ok set => exact installIn_reserving memory .channelLayouts set node g
  · exact .inr ⟨cause, ⟨.entry place, hcause⟩, rfl⟩

/-! ## Negotiation -/

/-- The merging pass does what it does with all the room that it needs, or it gets as far as the
first kind for which room is refused. -/
theorem mergeEndsIn_cases (memory : Memory) (catalog : Catalog) (l : Link) (kinds : List SetKind)
    (g : Graph) :
    mergeEndsIn memory catalog l kinds g = withoutRoom (mergeEnds catalog l kinds) g ∨
      ∃ cause done kind rest g', kinds = done ++ kind :: rest ∧
        memory (.registry kind) = some cause ∧ mergeEnds catalog l done g = .ok .merged g' ∧
        mergeEndsIn memory catalog l kinds g = .error (.alloc cause) g' := by
  induction kinds generalizing g with
  | nil => exact .inl rfl
  | cons kind rest ih =>
    cases hends : g.endSets? l kind with
    | none =>
      have hskip : mergeEndsIn memory catalog l (kind :: rest) g =
          mergeEndsIn memory catalog l rest g := by simp only [mergeEndsIn, hends]
      rw [hskip, withoutRoom, mergeEnds_of_endSets?_none hends]
      rcases ih g with heq | ⟨cause, done, kind', rest', g', rfl, hcause, hdone, heq⟩
      · exact .inl heq
      · refine .inr ⟨cause, kind :: done, kind', rest', g', rfl, hcause, ?_, heq⟩
        rwa [mergeEnds_of_endSets?_none hends]
    | some ends =>
      obtain ⟨a, b⟩ := ends
      have hmerge := onRegistryIn_reserving (withRoom_reserving (memory (.registry kind))
        (Registry.mergeAsks a b) (Registry.merge (kind.rule l.media catalog) a b)) g
      simp only [mergeEndsIn, withoutRoom, mergeEnds, hends, Registry.mergeIn]
      rcases hmerge with heq | ⟨cause, hcause, heq⟩
      · rw [heq, withoutRoom]
        cases hres : onRegistry kind (Registry.merge (kind.rule l.media catalog) a b) g with
        | error e g' => exact .inl rfl
        | ok outcome g' =>
          cases outcome with
          | incompatible => exact .inl rfl
          | merged =>
            rcases ih g' with
              heq' | ⟨cause, done, kind', rest', g'', rfl, hcause, hdone, heq'⟩
            · exact .inl heq'
            · refine .inr ⟨cause, kind :: done, kind', rest', g'', rfl, hcause, ?_, heq'⟩
              simp only [mergeEnds, hends, hres, hdone]
      · exact .inr ⟨cause, [], kind, rest, g, rfl, hcause, rfl, by rw [heq]⟩

theorem negotiateLinkIn_cases (memory : Memory) (catalog : Catalog) (link : LinkId) (g : Graph) :
    negotiateLinkIn memory catalog link g = withoutRoom (negotiateLink catalog link) g ∨
      ∃ l cause done kind rest g', g.link? link = some l ∧
        (∀ kind ∈ SetKind.applicable l.media, ¬ g.Refuses catalog l kind) ∧
        SetKind.applicable l.media = done ++ kind :: rest ∧
        memory (.registry kind) = some cause ∧ mergeEnds catalog l done g = .ok .merged g' ∧
        negotiateLinkIn memory catalog link g = .error (.alloc cause) g' := by
  simp only [negotiateLinkIn, withoutRoom, negotiateLink]
  cases hl : g.link? link with
  | none => exact .inl rfl
  | some l =>
    dsimp only
    cases hfind : (SetKind.applicable l.media).find? (!g.endsCompatible catalog l ·) with
    | some kind => exact .inl rfl
    | none =>
      rcases mergeEndsIn_cases memory catalog l (SetKind.applicable l.media) g with
        heq | ⟨cause, done, kind, rest, g', hkinds, hcause, hdone, heq⟩
      · exact .inl heq
      · exact .inr ⟨l, cause, done, kind, rest, g', rfl, find?_endsCompatible_eq_none.mp hfind,
          hkinds, hcause, hdone, heq⟩

/-! ## With all the room that is needed -/

theorem installIn_ample (kind : SetKind) (contents : kind.Contents) (node : NodeId) :
    installIn .ample kind contents node = withoutRoom (install kind contents node) :=
  (installIn_reserving .ample kind contents node).eq_withoutRoom Memory.not_ample_refuses

theorem installDefaultsIn_ample (catalog : Catalog) (node : NodeId) :
    installDefaultsIn .ample catalog node = withoutRoom (installDefaults catalog node) := by
  funext g
  simp only [installDefaultsIn, withoutRoom, installDefaults]
  cases g.node? node with
  | none => rfl
  | some n =>
    simp only [installIn_ample]
    by_cases haudio : n.defaultMedia.isAudio
    · simp only [if_pos haudio, ← withoutRoom_bind]
      rfl
    · simp only [if_neg haudio, bind, EStateM.bind, withoutRoom]
      cases install .formats (FormatList.allFormats n.defaultMedia catalog) node g <;> rfl

theorem negotiateLinkIn_ample (catalog : Catalog) (link : LinkId) :
    negotiateLinkIn .ample catalog link = withoutRoom (negotiateLink catalog link) := by
  funext g
  refine (negotiateLinkIn_cases .ample catalog link g).resolve_right ?_
  rintro ⟨-, cause, -, kind, -, -, -, -, -, hcause, -⟩
  exact Memory.not_ample_refuses cause ⟨.registry kind, hcause⟩

/-- Memory that refuses nothing can be left out of account. -/
theorem execIn_ample (c : Command) : execIn .ample c = withoutRoom (exec c) := by
  cases c with
  | addFilter | addLink | insertFilter => rfl
  | removeNode node => rw [execIn, exec, withoutRoom_map]; rfl
  | install kind contents node => rw [execIn, installIn_ample, exec, withoutRoom_map]
  | installLayouts entries node =>
    have hlayouts := installLayoutsIn_reserving .ample entries node
    rw [execIn, hlayouts.eq_withoutRoom Memory.not_ample_refuses, exec, withoutRoom_map]
  | installAnyRate node => rw [execIn, installIn_ample, exec, withoutRoom_map]; rfl
  | installAnyLayout node => rw [execIn, installIn_ample, exec, withoutRoom_map]; rfl
  | installDefaults catalog node => rw [execIn, installDefaultsIn_ample, exec, withoutRoom_map]
  | negotiateLink catalog link => rw [execIn, negotiateLinkIn_ample, exec, withoutRoom_map]
  | onRegistry kind command =>
    have hcommand : Reserving (fun _ => False)
        (onRegistryIn kind (withoutRoom (Registry.exec command)))
        (onRegistry kind (Registry.exec command)) := onRegistryIn_reserving (.withoutRoom _)
    rw [execIn, exec, withoutRoom_map, ← hcommand.eq_withoutRoom fun _ => not_false]
    simp only [Memory.ample, Registry.execIn_none]

/-! ## What a command leaves -/

theorem rereferences_of_reserving {α : Type} {refused : ReserveError → Prop}
    {reserving : MemoryAction α} {act : Action α} (h : Reserving refused reserving act)
    (hact : act.Rereferences) (g : Graph) : Rereferenced g (stateAfter reserving g) := by
  rcases h.stateAfter_cases g with heq | heq
  all_goals rw [heq]
  · exact hact g
  · exact .refl g

theorem installIn_rereferences (memory : Memory) (kind : SetKind) (contents : kind.Contents)
    (node : NodeId) (g : Graph) :
    Rereferenced g (stateAfter (installIn memory kind contents node) g) :=
  rereferences_of_reserving (installIn_reserving memory kind contents node)
    (install_rereferences kind contents node) g

theorem installDefaultsIn_rereferences (memory : Memory) (catalog : Catalog) (node : NodeId)
    (g : Graph) : Rereferenced g (stateAfter (installDefaultsIn memory catalog node) g) := by
  unfold stateAfter installDefaultsIn
  cases g.node? node with
  | none => exact .refl g
  | some n =>
    refine (installIn_rereferences memory .formats _ node g).bind fun _ g' => ?_
    split
    · exact (installIn_rereferences memory .channelLayouts .allCounts node g').bind
        fun _ => installIn_rereferences memory .sampleRates _ node
    · exact .refl g'

theorem negotiateLinkIn_rereferences (memory : Memory) (catalog : Catalog) (link : LinkId)
    (g : Graph) : Rereferenced g (stateAfter (negotiateLinkIn memory catalog link) g) := by
  rcases negotiateLinkIn_cases memory catalog link g with
    heq | ⟨l, cause, done, kind, rest, g', -, -, -, -, hdone, heq⟩
  · rw [stateAfter, heq, ← stateAfter, stateAfter_withoutRoom]
    exact negotiateLink_rereferences catalog link g
  · rw [stateAfter_of_error heq]
    exact (mergeEnds_rereferences catalog l done).of_ok hdone

theorem releaseEndIn_evolves (rs : Registries) (refusal? : SetKind → Option ReserveError)
    (e : LinkEnd) : rs.Evolves (rs.releaseEndIn refusal? e) := by
  intro kind
  obtain ⟨c, hc⟩ := Registry.releaseSlotIn_eq_after (refusal? kind) (rs.of kind) (e.slot kind)
  refine ⟨[c], ?_⟩
  cases kind <;> exact hc

theorem releaseLinksIn_evolves (memory : Memory) (rs : Registries) (ls : List Link) :
    rs.Evolves (ls.foldl (releaseLinkIn memory) rs) := by
  induction ls generalizing rs with
  | nil => exact .refl rs
  | cons l ls ih =>
    have hlink : rs.Evolves (releaseLinkIn memory rs l) :=
      (releaseEndIn_evolves rs _ l.sourceEnd).trans (releaseEndIn_evolves _ _ l.targetEnd)
    exact hlink.trans (ih _)

namespace Grounded

theorem of_rereferenced (hg : g.Grounded) (h : Rereferenced g g') : g'.Grounded :=
  hg.of_change (c := .addFilter "" [] []) (.references h)

theorem after_removeNodeIn (hg : g.Grounded) (memory : Memory) (node : NodeId) :
    (stateAfter (removeNodeIn memory node) g).Grounded := by
  unfold stateAfter removeNodeIn
  cases g.node? node with
  | none => exact hg
  | some n =>
    have hevolves := releaseLinksIn_evolves memory g.registries (g.touching node)
    refine ⟨hevolves.wellFormed hg.wellFormed, fun kind slot hslot => ?_⟩
    have hmem := List.mem_append_right (g.slotsTouching node kind) hslot
    have hold := (g.endSlots_withoutNode_perm node kind).mem_iff.mp hmem
    obtain ⟨cs, hcs⟩ := hevolves kind
    have hgrows : (g.registry kind).slotCount ≤ ((g.registries.of kind).run cs).slotCount :=
      (g.registry kind).slotCount_le_run cs
    rw [← hcs] at hgrows
    exact Nat.lt_of_lt_of_le (hg.issued kind slot hold) hgrows

theorem after_onRegistryIn (hg : g.Grounded) (kind : SetKind) (refusal? : Option ReserveError)
    (c : Registry.Command kind.Contents) :
    (stateAfter (onRegistryIn kind (Registry.execIn refusal? c)) g).Grounded := by
  rw [stateAfter_onRegistryIn]
  rcases Registry.stateAfter_execIn_cases refusal? c (g.registry kind) with
    heq | heq | ⟨slot, heq⟩
  all_goals rw [heq]
  · have hchange := after_change g (.onRegistry kind c)
    rw [after_eq_stateAfter, exec, stateAfter_map, stateAfter_onRegistry,
      ← Registry.after_eq_stateAfter] at hchange
    exact hg.of_change hchange
  · rwa [setRegistry_self]
  · exact hg.of_rereferenced (.of_command (.removeReference slot) rfl)

theorem afterIn (hg : g.Grounded) (memory : Memory) (c : Command) :
    (g.afterIn memory c).Grounded := by
  rw [afterIn_eq_stateAfter]
  cases c with
  | addFilter | addLink | insertFilter =>
    rw [execIn, stateAfter_withoutRoom, ← after_eq_stateAfter]
    exact hg.of_change (after_change g _)
  | removeNode node =>
    rw [execIn, stateAfter_map, stateAfter_withoutRoom, stateAfter_liftStructural]
    exact hg.after_removeNodeIn memory node
  | onRegistry kind command =>
    rw [execIn, stateAfter_map]
    exact hg.after_onRegistryIn kind _ command
  | install kind contents node =>
    rw [execIn, stateAfter_map]
    exact hg.of_rereferenced (installIn_rereferences memory kind contents node g)
  | installLayouts entries node =>
    rw [execIn, stateAfter_map]
    exact hg.of_rereferenced (rereferences_of_reserving
      (installLayoutsIn_reserving memory entries node) (installLayouts_rereferences entries node) g)
  | installAnyRate node =>
    rw [execIn, stateAfter_map]
    exact hg.of_rereferenced (installIn_rereferences memory .sampleRates _ node g)
  | installAnyLayout node =>
    rw [execIn, stateAfter_map]
    exact hg.of_rereferenced (installIn_rereferences memory .channelLayouts _ node g)
  | installDefaults catalog node =>
    rw [execIn, stateAfter_map]
    exact hg.of_rereferenced (installDefaultsIn_rereferences memory catalog node g)
  | negotiateLink catalog link =>
    rw [execIn, stateAfter_map]
    exact hg.of_rereferenced (negotiateLinkIn_rereferences memory catalog link g)

theorem runIn (hg : g.Grounded) (cs : List (Memory × Command)) : (g.runIn cs).Grounded := by
  induction cs generalizing g with
  | nil => exact hg
  | cons c cs ih => exact ih (hg.afterIn c.1 c.2)

end Grounded

/-! ## Commands that fail -/

theorem onRegistryIn_error {α : Type} {kind : SetKind} {act : Registry.MemoryAction kind.Contents α}
    (hact : ∀ r', act (g.registry kind) = .error err r' → r' = g.registry kind)
    (h : onRegistryIn kind act g = .error err g') : g' = g := by
  unfold onRegistryIn at h
  cases hres : act (g.registry kind) with
  | ok x r =>
    rw [hres] at h
    cases h
  | error e r =>
    rw [hres] at h
    cases h
    rw [hact r hres, setRegistry_self]

theorem removeNodeIn_error {node : NodeId} {e : GraphError}
    (h : removeNodeIn memory node g = .error e g') : g' = g := by
  unfold removeNodeIn at h
  cases hn : g.node? node with
  | none =>
    rw [hn] at h
    cases h
    rfl
  | some n =>
    rw [hn] at h
    cases h

section Negotiation

variable {catalog : Catalog} {link : LinkId}

/-- A negotiation that fails finds no link, or it is refused room for some kind. The kinds before
that one are then merged, and everything else is as it was. -/
theorem Grounded.negotiateLinkIn_error (hg : g.Grounded)
    (h : negotiateLinkIn memory catalog link g = .error err g') :
    (g.link? link = none ∧ err = .format (.graph .invalidLink) ∧ g' = g) ∨
      ∃ l cause done kind rest, g.link? link = some l ∧ err = .alloc cause ∧
        SetKind.applicable l.media = done ++ kind :: rest ∧
        memory (.registry kind) = some cause ∧ JoinsEnds catalog l done g g' := by
  rcases negotiateLinkIn_cases memory catalog link g with
    heq | ⟨l, cause, done, kind, rest, g'', hl, hrefuses, hkinds, hcause, hdone, heq⟩
  · obtain ⟨e, rfl, hres⟩ := withoutRoom_eq_error_iff.mp (heq ▸ h)
    have hnone := (negotiateLink_error_iff hg.wellFormed).mp ⟨e, g', hres⟩
    cases hres.symm.trans (negotiateLink_of_link?_none hnone catalog)
    exact .inl ⟨hnone, rfl, rfl⟩
  · cases heq.symm.trans h
    have hnodup := SetKind.applicable_nodup l.media
    rw [hkinds] at hnodup hrefuses
    obtain ⟨g'', hmerged, hjoins⟩ := mergeEnds_of_not_refuses hg.wellFormed
      (List.nodup_append.mp hnodup).1 fun kind hkind => hrefuses kind (List.mem_append_left _ hkind)
    cases hdone.symm.trans hmerged
    exact .inr ⟨l, cause, done, kind, rest, hl, rfl, hkinds, hcause, hjoins⟩

/-- Room is refused for the rates of an audio link, when its formats are merged. -/
example :
    let cs : List Command :=
      [.addFilter "source" [] [.audio], .addFilter "sink" [.audio] [],
        .addLink ⟨⟨0, 0⟩, ⟨1, 0⟩, .audio⟩, .install .formats [1, 2] 0, .install .formats [2, 3] 1,
        .install .sampleRates [44100] 0, .install .sampleRates [44100, 48000] 1]
    let memory : Memory := fun request =>
      if request = .registry .sampleRates then some .allocator else none
    let g := (runIn .empty (cs.map (.ample, ·))).afterIn memory (.negotiateLink .builtin 0)
    g.registries.formats.liveSets = 1 ∧ g.registries.sampleRates.liveSets = 2 := by
  decide +kernel

/-- No kind comes before formats, so that only the room for the later kinds matters. -/
theorem Grounded.negotiateLinkIn_error_of_room (hg : g.Grounded)
    (hroom : ∀ kind, kind ≠ .formats → memory (.registry kind) = none)
    (h : negotiateLinkIn memory catalog link g = .error err g') : g' = g := by
  rcases negotiateLinkIn_cases memory catalog link g with
    heq | ⟨l, cause, done, kind, rest, g'', -, -, hkinds, hcause, hdone, heq⟩
  · obtain ⟨e, -, hres⟩ := withoutRoom_eq_error_iff.mp (heq ▸ h)
    exact hg.negotiateLink_error hres
  · obtain rfl : kind = .formats := by
      by_contra hkind
      cases (hroom kind hkind).symm.trans hcause
    obtain rfl : done = [] := SetKind.eq_nil_of_applicable hkinds
    cases hdone
    cases heq.symm.trans h
    rfl

end Negotiation

theorem Grounded.execIn_error (hg : g.Grounded) {c : Command}
    (hc : ∀ catalog node, c ≠ .installDefaults catalog node) (hroom : memory.Suffices c)
    (h : execIn memory c g = .error err g') : g' = g := by
  have hexec : ∀ e g', exec c g = .error e g' → g' = g := fun e g' => hg.exec_error hc
  cases c with
  | addFilter | addLink | insertFilter =>
    rw [execIn] at h
    obtain ⟨e, -, hres⟩ := withoutRoom_eq_error_iff.mp h
    exact hexec e g' hres
  | removeNode node =>
    obtain ⟨e, -, hres⟩ := withoutRoom_eq_error_iff.mp (map_eq_error_iff.mp h)
    obtain ⟨e', hremove⟩ := liftStructural_error hres
    exact removeNodeIn_error hremove
  | install kind contents node =>
    exact ((installIn_reserving memory kind contents node).map _).error_eq hexec h
  | installLayouts entries node =>
    exact ((installLayoutsIn_reserving memory entries node).map _).error_eq hexec h
  | installAnyRate node =>
    exact ((installIn_reserving memory .sampleRates _ node).map _).error_eq hexec h
  | installAnyLayout node =>
    exact ((installIn_reserving memory .channelLayouts _ node).map _).error_eq hexec h
  | installDefaults catalog node => exact absurd rfl (hc catalog node)
  | negotiateLink catalog link =>
    exact hg.negotiateLinkIn_error_of_room hroom (map_eq_error_iff.mp h)
  | onRegistry kind command =>
    exact onRegistryIn_error (fun _ => Registry.execIn_error) (map_eq_error_iff.mp h)

/-- Both ends of a link are taken back past the graph. The insertion hands the slots out again, the
one at the target to the target end of the new link. -/
example :
    let cs : List Command :=
      [.addFilter "source" [] [.video], .addFilter "scale" [.video] [.video],
        .addFilter "sink" [.video] [], .addLink ⟨⟨0, 0⟩, ⟨2, 0⟩, .video⟩,
        .onRegistry .formats (.releaseSlot 1), .onRegistry .formats (.releaseSlot 0),
        .insertFilter 0 1 0 0]
    ((runIn .empty (cs.map (.ample, ·))).link? 1).map (·.targetEnd.formats) = some 1 := by
  decide +kernel

end Graph

end FormatNegotiation
