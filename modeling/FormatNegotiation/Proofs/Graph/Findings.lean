import FormatNegotiation.Proofs.Graph.Negotiation
import FormatNegotiation.Proofs.Graph.Structure
import FormatNegotiation.Proofs.Registry.Indices

/-! What a command to a graph checks on its way always holds, and every place that it looks up by
number alone is there, those that a search marks among them. -/
namespace FormatNegotiation

/-! ## The vertices that a search visits -/

section Search

variable {α : Type} [DecidableEq α] {target : α} {edges : List (α × α)} {todo : List α}

/-- The search for a path, together with the vertices whose marks it reads on its way. -/
def searchVisits (target : α) (edges : List (α × α)) : List α → Bool × List α
  | [] => (false, [])
  | v :: todo =>
    if v = target then (true, [])
    else
      let rest := searchVisits target (edgesElsewhere edges v) (successors edges v ++ todo)
      (rest.1, v :: rest.2)
termination_by todo => edges.length + todo.length
decreasing_by
  have := length_edgesElsewhere_add_length_successors edges v
  simp only [List.length_append, List.length_cons]
  omega

theorem searchVisits_fst (target : α) (edges : List (α × α)) (todo : List α) :
    (searchVisits target edges todo).1 = searchEdges target edges todo := by
  induction edges, todo using searchEdges.induct target with
  | case1 edges => rw [searchVisits, searchEdges]
  | case2 edges todo => rw [searchVisits, searchEdges, if_pos rfl, if_pos rfl]
  | case3 edges v todo hne ih => rw [searchVisits, searchEdges, if_neg hne, if_neg hne, ih]

/-- The search keeps to what can be reached. -/
theorem hasPath_of_mem_visits {v : α} (hv : v ∈ (searchVisits target edges todo).2) :
    ∃ start ∈ todo, HasPath edges start v := by
  induction edges, todo using searchEdges.induct target with
  | case1 edges => simp [searchVisits] at hv
  | case2 edges todo => simp [searchVisits] at hv
  | case3 edges u todo hne ih =>
    rw [searchVisits, if_neg hne] at hv
    rcases List.mem_cons.mp hv with rfl | hlater
    · exact ⟨v, List.mem_cons_self, .refl edges v⟩
    · obtain ⟨start, hstart, hpath⟩ := ih hlater
      have hpath' : HasPath edges start v := hpath.mono (edgesElsewhere_subset edges u)
      rcases List.mem_append.mp hstart with hnext | htodo
      · have hedge : HasPath edges u start := .of_edge (mem_successors.mp hnext)
        exact ⟨u, List.mem_cons_self, hedge.trans hpath'⟩
      · exact ⟨start, List.mem_cons_of_mem u htodo, hpath'⟩

end Search

/-! ## Merged slots -/

/-- After their sets were merged two slots hold the same set. -/
theorem Registry.held?_eq_of_merged {σ : Type} [Mergeable σ] [LawfulMergeable σ]
    {r r' : Registry σ} {rule : Mergeable.Rule σ} {s t : SlotId} {a b : SetId} (h : r.WellFormed)
    (hs : r.held? s = some a) (ht : r.held? t = some b)
    (hres : merge rule a b r = .ok .merged r') :
    r'.WellFormed ∧ r'.held? s = r'.held? t := by
  have haccepted : ¬ r.Refuses rule s t := by
    intro hrefuses
    obtain ⟨x, hx, -⟩ := h.linked.mem_of_held hs
    obtain ⟨y, hy, -⟩ := h.linked.mem_of_held ht
    obtain ⟨hne, hdisjoint⟩ := (refuses_iff hs ht hx hy).mp hrefuses
    rcases merge_of_live h rule hne hx hy with ⟨-, heq⟩ | ⟨_, _, _, _, hsome, -, -, -⟩
    · cases heq.symm.trans hres
    · rw [hdisjoint] at hsome
      cases hsome
  obtain ⟨r'', heq, hjoins⟩ := merge_of_not_refuses h hs ht haccepted
  cases heq.symm.trans hres
  obtain ⟨survivor, -, hsurvivor⟩ := (hjoins.unites hs ht).exists_survivor
  exact ⟨hjoins.wellFormed h, (hsurvivor s (.inl hs)).trans (hsurvivor t (.inr ht)).symm⟩

instance : (kind : SetKind) → VerifiedMergeable kind.Contents
  | .formats => inferInstanceAs (VerifiedMergeable FormatList)
  | .sampleRates => inferInstanceAs (VerifiedMergeable FormatList)
  | .channelLayouts => inferInstanceAs (VerifiedMergeable LayoutSet)

namespace Graph

variable {g : Graph}

/-! ## Checks -/

theorem removeNodeFindings_hold (h : ∀ kind, (g.registry kind).WellFormed) (node : NodeId) :
    AllHold (g.removeNodeFindings node) := by
  unfold removeNodeFindings
  split
  · exact .nil
  · intro f hf
    obtain ⟨kind, -, hkind⟩ := List.mem_flatMap.mp hf
    exact Registry.releaseSlotsFindings_hold (h kind) _ f hkind

theorem installFindings_hold (h : ∀ kind, (g.registry kind).WellFormed) (kind : SetKind)
    (contents : kind.Contents) (node : NodeId) :
    AllHold (g.installFindings kind contents node) := by
  unfold installFindings
  split
  · exact .nil
  · exact Registry.attachFindings_hold (h kind) contents _

theorem installLayoutsFindings_hold (h : ∀ kind, (g.registry kind).WellFormed)
    (entries : List ChannelLayout) (node : NodeId) :
    AllHold (g.installLayoutsFindings entries node) := by
  unfold installLayoutsFindings
  apply (LayoutSet.ofListFindings_hold none entries).append
  split
  · exact .nil
  · exact installFindings_hold h .channelLayouts _ node

theorem installAllFindings_hold (h : ∀ kind, (g.registry kind).WellFormed) (node : NodeId)
    (sets : List ((kind : SetKind) × kind.Contents)) :
    AllHold (installAllFindings node sets g) := by
  induction sets generalizing g with
  | nil => exact .nil
  | cons set rest ih =>
    obtain ⟨kind, contents⟩ := set
    apply (installFindings_hold h kind contents node).append
    cases hres : install kind contents node g with
    | error e g' => exact .nil
    | ok u g' =>
      have hrefs := (install_rereferences kind contents node).of_ok hres
      exact ih (hrefs.evolves.wellFormed h)

theorem installDefaultsFindings_hold (h : ∀ kind, (g.registry kind).WellFormed) (catalog : Catalog)
    (node : NodeId) : AllHold (g.installDefaultsFindings catalog node) := by
  unfold installDefaultsFindings
  split
  · exact .nil
  · exact installAllFindings_hold h node _

theorem mergeEndsFindings_hold (h : ∀ kind, (g.registry kind).WellFormed) (catalog : Catalog)
    (l : Link) (kinds : List SetKind) : AllHold (mergeEndsFindings catalog l kinds g) := by
  induction kinds generalizing g with
  | nil => exact .nil
  | cons kind rest ih =>
    rw [mergeEndsFindings]
    rcases g.endSets?_cases l kind with ⟨hends, -⟩ | ⟨a, b, hends, hs, ht⟩
    · rw [hends]
      exact ih h
    · rw [hends]
      apply (Registry.mergeFindings_hold (h kind) (kind.rule l.media catalog) a b).append
      unfold onRegistry
      cases hres : Registry.merge (kind.rule l.media catalog) a b (g.registry kind) with
      | error e r => exact .nil
      | ok outcome r =>
        cases outcome with
        | incompatible => exact .nil
        | merged =>
          obtain ⟨hr, hagree⟩ := Registry.held?_eq_of_merged (h kind) hs ht hres
          have hends' : (g.setRegistry kind r).endsAgree l kind = true := by
            simpa [endsAgree] using hagree
          exact .cons hends' (ih (Registries.set_wellFormed h hr))

theorem negotiateLinkFindings_hold (h : ∀ kind, (g.registry kind).WellFormed) (catalog : Catalog)
    (link : LinkId) : AllHold (g.negotiateLinkFindings catalog link) := by
  unfold negotiateLinkFindings
  split
  · exact .nil
  · split
    · exact mergeEndsFindings_hold h catalog _ _
    · exact .nil

theorem moveReferencesFindings_hold (h : ∀ kind, (g.registry kind).WellFormed) (old new : LinkEnd)
    (kinds : List SetKind) : AllHold (moveReferencesFindings old new kinds g) := by
  induction kinds generalizing g with
  | nil => exact .nil
  | cons kind rest ih =>
    rw [moveReferencesFindings]
    apply (Registry.changeReferenceFindings_hold (h kind) _ _).append
    cases hres : onRegistry kind
        (Registry.changeReference (old.slot kind) (new.slot kind)) g with
    | error e g' => exact .nil
    | ok u g' =>
      have hone : moveReferences old new [kind] g = .ok () g' :=
        bind_eq_ok_iff.mpr ⟨u, g', hres, rfl⟩
      have hmoved := (moveReferences_rereferences old new [kind]).of_ok hone
      exact ih (hmoved.evolves.wellFormed h)

theorem insertFilterFindings_hold (h : ∀ kind, (g.registry kind).WellFormed) (link : LinkId)
    (node : NodeId) (inPad outPad : PadId) :
    AllHold (g.insertFilterFindings link node inPad outPad) := by
  unfold insertFilterFindings
  split
  · exact .nil
  · exact moveReferencesFindings_hold (g.withFreshEnds_evolves.wellFormed h) _ _ _

theorem findings_hold (h : ∀ kind, (g.registry kind).WellFormed) (c : Command) :
    AllHold (g.findings c) := by
  cases c with
  | addFilter name inputs outputs => exact .nil
  | addLink edge => exact .nil
  | removeNode node => exact removeNodeFindings_hold h node
  | install kind contents node => exact installFindings_hold h kind contents node
  | installLayouts entries node => exact installLayoutsFindings_hold h entries node
  | installAnyRate node => exact installFindings_hold h .sampleRates _ node
  | installAnyLayout node => exact installFindings_hold h .channelLayouts _ node
  | installDefaults catalog node => exact installDefaultsFindings_hold h catalog node
  | negotiateLink catalog link => exact negotiateLinkFindings_hold h catalog link
  | insertFilter link node inPad outPad => exact insertFilterFindings_hold h link node inPad outPad
  | onRegistry kind command => exact Registry.findings_hold (h kind) command

/-! ## Searches -/

/-- The searches that a command may make, each from a start to a target: those by which a connection
or an insertion rules out cycles, if the nodes and the link that it names are there. -/
def searches (g : Graph) : Command → List (NodeId × NodeId)
  | .addLink e =>
    match g.node? e.source.node, g.node? e.target.node with
    | some _, some _ => [(e.target.node, e.source.node)]
    | _, _ => []
  | .insertFilter link node _ _ =>
    match g.link? link, g.node? node with
    | some l, some _ => [(node, l.source.node), (l.target.node, node)]
    | _, _ => []
  | _ => []

/-- Links lead to nodes that are there. -/
theorem Structured.lt_size_of_hasPath (hg : g.Structured) {u v : NodeId} (hu : u < g.nodes.size)
    (h : HasPath g.edges u v) : v < g.nodes.size := by
  induction h with
  | refl => exact hu
  | tail _ hedge _ =>
    obtain ⟨id, l, hl, -, rfl⟩ := mem_edges.mp hedge
    obtain ⟨n, hn, -⟩ := (hg.fits hl).target
    exact lt_size_of_node? hn

theorem Structured.start_lt_size (hg : g.Structured) {c : Command} {start target : NodeId}
    (h : (start, target) ∈ g.searches c) : start < g.nodes.size := by
  cases c with
  | addLink e =>
    simp only [searches] at h
    split at h
    · rename_i hn
      obtain ⟨rfl, -⟩ := Prod.mk.inj (List.mem_singleton.mp h)
      exact lt_size_of_node? hn
    · simp at h
  | insertFilter link node inPad outPad =>
    simp only [searches] at h
    split at h
    · rename_i l n hl hn
      have hstart : start = node ∨ start = l.target.node := by
        simp only [List.mem_cons, Prod.mk.injEq, List.not_mem_nil, or_false] at h
        exact h.imp And.left And.left
      rcases hstart with rfl | rfl
      · exact lt_size_of_node? hn
      · obtain ⟨n', hn', -⟩ := (hg.fits hl).target
        exact lt_size_of_node? hn'
    · simp at h
  | _ => simp [searches] at h

/-! ## Nothing can go wrong -/

/-- Nothing can go wrong on the way of a command to a graph. What it checks holds, the registries
change only by commands of their own, which are safe whatever they are, and a search reads marks of
nodes that have a place. -/
structure Safe (g : Graph) (c : Command) : Prop where
  findings_hold : AllHold (g.findings c)
  evolves : g.registries.Evolves (g.after c).registries
  registries_safe (kind : SetKind) (commands : List (Registry.Command kind.Contents))
    (c' : Registry.Command kind.Contents) : ((g.registry kind).run commands).Safe c'
  visits_lt {start target : NodeId} : (start, target) ∈ g.searches c →
    (searchVisits target g.edges [start]).1 = g.reaches start target ∧
      ∀ v ∈ (searchVisits target g.edges [start]).2, v < g.nodes.size

theorem Structured.safe (hg : g.Structured) (h : ∀ kind, (g.registry kind).WellFormed)
    (c : Command) : g.Safe c where
  findings_hold := findings_hold h c
  evolves := (after_change g c).evolves
  registries_safe kind commands c' := (Registry.run_wellFormed_of (h kind) commands).safe c'
  visits_lt hsearch := by
    refine ⟨searchVisits_fst _ _ _, fun v hv => ?_⟩
    obtain ⟨start, hstart, hpath⟩ := hasPath_of_mem_visits hv
    obtain rfl := List.mem_singleton.mp hstart
    exact hg.lt_size_of_hasPath (hg.start_lt_size hsearch) hpath

end Graph

/-- No check fails and no index is out of range, whatever lists of layouts are built, whatever is
asked of a registry, and whatever is done to a graph or to its registries directly. -/
theorem runs_safe :
    (∀ l set?, AllHold (LayoutSet.addFindings l set?)) ∧
    (∀ entries, AllHold (LayoutSet.ofListFindings none entries)) ∧
    (∀ (cs : List (Registry.Command FormatList)) (c : Registry.Command FormatList),
      (Registry.run .empty cs).Safe c) ∧
    (∀ (cs : List (Registry.Command LayoutSet)) (c : Registry.Command LayoutSet),
      (Registry.run .empty cs).Safe c) ∧
    ∀ (building : List Builder.Command) (cs : List Graph.Command) (c : Graph.Command),
      ((Builder.run .empty building).build.run cs).Safe c := by
  refine ⟨LayoutSet.addFindings_hold, LayoutSet.ofListFindings_hold none,
    fun cs => (Registry.run_wellFormed cs).safe, fun cs => (Registry.run_wellFormed cs).safe,
    fun building cs c => ?_⟩
  obtain ⟨commands, hbuilt⟩ := Builder.exists_graph_run building
  have hrun : (Builder.run .empty building).build.run cs = Graph.run .empty (commands ++ cs) := by
    rw [hbuilt]
    exact List.foldl_append.symm
  rw [hrun]
  exact (Graph.empty_structured.run _).safe (Graph.registry_wellFormed _) c

end FormatNegotiation
