import FormatNegotiation.Proofs.Graph.Structure
import Mathlib.Data.List.Chain

/-! The names of a builder are those of the nodes of its graph, each name at one node. A chain that
succeeds runs through different filters, since the graph has no cycles. -/
namespace FormatNegotiation

namespace Graph

theorem liveLinks_pushLink (g : Graph) (e : Edge) :
    (g.pushLink e).liveLinks = g.liveLinks ++ [g.nextLink e] := by
  simp [pushLink_eq, liveLinks, appendLink, withFreshEnds]

end Graph

namespace Builder

variable {b b' : Builder} {media : Media} {names : List String} {name source target : String}
  {id : NodeId}

theorem handle_eq_ok : b.handle name = .ok id ↔ b.names.lookup name = some id := by
  unfold handle
  cases b.names.lookup name <;> simp

/-! ## Names and nodes -/

/-- A name leads to the node of that name. -/
def Named (b : Builder) : Prop :=
  ∀ name id, b.names.lookup name = some id ↔ ∃ n, b.graph.node? id = some n ∧ n.name = name

theorem Named.congr (h : b.Named) (hnames : b'.names = b.names)
    (hnodes : b'.graph.nodes = b.graph.nodes) : b'.Named := by
  intro name id
  rw [hnames, h, Graph.node?, Graph.node?, hnodes]

theorem Named.filter (h : b.Named) (hnew : b.names.lookup name = none)
    (inputs outputs : List Media) :
    Named ⟨(b.graph.addFilter name inputs outputs).2, (name, b.graph.nodes.size) :: b.names⟩ := by
  intro name' id
  show List.lookup name' ((name, b.graph.nodes.size) :: b.names) = some id ↔
    ∃ n, (b.graph.addFilter name inputs outputs).2.node? id = some n ∧ n.name = name'
  rw [Graph.node?_addFilter, List.lookup_cons]
  by_cases hname : name' = name
  · subst hname
    have hunused : ¬ ∃ n, b.graph.node? id = some n ∧ n.name = name' := by
      rw [← h, hnew]
      simp
    by_cases hid : id = b.graph.nodes.size
    · simp [hid]
    · simpa [hid, Ne.symm hid] using hunused
  · have hother : (name' == name) = false := by simpa using hname
    rw [hother]
    by_cases hid : id = b.graph.nodes.size
    · have hfresh : b.names.lookup name' ≠ some id := by
        intro hlookup
        obtain ⟨n, hn, -⟩ := (h name' id).mp hlookup
        exact absurd hid (Nat.ne_of_lt (Graph.lt_size_of_node? hn))
      simpa [hid, Ne.symm hname] using hid ▸ hfresh
    · rw [if_neg hid]
      exact h name' id

theorem connectNamed_frame (source target : String) (media : Media) (b : Builder) :
    (stateAfter (connectNamed source target media) b).names = b.names ∧
      (stateAfter (connectNamed source target media) b).graph.nodes = b.graph.nodes := by
  rcases connectNamed_cases source target media b with ⟨e, heq⟩ | ⟨s, t, -, -, -, heq⟩
  · rw [stateAfter_of_error heq]
    exact ⟨rfl, rfl⟩
  · rw [stateAfter_of_ok heq]
    exact ⟨rfl, rfl⟩

/-- A chain adds links only. -/
theorem chain_frame (media : Media) (names : List String) (b : Builder) :
    (stateAfter (chain media names) b).names = b.names ∧
      (stateAfter (chain media names) b).graph.nodes = b.graph.nodes := by
  induction names using chain.induct generalizing b with
  | case1 => exact ⟨rfl, rfl⟩
  | case2 name => exact ⟨rfl, rfl⟩
  | case3 source target rest ih =>
    have hfirst := connectNamed_frame source target media b
    rw [stateAfter] at hfirst
    rw [chain, stateAfter_bind]
    cases hres : connectNamed source target media b with
    | error e b' => rwa [hres] at hfirst
    | ok u b' =>
      rw [hres] at hfirst
      have hrest := ih b'
      exact ⟨hrest.1.trans hfirst.1, hrest.2.trans hfirst.2⟩

theorem Named.after (h : b.Named) (c : Command) : (b.after c).Named := by
  rw [after_eq_stateAfter]
  cases c with
  | filter name inputs outputs =>
    rw [exec, stateAfter_map]
    rcases filter_cases name inputs outputs b with heq | ⟨hnew, heq⟩
    · rwa [stateAfter_of_error heq]
    · rw [stateAfter_of_ok heq]
      exact h.filter hnew inputs outputs
  | handle name =>
    simp only [stateAfter, exec]
    cases b.handle name <;> exact h
  | connect edge =>
    rw [exec, stateAfter_map]
    rcases connect_cases edge b with ⟨err, heq⟩ | ⟨-, heq⟩
    · rwa [stateAfter_of_error heq]
    · rw [stateAfter_of_ok heq]
      exact h.congr rfl rfl
  | chain names media =>
    rw [exec, stateAfter_map]
    obtain ⟨hnames, hnodes⟩ := chain_frame media names b
    exact h.congr hnames hnodes

theorem Named.run (h : b.Named) (cs : List Command) : (b.run cs).Named := by
  induction cs generalizing b with
  | nil => exact h
  | cons c cs ih => exact ih (h.after c)

theorem empty_named : empty.Named := by simp [Named, empty, Graph.empty, Graph.node?]

/-! ## Chains that succeed -/

/-- A link leads from the filter of one name to that of the other. -/
def Joined (b : Builder) (source target : String) : Prop :=
  ∃ s t, b.handle source = .ok s ∧ b.handle target = .ok t ∧ (s, t) ∈ b.graph.edges

theorem chain_joins (h : chain media names b = .ok () b') :
    b'.names = b.names ∧ names.IsChain b'.Joined ∧
      ∃ added, b'.graph.liveLinks = b.graph.liveLinks ++ added ∧
        added.length = names.length - 1 := by
  induction names using chain.induct generalizing b with
  | case1 =>
    cases h
    exact ⟨rfl, .nil, [], by simp, rfl⟩
  | case2 name =>
    cases h
    exact ⟨rfl, .singleton name, [], by simp, rfl⟩
  | case3 source target rest ih =>
    obtain ⟨b₁, hfirst, hrest⟩ := chain_cons_eq_ok.mp h
    obtain ⟨hnames, hchain, added, hadded, hlength⟩ := ih hrest
    rcases connectNamed_cases source target media b with ⟨e, heq⟩ | ⟨s, t, hs, ht, -, heq⟩
    · cases heq.symm.trans hfirst
    · cases heq.symm.trans hfirst
      have hlinks : b'.graph.liveLinks =
          b.graph.liveLinks ++ b.graph.nextLink (firstPads s t media) :: added := by
        rw [hadded, Graph.liveLinks_pushLink, List.append_assoc]
        rfl
      have hkept : ∀ name, b'.handle name = b.handle name := by
        intro name
        rw [handle, hnames, handle]
      have hjoined : b'.Joined source target := by
        refine ⟨s, t, (hkept source).trans hs, (hkept target).trans ht, ?_⟩
        rw [Graph.edges, hlinks]
        exact List.mem_map.mpr ⟨b.graph.nextLink (firstPads s t media), by simp, rfl⟩
      refine ⟨hnames, List.isChain_cons_cons.mpr ⟨hjoined, hchain⟩, _, hlinks, ?_⟩
      simp only [List.length_cons] at hlength ⊢
      omega

/-- Links lead from the filter of one name to that of the other. -/
def Leads (b : Builder) (source target : String) : Prop :=
  ∃ s t, b.handle source = .ok s ∧ b.handle target = .ok t ∧
    Relation.TransGen (fun u v => (u, v) ∈ b.graph.edges) s t

theorem Leads.trans {mid : String} (h : b.Leads source mid) (h' : b.Leads mid target) :
    b.Leads source target := by
  obtain ⟨s, m, hs, hm, hsm⟩ := h
  obtain ⟨m', t, hm', ht, hmt⟩ := h'
  obtain rfl : m = m' := Except.ok.inj (hm.symm.trans hm')
  exact ⟨s, t, hs, ht, hsm.trans hmt⟩

/-- A name that came twice would close a cycle. -/
theorem nodup_of_isChain_joined (hb : b.graph.Structured) (h : names.IsChain b.Joined) :
    names.Nodup := by
  have hleads : names.IsChain b.Leads :=
    h.imp fun _ _ ⟨s, t, hs, ht, hst⟩ => ⟨s, t, hs, ht, .single hst⟩
  let _ : Trans b.Leads b.Leads b.Leads := ⟨Leads.trans⟩
  apply hleads.pairwise.imp
  intro source target ⟨s, t, hs, ht, hpath⟩ heq
  subst heq
  obtain rfl : s = t := Except.ok.inj (hs.symm.trans ht)
  exact hb.acyclic s hpath

/-- A builder is a front end to its graph. What is built comes of an empty graph by the filters and
the links that were accepted, in this order. Each node has a name of its own, by which it is found.
A step that fails passes on nothing, but a chain keeps the links before the first pair that fails.
One that succeeds runs through different filters and adds a link for each pair. -/
theorem run_faithful (cs : List Command) :
    let b := run .empty cs
    Graph.Accepts .empty (allGraphCalls .empty cs) b.build ∧
    (∀ id id' n n', b.build.node? id = some n → b.build.node? id' = some n' → n.name = n'.name →
      id = id') ∧
    (∀ name id, b.handle name = .ok id ↔ ∃ n, b.build.node? id = some n ∧ n.name = name) ∧
    (∀ c e b', exec c b = .error e b' →
      (∃ names media, c = .chain names media ∧ b.ChainStops media names e b') ∨
        b' = b ∧ b.graphCalls c = []) ∧
    ∀ names media b', chain media names b = .ok () b' →
      names.Nodup ∧ ∃ added, b'.build.liveLinks = b.build.liveLinks ++ added ∧
        added.length = names.length - 1 := by
  intro b
  have hnamed : b.Named := empty_named.run cs
  refine ⟨run_accepts .empty cs, fun id id' n n' hn hn' hname => ?_, fun name id => ?_,
    fun c e b' h => exec_error h, fun names media b' h => ?_⟩
  · have hid := (hnamed n'.name id).mpr ⟨n, hn, hname⟩
    have hid' := (hnamed n'.name id').mpr ⟨n', hn', rfl⟩
    exact Option.some.inj (hid.symm.trans hid')
  · exact handle_eq_ok.trans (hnamed name id)
  · obtain ⟨-, hchain, hadded⟩ := chain_joins h
    have hb' : b'.graph.Structured := by
      have hrun : (run .empty (cs ++ [.chain names media])).build = b'.graph := by
        have hstate : stateAfter (exec (.chain names media)) b = b' := by
          rw [exec, stateAfter_map, stateAfter_of_ok h]
        rw [run, List.foldl_append, List.foldl_cons, List.foldl_nil, after_eq_stateAfter]
        exact congrArg Builder.graph hstate
      obtain ⟨commands, hbuilt⟩ := exists_graph_run (cs ++ [.chain names media])
      rw [← hrun, hbuilt]
      exact Graph.empty_structured.run commands
    exact ⟨nodup_of_isChain_joined hb' hchain, hadded⟩

end Builder

end FormatNegotiation
