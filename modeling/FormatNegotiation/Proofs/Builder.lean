import FormatNegotiation.Builder
import FormatNegotiation.Proofs.Graph.References

/-! What a builder passes on to its graph: the filters and the links that were accepted, and nothing
else. A chain that fails passes on what the chain of the names before would have. -/
namespace FormatNegotiation

namespace Graph

/-- Each of these commands succeeds, in this order, and they lead from one graph to another. -/
inductive Accepts : Graph → List Command → Graph → Prop where
  | nil (g : Graph) : Accepts g [] g
  | cons {g g' g'' : Graph} {c : Command} {cs : List Command} {reply : Reply}
    (h : exec c g = .ok reply g') (hrest : Accepts g' cs g'') : Accepts g (c :: cs) g''

namespace Accepts

variable {g g' g'' : Graph} {cs cs' : List Command}

theorem append (h : Accepts g cs g') (h' : Accepts g' cs' g'') : Accepts g (cs ++ cs') g'' := by
  induction h with
  | nil => exact h'
  | cons hc _ ih => exact .cons hc (ih h')

theorem run_eq (h : Accepts g cs g') : g.run cs = g' := by
  induction h with
  | nil => rfl
  | @cons g g' g'' c cs reply hc _ ih =>
    have hafter : g.after c = g' := by rw [after, hc]
    rw [← ih, ← hafter]
    rfl

theorem addFilter (g : Graph) (name : String) (inputs outputs : List Media) :
    Accepts g [.addFilter name inputs outputs] (g.addFilter name inputs outputs).2 :=
  .cons rfl (.nil _)

theorem addLink {e : Edge} (h : g.checkEdge e = .ok ()) :
    Accepts g [.addLink e] (g.pushLink e) := by
  have hexec : exec (.addLink e) g = .ok (.link g.links.size) (g.pushLink e) := by
    simp only [exec, Functor.map, EStateM.map, liftStructural, Graph.addLink, h]
  exact .cons hexec (.nil _)

end Accepts

end Graph

namespace Builder

variable {b b' : Builder} {e : BuildError} {media : Media} {source target : String}

/-! ## Single filters and connections -/

theorem filter_cases (name : String) (inputs outputs : List Media) (b : Builder) :
    filter name inputs outputs b = .error (.duplicateName name) b ∨
      b.names.lookup name = none ∧ filter name inputs outputs b =
        .ok b.graph.nodes.size
          ⟨(b.graph.addFilter name inputs outputs).2, (name, b.graph.nodes.size) :: b.names⟩ := by
  unfold filter
  cases b.names.lookup name with
  | some node => exact .inl rfl
  | none => exact .inr ⟨rfl, rfl⟩

theorem connect_cases (edge : Edge) (b : Builder) :
    (∃ err, connect edge b = .error (.graph err) b) ∨
      b.graph.checkEdge edge = .ok () ∧
        connect edge b = .ok () { b with graph := b.graph.pushLink edge } := by
  unfold connect Graph.addLink
  cases hcheck : b.graph.checkEdge edge with
  | error err => exact .inl ⟨err, rfl⟩
  | ok u => exact .inr ⟨rfl, rfl⟩

/-- The connection that a chain makes between two filters. -/
def firstPads (s t : NodeId) (media : Media) : Edge := ⟨⟨s, 0⟩, ⟨t, 0⟩, media⟩

theorem connectNamed_cases (source target : String) (media : Media) (b : Builder) :
    (∃ e, connectNamed source target media b = .error e b) ∨
      ∃ s t, b.handle source = .ok s ∧ b.handle target = .ok t ∧
        b.graph.checkEdge (firstPads s t media) = .ok () ∧
        connectNamed source target media b =
          .ok () { b with graph := b.graph.pushLink (firstPads s t media) } := by
  unfold connectNamed
  cases hs : b.handle source with
  | error e => exact .inl ⟨e, rfl⟩
  | ok s =>
    cases ht : b.handle target with
    | error e => exact .inl ⟨e, rfl⟩
    | ok t =>
      rcases connect_cases (firstPads s t media) b with ⟨err, heq⟩ | ⟨hcheck, heq⟩
      · exact .inl ⟨.graph err, heq⟩
      · exact .inr ⟨s, t, rfl, rfl, hcheck, heq⟩

theorem chain_cons_eq_ok {rest : List String} :
    chain media (source :: target :: rest) b = .ok () b' ↔
      ∃ b₁, connectNamed source target media b = .ok () b₁ ∧
        chain media (target :: rest) b₁ = .ok () b' := by
  rw [chain]
  simp only [bind, EStateM.bind]
  cases connectNamed source target media b with
  | error e b₁ => simp
  | ok u b₁ => simp

/-! ## What is passed on -/

/-- The links that a chain makes, up to the first pair that fails. -/
def chainCalls (media : Media) : List String → Builder → List Graph.Command
  | source :: target :: rest, b =>
    match b.handle source, b.handle target, connectNamed source target media b with
    | .ok s, .ok t, .ok _ b' =>
      .addLink (firstPads s t media) :: chainCalls media (target :: rest) b'
    | _, _, _ => []
  | _, _ => []

/-- What a step passes on to the graph: a filter or a link that is accepted. -/
def graphCalls (b : Builder) : Command → List Graph.Command
  | .filter name inputs outputs =>
    match filter name inputs outputs b with
    | .ok _ _ => [.addFilter name inputs outputs]
    | .error _ _ => []
  | .handle _ => []
  | .connect edge =>
    match connect edge b with
    | .ok _ _ => [.addLink edge]
    | .error _ _ => []
  | .chain names media => chainCalls media names b

/-- What a run passes on to the graph, in this order. -/
def allGraphCalls (b : Builder) : List Command → List Graph.Command
  | [] => []
  | c :: cs => b.graphCalls c ++ (b.after c).allGraphCalls cs

/-- A pair of names that is accepted adds one link. -/
theorem chainCalls_of_ok {rest : List String} {s t : NodeId} (hs : b.handle source = .ok s)
    (ht : b.handle target = .ok t) (h : connectNamed source target media b = .ok () b') :
    chainCalls media (source :: target :: rest) b =
      .addLink (firstPads s t media) :: chainCalls media (target :: rest) b' := by
  rw [chainCalls, hs, ht, h]

theorem chainCalls_of_error {rest : List String}
    (h : connectNamed source target media b = .error e b') :
    chainCalls media (source :: target :: rest) b = [] := by
  rw [chainCalls, h]
  split
  · rename_i hres
    cases hres
  · rfl

theorem chain_accepts (media : Media) (names : List String) (b : Builder) :
    Graph.Accepts b.graph (chainCalls media names b) (stateAfter (chain media names) b).graph := by
  induction names using chain.induct generalizing b with
  | case1 => exact .nil _
  | case2 name => exact .nil _
  | case3 source target rest ih =>
    rw [chain, stateAfter_bind]
    rcases connectNamed_cases source target media b with ⟨e, heq⟩ | ⟨s, t, hs, ht, hcheck, heq⟩
    · rw [chainCalls_of_error heq, heq]
      exact .nil _
    · rw [chainCalls_of_ok hs ht heq, heq]
      have hrest := ih { b with graph := b.graph.pushLink (firstPads s t media) }
      exact (Graph.Accepts.addLink hcheck).append hrest

theorem after_eq_stateAfter (b : Builder) (c : Command) : b.after c = stateAfter (exec c) b := by
  unfold after stateAfter
  cases exec c b <;> rfl

theorem after_accepts (b : Builder) (c : Command) :
    Graph.Accepts b.graph (b.graphCalls c) (b.after c).graph := by
  rw [after_eq_stateAfter]
  cases c with
  | filter name inputs outputs =>
    rw [exec, stateAfter_map]
    rcases filter_cases name inputs outputs b with heq | ⟨-, heq⟩
    · simp only [graphCalls, heq, stateAfter_of_error heq]
      exact .nil _
    · simp only [graphCalls, heq, stateAfter_of_ok heq]
      exact .addFilter _ _ _ _
  | handle name =>
    simp only [graphCalls, stateAfter, exec]
    cases b.handle name <;> exact .nil _
  | connect edge =>
    rw [exec, stateAfter_map]
    rcases connect_cases edge b with ⟨err, heq⟩ | ⟨hcheck, heq⟩
    · simp only [graphCalls, heq, stateAfter_of_error heq]
      exact .nil _
    · simp only [graphCalls, heq, stateAfter_of_ok heq]
      exact .addLink hcheck
  | chain names media =>
    rw [exec, stateAfter_map]
    exact chain_accepts media names b

theorem run_accepts (b : Builder) (cs : List Command) :
    Graph.Accepts b.graph (b.allGraphCalls cs) (b.run cs).graph := by
  induction cs generalizing b with
  | nil => exact .nil _
  | cons c cs ih => exact (b.after_accepts c).append (ih (b.after c))

/-- Each graph that is built is one that a run of commands to an empty graph leads to. -/
theorem exists_graph_run (cs : List Command) :
    ∃ commands, (run .empty cs).build = Graph.run .empty commands :=
  ⟨_, (run_accepts .empty cs).run_eq.symm⟩

/-! ## Steps that fail -/

/-- A chain that fails does what the chain of the names before the first pair that fails does, and
fails for the same reason as that pair. -/
def ChainStops (b : Builder) (media : Media) (names : List String) (e : BuildError)
    (b' : Builder) : Prop :=
  ∃ before source target rest, names = before ++ source :: target :: rest ∧
    chain media (before ++ [source]) b = .ok () b' ∧
    chainCalls media names b = chainCalls media (before ++ [source]) b ∧
    connectNamed source target media b' = .error e b'

theorem chainStops_of_error {names : List String} (h : chain media names b = .error e b') :
    b.ChainStops media names e b' := by
  induction names using chain.induct generalizing b with
  | case1 => cases h
  | case2 name => cases h
  | case3 source target rest ih =>
    rw [chain] at h
    simp only [bind, EStateM.bind] at h
    rcases connectNamed_cases source target media b with ⟨e', heq⟩ | ⟨s, t, hs, ht, -, heq⟩
    · rw [heq] at h
      cases h
      exact ⟨[], source, target, rest, rfl, rfl, chainCalls_of_error heq, heq⟩
    · rw [heq] at h
      obtain ⟨before, source', target', rest', hnames, hchain, hcalls, hpair⟩ := ih h
      -- The names before the pair that fails begin with the second one.
      obtain ⟨more, hmore⟩ : ∃ more, before ++ [source'] = target :: more := by
        cases before with
        | nil => exact ⟨[], by rw [(List.cons.inj hnames).1]; rfl⟩
        | cons first before => exact ⟨before ++ [source'], by rw [(List.cons.inj hnames).1]; rfl⟩
      rw [hmore] at hchain hcalls
      refine ⟨source :: before, source', target', rest', by rw [hnames]; rfl, ?_, ?_, hpair⟩
      · rw [List.cons_append, hmore]
        exact chain_cons_eq_ok.mpr ⟨_, heq, hchain⟩
      · rw [List.cons_append, hmore, chainCalls_of_ok hs ht heq, chainCalls_of_ok hs ht heq, hcalls]

/-- Any other step that fails changes nothing and passes on nothing. -/
theorem exec_error {c : Command} (h : exec c b = .error e b') :
    (∃ names media, c = .chain names media ∧ b.ChainStops media names e b') ∨
      b' = b ∧ b.graphCalls c = [] := by
  cases c with
  | filter name inputs outputs =>
    have hres := map_eq_error_iff.mp h
    rcases filter_cases name inputs outputs b with heq | ⟨-, heq⟩
    all_goals cases hres.symm.trans heq
    exact .inr ⟨rfl, by simp only [graphCalls, heq]⟩
  | handle name =>
    simp only [exec] at h
    split at h
    · cases h
    · cases h
      exact .inr ⟨rfl, rfl⟩
  | connect edge =>
    have hres := map_eq_error_iff.mp h
    rcases connect_cases edge b with ⟨err, heq⟩ | ⟨-, heq⟩
    all_goals cases hres.symm.trans heq
    exact .inr ⟨rfl, by simp only [graphCalls, heq]⟩
  | chain names media =>
    exact .inl ⟨names, media, rfl, chainStops_of_error (map_eq_error_iff.mp h)⟩

end Builder

end FormatNegotiation
