import FormatNegotiation.Proofs.Graph.Atomicity
import FormatNegotiation.Proofs.Graph.Structure

/-! When connections and insertions are rejected. Each of them goes through what it needs in a fixed
order, and is rejected for the first of these needs that is not met. The last one is that no cycle
comes about. -/
namespace FormatNegotiation

/-! ## Checks in order -/

/-- A condition, and the error that reports that it does not hold. -/
structure Need where
  holds : Prop
  otherwise : GraphError

namespace Need

variable {α : Type} {need : Need} {needs : List Need} {err err' : GraphError} {p : Prop}

def AllMet (needs : List Need) : Prop := ∀ need ∈ needs, need.holds

/-- The error reports the first condition that does not hold; all before it do. -/
inductive FirstUnmet : List Need → GraphError → Prop where
  | here {need : Need} {rest : List Need} (h : ¬ need.holds) :
    FirstUnmet (need :: rest) need.otherwise
  | later {need : Need} {rest : List Need} {err : GraphError} (h : need.holds)
    (hrest : FirstUnmet rest err) : FirstUnmet (need :: rest) err

/-- The result of a check that goes through its conditions in order. -/
inductive Decides : List Need → Except GraphError α → Prop where
  | done (x : α) : Decides [] (.ok x)
  | unmet {need : Need} {rest : List Need} (h : ¬ need.holds) :
    Decides (need :: rest) (.error need.otherwise)
  | met {need : Need} {rest : List Need} {result : Except GraphError α} (h : need.holds)
    (hrest : Decides rest result) : Decides (need :: rest) result

theorem allMet_cons : AllMet (need :: needs) ↔ need.holds ∧ AllMet needs := List.forall_mem_cons

theorem FirstUnmet.not_allMet (h : FirstUnmet needs err) : ¬ AllMet needs := by
  induction h with
  | here h => exact fun hall => h (allMet_cons.mp hall).1
  | later _ _ ih => exact fun hall => ih (allMet_cons.mp hall).2

theorem FirstUnmet.unique (h : FirstUnmet needs err) (h' : FirstUnmet needs err') : err = err' := by
  induction h with
  | here h =>
    cases h' with
    | here => rfl
    | later hmet => exact absurd hmet h
  | later h _ ih =>
    cases h' with
    | here hunmet => exact absurd h hunmet
    | later _ hrest => exact ih hrest

/-- An error that only the last condition reports. -/
theorem firstUnmet_concat_iff (h : ∀ need ∈ needs, need.otherwise ≠ err) :
    FirstUnmet (needs ++ [⟨p, err⟩]) err ↔ AllMet needs ∧ ¬ p := by
  induction needs with
  | nil =>
    constructor
    · intro hfirst
      cases hfirst with
      | here hp => exact ⟨fun _ hmem => absurd hmem List.not_mem_nil, hp⟩
      | later _ hrest => cases hrest
    · exact fun ⟨_, hp⟩ => .here hp
  | cons need needs ih =>
    obtain ⟨hother, hrest⟩ := List.forall_mem_cons.mp h
    rw [allMet_cons, and_assoc, ← ih hrest]
    constructor
    · intro hfirst
      cases hfirst with
      | here => exact absurd rfl hother
      | later hmet hlater => exact ⟨hmet, hlater⟩
    · exact fun ⟨hmet, hlater⟩ => .later hmet hlater

namespace Decides

variable {result : Except GraphError α}

theorem ite {c : Prop} [Decidable c] (hc : c ↔ ¬ p) (hrest : p → Decides needs result) :
    Decides (⟨p, err⟩ :: needs) (if c then .error err else result) := by
  split_ifs with h
  · exact .unmet (hc.mp h)
  · have hp : p := not_not.mp (mt hc.mpr h)
    exact .met hp (hrest hp)

theorem cases (h : Decides needs result) :
    (∃ x, result = .ok x) ∧ AllMet needs ∨ ∃ err, result = .error err ∧ FirstUnmet needs err := by
  induction h with
  | done x => exact .inl ⟨⟨x, rfl⟩, fun _ hmem => absurd hmem List.not_mem_nil⟩
  | unmet h => exact .inr ⟨_, rfl, .here h⟩
  | met h _ ih =>
    rcases ih with ⟨hok, hall⟩ | ⟨err, herr, hfirst⟩
    · exact .inl ⟨hok, allMet_cons.mpr ⟨h, hall⟩⟩
    · exact .inr ⟨err, herr, .later h hfirst⟩

end Decides

end Need

namespace Graph

open Need

variable {g g' : Graph} {e : Edge} {link : LinkId} {l : Link} {node : NodeId} {inPad outPad : PadId}

/-! ## What connections and insertions need -/

/-- The media of an output pad, if there is such a pad. -/
def outputMedia? (g : Graph) (port : Port) : Option Media :=
  (g.node? port.node).bind (·.outputs[port.pad]?)

/-- The media of an input pad, if there is such a pad. -/
def inputMedia? (g : Graph) (port : Port) : Option Media :=
  (g.node? port.node).bind (·.inputs[port.pad]?)

def OutputUnused (g : Graph) (port : Port) : Prop :=
  ∀ id l, g.link? id = some l → l.source ≠ port

def InputUnused (g : Graph) (port : Port) : Prop :=
  ∀ id l, g.link? id = some l → l.target ≠ port

/-- The edges once this connection is made. -/
def edgesWith (g : Graph) (e : Edge) : List (NodeId × NodeId) :=
  (e.source.node, e.target.node) :: g.edges

/-- The edges once a link has given way to one that ends at a node and one that starts there. Other
links between the same two nodes stay. -/
def edgesSplitting (g : Graph) (l : Link) (node : NodeId) : List (NodeId × NodeId) :=
  (l.source.node, node) :: (node, l.target.node) :: g.edges.erase (l.source.node, l.target.node)

/-- What a connection needs of the nodes and their pads. -/
def padNeeds (g : Graph) (e : Edge) : List Need :=
  [⟨(g.node? e.source.node).isSome ∧ (g.node? e.target.node).isSome, .invalidNode⟩,
    ⟨(g.outputMedia? e.source).isSome ∧ (g.inputMedia? e.target).isSome, .invalidPad⟩,
    ⟨g.outputMedia? e.source = some e.media ∧ g.inputMedia? e.target = some e.media,
      .mediaMismatch⟩,
    ⟨g.OutputUnused e.source ∧ g.InputUnused e.target, .padAlreadyConnected⟩]

/-- What a connection needs, in the order in which it is checked. -/
def edgeNeeds (g : Graph) (e : Edge) : List Need :=
  g.padNeeds e ++ [⟨Acyclic (g.edgesWith e), .cycleDetected⟩]

/-- What an insertion needs of the link, the node and its pads. The pads are to carry the media of
the link. -/
def splitPadNeeds (g : Graph) (link : LinkId) (node : NodeId) (inPad outPad : PadId) : List Need :=
  [⟨(g.link? link).isSome, .invalidLink⟩,
    ⟨(g.node? node).isSome, .invalidNode⟩,
    ⟨(g.inputMedia? ⟨node, inPad⟩).isSome ∧ (g.outputMedia? ⟨node, outPad⟩).isSome, .invalidPad⟩,
    ⟨g.inputMedia? ⟨node, inPad⟩ = (g.link? link).map (·.media) ∧
      g.outputMedia? ⟨node, outPad⟩ = (g.link? link).map (·.media), .mediaMismatch⟩,
    ⟨g.InputUnused ⟨node, inPad⟩ ∧ g.OutputUnused ⟨node, outPad⟩, .padAlreadyConnected⟩]

/-- What an insertion needs, in the order in which it is checked. -/
def insertionNeeds (g : Graph) (link : LinkId) (node : NodeId) (inPad outPad : PadId) : List Need :=
  g.splitPadNeeds link node inPad outPad ++
    [⟨∀ l, g.link? link = some l → Acyclic (g.edgesSplitting l node), .cycleDetected⟩]

theorem outputLink?_isSome_iff {port : Port} :
    (g.outputLink? port).isSome ↔ ¬ g.OutputUnused port := by
  rw [← Option.ne_none_iff_isSome, ne_eq, not_iff_not]
  exact find?_liveLinks_eq_none_iff

theorem inputLink?_isSome_iff {port : Port} :
    (g.inputLink? port).isSome ↔ ¬ g.InputUnused port := by
  rw [← Option.ne_none_iff_isSome, ne_eq, not_iff_not]
  exact find?_liveLinks_eq_none_iff

theorem outputMedia?_of_node? {port : Port} {n : FilterNode} (h : g.node? port.node = some n) :
    g.outputMedia? port = n.outputs[port.pad]? := by
  rw [outputMedia?, h, Option.bind_some]

theorem inputMedia?_of_node? {port : Port} {n : FilterNode} (h : g.node? port.node = some n) :
    g.inputMedia? port = n.inputs[port.pad]? := by
  rw [inputMedia?, h, Option.bind_some]

/-! ## The checks -/

/-- Two pads are looked up, and their media compared with the media that is asked for. -/
theorem decides_media {α : Type} {media : Media} {x? y? : Option Media} {p : Prop}
    {needs : List Need} {result : Except GraphError α}
    (hp : p ↔ x? = some media ∧ y? = some media) (hrest : Decides needs result) :
    Decides (⟨x?.isSome ∧ y?.isSome, .invalidPad⟩ :: ⟨p, .mediaMismatch⟩ :: needs)
      (match x?, y? with
        | some x, some y => if x ≠ media ∨ y ≠ media then .error .mediaMismatch else result
        | _, _ => .error .invalidPad) := by
  rcases x? with _ | x
  · exact .unmet (by simp)
  rcases y? with _ | y
  · exact .unmet (by simp)
  refine .met ⟨rfl, rfl⟩ (.ite ?_ fun _ => hrest)
  rw [hp, Option.some_inj, Option.some_inj, not_and_or]

namespace Structured

theorem acyclic_edgesWith_iff (hg : g.Structured) :
    Acyclic (g.edgesWith e) ↔ ¬ g.reaches e.target.node e.source.node := by
  rw [edgesWith, hg.acyclic.cons_iff, reaches_iff]

/-- The search runs in the graph that still has the link, but this makes no difference. -/
theorem acyclic_edgesSplitting_iff (hg : g.Structured) (hl : g.link? link = some l)
    (node : NodeId) : Acyclic (g.edgesSplitting l node) ↔
      ¬ (node = l.source.node || node = l.target.node || g.reaches node l.source.node ||
        g.reaches l.target.node node) := by
  have hedge : (l.source.node, l.target.node) ∈ g.edges := mem_edges.mpr ⟨link, l, hl, rfl, rfl⟩
  rw [edgesSplitting, hg.acyclic.split_iff hedge]
  simp only [Bool.or_eq_true, decide_eq_true_eq, not_or, reaches_iff]
  constructor
  · intro ⟨hbefore, hbehind⟩
    refine ⟨⟨⟨?_, ?_⟩, hbefore⟩, hbehind⟩
    · rintro rfl
      exact hbefore (.refl _ _)
    · rintro rfl
      exact hbehind (.refl _ _)
  · exact fun ⟨⟨_, hbefore⟩, hbehind⟩ => ⟨hbefore, hbehind⟩

theorem checkEdge_decides (hg : g.Structured) (e : Edge) :
    Decides (g.edgeNeeds e) (g.checkEdge e) := by
  unfold checkEdge
  cases hsource : g.node? e.source.node with
  | none => exact .unmet (by simp [hsource])
  | some source =>
    cases htarget : g.node? e.target.node with
    | none => exact .unmet (by simp [htarget])
    | some target =>
      dsimp only
      rw [← outputMedia?_of_node? hsource, ← inputMedia?_of_node? htarget]
      have hused : ((g.outputLink? e.source).isSome || (g.inputLink? e.target).isSome) = true ↔
          ¬ (g.OutputUnused e.source ∧ g.InputUnused e.target) := by
        rw [Bool.or_eq_true, outputLink?_isSome_iff, inputLink?_isSome_iff, not_and_or]
      have hcycle : g.reaches e.target.node e.source.node ↔ ¬ Acyclic (g.edgesWith e) := by
        rw [hg.acyclic_edgesWith_iff, not_not]
      exact .met (by simp [hsource, htarget])
        (decides_media Iff.rfl (.ite hused fun _ => .ite hcycle fun _ => .done ()))

theorem checkInsertion_decides (hg : g.Structured) (link : LinkId) (node : NodeId)
    (inPad outPad : PadId) :
    Decides (g.insertionNeeds link node inPad outPad)
      (g.checkInsertion link node inPad outPad) := by
  unfold checkInsertion
  cases hlink : g.link? link with
  | none => exact .unmet (by simp [hlink])
  | some l =>
    cases hnode : g.node? node with
    | none => exact .met (by simp [hlink]) (.unmet (by simp [hnode]))
    | some n =>
      have hin : g.inputMedia? ⟨node, inPad⟩ = n.inputs[inPad]? := inputMedia?_of_node? hnode
      have hout : g.outputMedia? ⟨node, outPad⟩ = n.outputs[outPad]? := outputMedia?_of_node? hnode
      dsimp only
      rw [← hin, ← hout]
      have hmedia : (g.link? link).map (·.media) = some l.media := by rw [hlink, Option.map_some]
      have hused : ((g.inputLink? ⟨node, inPad⟩).isSome || (g.outputLink? ⟨node, outPad⟩).isSome) =
          true ↔ ¬ (g.InputUnused ⟨node, inPad⟩ ∧ g.OutputUnused ⟨node, outPad⟩) := by
        rw [Bool.or_eq_true, outputLink?_isSome_iff, inputLink?_isSome_iff, not_and_or]
      have hcycle : (node = l.source.node || node = l.target.node || g.reaches node l.source.node ||
          g.reaches l.target.node node) = true ↔
          ¬ ∀ l, g.link? link = some l → Acyclic (g.edgesSplitting l node) := by
        simp only [hlink, Option.some_inj, forall_eq']
        rw [hg.acyclic_edgesSplitting_iff hlink, not_not]
      exact .met (by simp [hlink]) (.met (by simp [hnode]) (decides_media (by rw [hmedia])
        (.ite hused fun _ => .ite hcycle fun _ => .done l)))

end Structured

/-! ## The edges afterwards -/

theorem addLink_edges {id : LinkId} (h : addLink e g = .ok id g') :
    g'.edges.Perm (g.edgesWith e) := by
  unfold addLink at h
  split at h
  · cases h
  · cases h
    rw [pushLink_eq, edges_appendLink]
    exact List.perm_append_singleton _ _

theorem insertFilter_edges {id : LinkId} (hl : g.link? link = some l)
    (h : insertFilter link node inPad outPad g = .ok id g') :
    g'.edges.Perm (g.edgesSplitting l node) := by
  have hedge : (l.source.node, l.target.node) ∈ g.edges := mem_edges.mpr ⟨link, l, hl, rfl, rfl⟩
  cases hcheck : g.checkInsertion link node inPad outPad with
  | error err =>
    simp only [insertFilter, hcheck] at h
    cases h
  | ok l' =>
    obtain rfl : l' = l := Option.some.inj ((splits_of_checkInsertion hcheck).live.symm.trans hl)
    rw [insertFilter_of_check hcheck] at h
    split at h
    · cases h
    · rename_i moved hmove
      cases h
      have hlinks : moved.links = g.links :=
        ((moveReferences_rereferences _ _ _).of_ok hmove).links_eq
      have hedges : moved.edges = g.edges := by rw [edges, liveLinks, hlinks, edges, liveLinks]
      set added := g.nextLink ⟨⟨node, outPad⟩, l'.target, l'.media⟩
      have hkept : (moved.appendLink added).link? link = some l' := by
        rw [link?_appendLink, hlinks, if_neg (Nat.ne_of_lt (lt_size_of_link? hl)), link?, hlinks]
        exact hl
      have hredirected := edges_redirect_perm hkept ⟨node, inPad⟩
      rw [edges_appendLink, hedges, List.erase_append_left _ hedge] at hredirected
      exact hredirected.trans ((List.perm_append_singleton _ _).cons _)

/-! ## Refusals -/

/-- The operation succeeds if the conditions are all met. Otherwise it reports the first one that is
not, and leaves the graph as it was. -/
structure Requires {ε α : Type} (act : EStateM ε Graph α) (report : GraphError → ε)
    (needs : List Need) (g : Graph) : Prop where
  eq_error_iff (err : ε) (g' : Graph) :
    act g = .error err g' ↔ g' = g ∧ ∃ e, err = report e ∧ FirstUnmet needs e
  exists_eq_ok_iff : (∃ x g', act g = .ok x g') ↔ AllMet needs

namespace Requires

variable {ε α β : Type} {act : EStateM ε Graph α} {report : GraphError → ε} {needs : List Need}
  {result : Except GraphError β} {err : GraphError}

theorem of_decides (h : Decides needs result)
    (herror : ∀ e, result = .error e → act g = .error (report e) g)
    (hok : ∀ x, result = .ok x → ∃ y g', act g = .ok y g') : Requires act report needs g := by
  rcases h.cases with ⟨⟨x, hx⟩, hall⟩ | ⟨e, he, hfirst⟩
  · obtain ⟨y, g₁, hres⟩ := hok x hx
    constructor
    · intro err g'
      rw [hres]
      exact iff_of_false nofun fun ⟨_, e, _, hfirst⟩ => hfirst.not_allMet hall
    · exact iff_of_true ⟨y, g₁, hres⟩ hall
  · have hres := herror e he
    constructor
    · intro err g'
      rw [hres]
      constructor
      · rintro ⟨⟩
        exact ⟨rfl, e, rfl, hfirst⟩
      · rintro ⟨rfl, e', rfl, hfirst'⟩
        rw [hfirst.unique hfirst']
    · rw [hres]
      exact iff_of_false nofun hfirst.not_allMet

theorem exists_eq_error_iff (h : Requires act report needs g)
    (hinj : ∀ e e', report e = report e' → e = e') :
    (∃ g', act g = .error (report err) g') ↔ FirstUnmet needs err := by
  constructor
  · intro ⟨g', hres⟩
    obtain ⟨-, e, hreport, hfirst⟩ := (h.eq_error_iff _ _).mp hres
    rwa [hinj err e hreport]
  · exact fun hfirst => ⟨g, (h.eq_error_iff _ _).mpr ⟨rfl, err, rfl, hfirst⟩⟩

end Requires

theorem Structured.addLink_requires (hg : g.Structured) (e : Edge) :
    Requires (addLink e) id (g.edgeNeeds e) g := by
  apply Requires.of_decides (hg.checkEdge_decides e)
  · intro err hcheck
    rw [addLink, hcheck, id]
  · intro u hcheck
    rw [addLink, hcheck]
    exact ⟨_, _, rfl⟩

theorem Structured.insertFilter_requires (hg : g.Structured) (hrefs : g.Grounded) (link : LinkId)
    (node : NodeId) (inPad outPad : PadId) :
    Requires (insertFilter link node inPad outPad) .graph
      (g.insertionNeeds link node inPad outPad) g := by
  apply Requires.of_decides (hg.checkInsertion_decides link node inPad outPad)
  · intro err hcheck
    rw [insertFilter, hcheck]
  · intro l hcheck
    obtain ⟨g', hres⟩ := hrefs.insertFilter_succeeds hcheck
    exact ⟨_, g', hres⟩

theorem Structured.addLink_cycleDetected_iff (hg : g.Structured) (e : Edge) :
    (∃ g', addLink e g = .error .cycleDetected g') ↔
      AllMet (g.padNeeds e) ∧ ¬ Acyclic (g.edgesWith e) := by
  have hother : ∀ need ∈ g.padNeeds e, need.otherwise ≠ .cycleDetected := by simp [padNeeds]
  exact ((hg.addLink_requires e).exists_eq_error_iff fun _ _ h => h).trans
    (firstUnmet_concat_iff hother)

theorem Structured.insertFilter_cycleDetected_iff (hg : g.Structured) (hrefs : g.Grounded)
    (link : LinkId) (node : NodeId) (inPad outPad : PadId) :
    (∃ g', insertFilter link node inPad outPad g = .error (.graph .cycleDetected) g') ↔
      AllMet (g.splitPadNeeds link node inPad outPad) ∧
        ∃ l, g.link? link = some l ∧ ¬ Acyclic (g.edgesSplitting l node) := by
  have hother : ∀ need ∈ g.splitPadNeeds link node inPad outPad,
      need.otherwise ≠ .cycleDetected := by simp [splitPadNeeds]
  have hrequires := hg.insertFilter_requires hrefs link node inPad outPad
  have hfirst := firstUnmet_concat_iff hother
    (p := ∀ l, g.link? link = some l → Acyclic (g.edgesSplitting l node))
  rw [hrequires.exists_eq_error_iff fun _ _ => FormatError.graph.inj, insertionNeeds, hfirst]
  simp only [not_forall, exists_prop]

/-- Whatever is built, and whatever happens to it then, connections and insertions are rejected for
the first of their needs that is not met, and only for that. They are rejected for a cycle exactly
if the nodes and pads will do and the edges that would come about have one; otherwise these are the
edges that come about. -/
theorem run_rejections_exact (building : List Builder.Command) (cs : List Command) :
    let g := (Builder.run .empty building).build.run cs
    (∀ e,
      Requires (addLink e) id (g.edgeNeeds e) g ∧
      ((∃ g', addLink e g = .error .cycleDetected g') ↔
        AllMet (g.padNeeds e) ∧ ¬ Acyclic (g.edgesWith e)) ∧
      ∀ id g', addLink e g = .ok id g' → g'.edges.Perm (g.edgesWith e)) ∧
    ∀ link node inPad outPad,
      Requires (insertFilter link node inPad outPad) .graph
        (g.insertionNeeds link node inPad outPad) g ∧
      ((∃ g', insertFilter link node inPad outPad g = .error (.graph .cycleDetected) g') ↔
        AllMet (g.splitPadNeeds link node inPad outPad) ∧
          ∃ l, g.link? link = some l ∧ ¬ Acyclic (g.edgesSplitting l node)) ∧
      ∀ l id g', g.link? link = some l → insertFilter link node inPad outPad g = .ok id g' →
        g'.edges.Perm (g.edgesSplitting l node) := by
  intro g
  obtain ⟨commands, hbuilt⟩ := Builder.exists_graph_run building
  have hg : g.Structured := by
    simp only [g, hbuilt]
    exact (empty_structured.run commands).run cs
  have hrefs : g.Grounded := by
    simp only [g, hbuilt]
    exact (empty_grounded.run commands).run cs
  constructor
  · intro e
    exact ⟨hg.addLink_requires e, hg.addLink_cycleDetected_iff e, fun _ _ h => addLink_edges h⟩
  · intro link node inPad outPad
    exact ⟨hg.insertFilter_requires hrefs link node inPad outPad,
      hg.insertFilter_cycleDetected_iff hrefs link node inPad outPad,
      fun _ _ _ hl h => insertFilter_edges hl h⟩

/-- A filter on a second path between two filters can still be inserted into the link that joins
them. -/
example :
    let cs : List Command :=
      [.addFilter "source" [] [.video, .video],
        .addFilter "scale" [.video, .video] [.video, .video],
        .addFilter "sink" [.video, .video] [], .addLink ⟨⟨0, 0⟩, ⟨2, 0⟩, .video⟩,
        .addLink ⟨⟨0, 1⟩, ⟨1, 1⟩, .video⟩, .addLink ⟨⟨1, 1⟩, ⟨2, 1⟩, .video⟩,
        .insertFilter 0 1 0 0]
    (run .empty cs).edges = [(0, 1), (0, 1), (1, 2), (1, 2)] := by
  decide +kernel

end Graph

end FormatNegotiation
