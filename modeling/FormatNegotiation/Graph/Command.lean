import FormatNegotiation.Graph.Insertion
import FormatNegotiation.Graph.Install
import FormatNegotiation.Graph.Negotiation

/-! The commands that change a graph, as data, so that a run is a list of them. Commands to one of
its registries are among them. -/
namespace FormatNegotiation.Graph

/-- A change to a graph. Nodes, pads, links, slots and sets may be any, issued or not. -/
inductive Command where
  | addFilter (name : String) (inputs outputs : List Media)
  | addLink (edge : Edge)
  | removeNode (node : NodeId)
  | install (kind : SetKind) (contents : kind.Contents) (node : NodeId)
  | installLayouts (entries : List ChannelLayout) (node : NodeId)
  | installAnyRate (node : NodeId)
  | installAnyLayout (node : NodeId)
  | installDefaults (catalog : Catalog) (node : NodeId)
  | negotiateLink (catalog : Catalog) (link : LinkId)
  | insertFilter (link : LinkId) (node : NodeId) (inPad outPad : PadId)
  /-- A change to the registry of a kind, past the graph. -/
  | onRegistry (kind : SetKind) (command : Registry.Command kind.Contents)

inductive Reply where
  | done
  | node (id : NodeId)
  | link (id : LinkId)
  | negotiation (outcome : Negotiation)
  | registry (kind : SetKind) (reply : Registry.Reply kind.Contents)

/-- Counts a structural error among the others. -/
def liftStructural {α : Type} (act : EStateM GraphError Graph α) : Action α := fun g =>
  match act g with
  | .ok x g' => .ok x g'
  | .error e g' => .error (.graph e) g'

def exec : Command → Action Reply
  | .addFilter name inputs outputs => fun g =>
    .ok (.node (g.addFilter name inputs outputs).1) (g.addFilter name inputs outputs).2
  | .addLink edge => .link <$> liftStructural (addLink edge)
  | .removeNode node => (fun _ => .done) <$> liftStructural (removeNode node)
  | .install kind contents node => (fun _ => .done) <$> install kind contents node
  | .installLayouts entries node => (fun _ => .done) <$> installLayouts entries node
  | .installAnyRate node => (fun _ => .done) <$> installAnyRate node
  | .installAnyLayout node => (fun _ => .done) <$> installAnyLayout node
  | .installDefaults catalog node => (fun _ => .done) <$> installDefaults catalog node
  | .negotiateLink catalog link => .negotiation <$> negotiateLink catalog link
  | .insertFilter link node inPad outPad => .link <$> insertFilter link node inPad outPad
  | .onRegistry kind command => .registry kind <$> Graph.onRegistry kind (Registry.exec command)

/-- What a command checks on its way. -/
def findings (g : Graph) : Command → List Finding
  | .addFilter .. | .addLink _ => []
  | .removeNode node => g.removeNodeFindings node
  | .install kind contents node => g.installFindings kind contents node
  | .installLayouts entries node => g.installLayoutsFindings entries node
  | .installAnyRate node => g.installFindings .sampleRates FormatList.allSampleRates node
  | .installAnyLayout node => g.installFindings .channelLayouts LayoutSet.allCounts node
  | .installDefaults catalog node => g.installDefaultsFindings catalog node
  | .negotiateLink catalog link => g.negotiateLinkFindings catalog link
  | .insertFilter link node inPad outPad => g.insertFilterFindings link node inPad outPad
  | .onRegistry kind command => (g.registry kind).findings command

/-- The graph after a command, whether it succeeded or failed. -/
def after (g : Graph) (c : Command) : Graph :=
  match exec c g with
  | .ok _ g' => g'
  | .error _ g' => g'

/-- Carries a command out within a run, and notes what it checks. -/
def step (c : Command) (s : Session Graph) : Except FormatError Reply × Session Graph :=
  let log := s.log.record (s.state.findings c)
  match exec c s.state with
  | .ok reply g => (.ok reply, ⟨g, log⟩)
  | .error e g => (.error e, ⟨g, log⟩)

def run (g : Graph) (cs : List Command) : Graph := cs.foldl after g

end FormatNegotiation.Graph
