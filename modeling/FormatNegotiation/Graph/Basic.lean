import FormatNegotiation.Graph.Reachability
import FormatNegotiation.Graph.SetKind

/-! The filter graph: nodes with typed pads, links between pads, and the sets that the ends of links
reference. -/
namespace FormatNegotiation

/-- A node is known by its position in the graph. -/
abbrev NodeId := Nat

/-- A pad is known by its position among the inputs, or the outputs, of its node. -/
abbrev PadId := Nat

/-- A link is known by its position in the graph. -/
abbrev LinkId := Nat

/-- A filter. Its pads are given by the media that they carry. -/
structure FilterNode where
  id : NodeId
  name : String
  inputs : List Media
  outputs : List Media
deriving DecidableEq, Repr

/-- The media that a filter without a preference of its own works on: that of its first input, or of
its first output if it has no input, or else video. -/
def FilterNode.defaultMedia (n : FilterNode) : Media :=
  (n.inputs.head?.or n.outputs.head?).getD .video

structure Port where
  node : NodeId
  pad : PadId
deriving DecidableEq, Repr

/-- A connection from an output pad to an input pad. -/
structure Edge where
  source : Port
  target : Port
  media : Media
deriving DecidableEq, Repr

/-- A connection that is part of the graph. Each of its ends has slots of its own. -/
structure Link extends Edge where
  id : LinkId
  /-- Filled by the filter that produces. -/
  sourceEnd : LinkEnd
  /-- Filled by the filter that consumes. -/
  targetEnd : LinkEnd
deriving DecidableEq, Repr

def Link.touches (l : Link) (node : NodeId) : Bool := l.source.node = node || l.target.node = node

/-- Nodes and links keep their positions; removed ones leave a gap. -/
structure Graph where
  nodes : Array (Option FilterNode)
  links : Array (Option Link)
  registries : Registries
deriving DecidableEq, Repr

namespace Graph

/-- A change that may fail; after a failure the graph is the one that comes with the error. -/
abbrev Action (α : Type) := EStateM FormatError Graph α

def empty : Graph := ⟨#[], #[], .empty⟩

/-- The node with this number, if there is one and it has not been removed. -/
def node? (g : Graph) (id : NodeId) : Option FilterNode := (g.nodes[id]?).join

/-- The link with this number, if there is one and it has not been removed. -/
def link? (g : Graph) (id : LinkId) : Option Link := (g.links[id]?).join

/-- The links that have not been removed, oldest first. -/
def liveLinks (g : Graph) : List Link := g.links.toList.filterMap id

/-- The link that ends at an input pad. -/
def inputLink? (g : Graph) (port : Port) : Option Link := g.liveLinks.find? (·.target = port)

/-- The link that starts at an output pad. -/
def outputLink? (g : Graph) (port : Port) : Option Link := g.liveLinks.find? (·.source = port)

/-- The nodes that live links join, from source to target. -/
def edges (g : Graph) : List (NodeId × NodeId) :=
  g.liveLinks.map fun l => (l.source.node, l.target.node)

/-- Whether live links lead from one node to another. -/
def reaches (g : Graph) (start target : NodeId) : Bool :=
  FormatNegotiation.reaches g.edges start target

def registry (g : Graph) (kind : SetKind) : Registry kind.Contents := g.registries.of kind

def setRegistry (g : Graph) (kind : SetKind) (r : Registry kind.Contents) : Graph :=
  { g with registries := g.registries.set kind r }

def onRegistry {α : Type} (kind : SetKind) (act : Registry.Action kind.Contents α) : Action α :=
  fun g =>
    match act (g.registry kind) with
    | .ok x r => .ok x (g.setRegistry kind r)
    | .error e r => .error e (g.setRegistry kind r)

end Graph

end FormatNegotiation
