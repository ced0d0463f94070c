import FormatNegotiation.Graph.Basic

/-! Adding and removing filters and links. The graph stays acyclic, a pad carries one link at most,
and a link joins pads of its own media. -/
namespace FormatNegotiation

/-- A pad seen from its node. -/
inductive PadRef where
  | input (pad : PadId)
  | output (pad : PadId)
deriving DecidableEq, Repr

namespace Graph

/-- Adds a filter with one pad for each of the given media. -/
def addFilter (g : Graph) (name : String) (inputs outputs : List Media) : NodeId × Graph :=
  (g.nodes.size, { g with nodes := g.nodes.push (some ⟨g.nodes.size, name, inputs, outputs⟩) })

/-- What a new connection needs: both nodes, both pads, their media, both pads unused, and no path
back from its target to its source. The first of these that is missing is reported. -/
def checkEdge (g : Graph) (e : Edge) : Except GraphError Unit :=
  match g.node? e.source.node, g.node? e.target.node with
  | some source, some target =>
    match source.outputs[e.source.pad]?, target.inputs[e.target.pad]? with
    | some outMedia, some inMedia =>
      if outMedia ≠ e.media ∨ inMedia ≠ e.media then .error .mediaMismatch
      else if (g.outputLink? e.source).isSome || (g.inputLink? e.target).isSome then
        .error .padAlreadyConnected
      else if g.reaches e.target.node e.source.node then .error .cycleDetected
      else .ok ()
    | _, _ => .error .invalidPad
  | _, _ => .error .invalidNode

/-- Adds a link with new slots at both ends. -/
def pushLink (g : Graph) (e : Edge) : Graph :=
  let (sourceEnd, rs) := g.registries.newEnd
  let (targetEnd, rs) := rs.newEnd
  { g with
    links := g.links.push (some { e with id := g.links.size, sourceEnd, targetEnd })
    registries := rs }

def addLink (e : Edge) : EStateM GraphError Graph LinkId := fun g =>
  match g.checkEdge e with
  | .error err => .error err g
  | .ok () => .ok g.links.size (g.pushLink e)

/-- The links that start or end at a node. -/
def touching (g : Graph) (node : NodeId) : List Link := g.liveLinks.filter (·.touches node)

/-- Removes a node and its links, and hands back the slots of their ends. -/
def removeNode (node : NodeId) : EStateM GraphError Graph Unit := fun g =>
  match g.node? node with
  | none => .error .invalidNode g
  | some _ =>
    .ok ()
      { nodes := g.nodes.setIfInBounds node none
        links := g.links.map (·.filter (!·.touches node))
        registries := (g.touching node).foldl
          (fun rs l => (rs.releaseEnd l.sourceEnd).releaseEnd l.targetEnd) g.registries }

/-- The slots that the removal of a node hands back, in this order. -/
def slotsTouching (g : Graph) (node : NodeId) (kind : SetKind) : List SlotId :=
  (g.touching node).flatMap fun l => [l.sourceEnd.slot kind, l.targetEnd.slot kind]

def removeNodeFindings (g : Graph) (node : NodeId) : List Finding :=
  match g.node? node with
  | none => []
  | some _ =>
    SetKind.all.flatMap fun kind =>
      (g.registry kind).releaseSlotsFindings (g.slotsTouching node kind)

/-- The end of the link at a pad, on the side of the pad. -/
def padEnd (g : Graph) (node : NodeId) (pad : PadRef) : Except GraphError LinkEnd :=
  match g.node? node with
  | none => .error .invalidNode
  | some n =>
    match pad with
    | .input i =>
      match n.inputs[i]?, g.inputLink? ⟨node, i⟩ with
      | none, _ => .error .invalidPad
      | some _, none => .error .invalidLink
      | some _, some l => .ok l.targetEnd
    | .output i =>
      match n.outputs[i]?, g.outputLink? ⟨node, i⟩ with
      | none, _ => .error .invalidPad
      | some _, none => .error .invalidLink
      | some _, some l => .ok l.sourceEnd

end Graph

end FormatNegotiation
