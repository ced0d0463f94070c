import FormatNegotiation.Graph.Structure

/-! Inserting a filter into a link: the link then ends at the filter, and a new link leads from the
filter to where the old one ended. -/
namespace FormatNegotiation.Graph

/-- What an insertion needs: the link, the node, both of its pads, their media, both pads unused,
and no cycle once the link is split. The first of these that is missing is reported. -/
def checkInsertion (g : Graph) (link : LinkId) (node : NodeId) (inPad outPad : PadId) :
    Except GraphError Link :=
  match g.link? link, g.node? node with
  | none, _ => .error .invalidLink
  | some _, none => .error .invalidNode
  | some l, some n =>
    match n.inputs[inPad]?, n.outputs[outPad]? with
    | some inMedia, some outMedia =>
      if inMedia ≠ l.media ∨ outMedia ≠ l.media then .error .mediaMismatch
      else if (g.inputLink? ⟨node, inPad⟩).isSome || (g.outputLink? ⟨node, outPad⟩).isSome then
        .error .padAlreadyConnected
      else if node = l.source.node || node = l.target.node || g.reaches node l.source.node ||
          g.reaches l.target.node node then
        .error .cycleDetected
      else .ok l
    | _, _ => .error .invalidPad

/-- Moves the references of one end to another, for each of these kinds. -/
def moveReferences (old new : LinkEnd) : List SetKind → Action Unit
  | [] => pure ()
  | kind :: rest => do
    onRegistry kind (Registry.changeReference (old.slot kind) (new.slot kind))
    moveReferences old new rest

/-- Lets a link end at another pad. -/
def redirect (g : Graph) (link : LinkId) (target : Port) : Graph :=
  { g with links := g.links.modify link (·.map fun l => { l with target }) }

/-- Splits a link around a node. What the target end of the link references goes to the target end
of the new link, which is the result. -/
def insertFilter (link : LinkId) (node : NodeId) (inPad outPad : PadId) : Action LinkId := fun g =>
  match g.checkInsertion link node inPad outPad with
  | .error e => .error (.graph e) g
  | .ok l =>
    let (sourceEnd, rs) := g.registries.newEnd
    let (targetEnd, rs) := rs.newEnd
    match moveReferences l.targetEnd targetEnd SetKind.all { g with registries := rs } with
    | .error e g' => .error e g'
    | .ok _ g' =>
      let added : Link :=
        { source := ⟨node, outPad⟩, target := l.target, media := l.media, id := g.links.size,
          sourceEnd, targetEnd }
      .ok g.links.size ({ g' with links := g'.links.push (some added) }.redirect link ⟨node, inPad⟩)

/-! ## What an insertion checks -/

/-- Each kind is checked as it moves, until one fails. -/
def moveReferencesFindings (old new : LinkEnd) : List SetKind → Graph → List Finding
  | [], _ => []
  | kind :: rest, g =>
    Registry.changeReferenceFindings (old.slot kind) (new.slot kind) (g.registry kind) ++
      match onRegistry kind (Registry.changeReference (old.slot kind) (new.slot kind)) g with
      | .ok _ g' => moveReferencesFindings old new rest g'
      | .error _ _ => []

def insertFilterFindings (g : Graph) (link : LinkId) (node : NodeId) (inPad outPad : PadId) :
    List Finding :=
  match g.checkInsertion link node inPad outPad with
  | .error _ => []
  | .ok l =>
    let rs := g.registries.newEnd.2.newEnd
    moveReferencesFindings l.targetEnd rs.1 SetKind.all { g with registries := rs.2 }

end FormatNegotiation.Graph
