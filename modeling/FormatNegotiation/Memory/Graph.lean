import FormatNegotiation.Graph.Command
import FormatNegotiation.Memory.Registry

/-! Graphs whose reservations may be refused. Nodes, links and new slots are pushed without a
reservation that could be; what may be refused is room in lists, for sets and their references, and
on the free lists of slots. -/
namespace FormatNegotiation

instance : (kind : SetKind) → Buffered kind.Contents
  | .formats => inferInstanceAs (Buffered FormatList)
  | .sampleRates => inferInstanceAs (Buffered FormatList)
  | .channelLayouts => inferInstanceAs (Buffered LayoutSet)

/-- What a command may need room for. -/
inductive Request where
  /-- An entry of a list that is built, by its place. -/
  | entry (place : Nat)
  /-- An operation on the registry of a kind. -/
  | registry (kind : SetKind)
  /-- The slot that the source end of a link hands back. -/
  | sourceSlot (kind : SetKind) (link : LinkId)
  | targetSlot (kind : SetKind) (link : LinkId)
deriving DecidableEq, Repr

/-- What of the room that a command needs is refused, and why. -/
abbrev Memory := Request → Option ReserveError

/-- Nothing is refused. -/
def Memory.ample : Memory := fun _ => none

/-- Hands back the slots of an end, as far as there is room for them on the free lists. -/
def Registries.releaseEndIn (rs : Registries) (refusal? : SetKind → Option ReserveError)
    (e : LinkEnd) : Registries :=
  ⟨rs.formats.releaseSlotIn (refusal? .formats) e.formats,
    rs.sampleRates.releaseSlotIn (refusal? .sampleRates) e.sampleRates,
    rs.channelLayouts.releaseSlotIn (refusal? .channelLayouts) e.channelLayouts⟩

namespace Graph

abbrev MemoryAction (α : Type) := EStateM MemoryError Graph α

def onRegistryIn {α : Type} (kind : SetKind) (act : Registry.MemoryAction kind.Contents α) :
    MemoryAction α :=
  fun g =>
    match act (g.registry kind) with
    | .ok x r => .ok x (g.setRegistry kind r)
    | .error e r => .error e (g.setRegistry kind r)

variable (memory : Memory)

/-- Hands back the slots at both ends of a link. -/
def releaseLinkIn (rs : Registries) (l : Link) : Registries :=
  (rs.releaseEndIn (fun kind => memory (.sourceSlot kind l.id)) l.sourceEnd).releaseEndIn
    (fun kind => memory (.targetSlot kind l.id)) l.targetEnd

def removeNodeIn (node : NodeId) : EStateM GraphError Graph Unit := fun g =>
  match g.node? node with
  | none => .error .invalidNode g
  | some _ =>
    .ok ()
      { nodes := g.nodes.setIfInBounds node none
        links := g.links.map (·.filter (!·.touches node))
        registries := (g.touching node).foldl (releaseLinkIn memory) g.registries }

def installIn (kind : SetKind) (contents : kind.Contents) (node : NodeId) : MemoryAction Unit :=
  fun g =>
    match g.eligibleSlots kind node with
    | .error e => .error (.format (.graph e)) g
    | .ok slots =>
      (discard (onRegistryIn kind
        (Registry.attachIn (memory (.registry kind)) contents slots))) g

/-- The list is built before it is installed. -/
def installLayoutsIn (entries : List ChannelLayout) (node : NodeId) : MemoryAction Unit := fun g =>
  match LayoutSet.ofListIn (fun place => memory (.entry place)) entries with
  | .error e => .error e g
  | .ok set => installIn memory .channelLayouts set node g

def installDefaultsIn (catalog : Catalog) (node : NodeId) : MemoryAction Unit := fun g =>
  match g.node? node with
  | none => .error (.format (.graph .invalidNode)) g
  | some n =>
    (do
      installIn memory .formats (FormatList.allFormats n.defaultMedia catalog) node
      if n.defaultMedia.isAudio then
        installIn memory .channelLayouts .allCounts node
        installIn memory .sampleRates FormatList.allSampleRates node : MemoryAction Unit) g

/-- Merges the sets of each kind that both ends hold. Room is reserved kind by kind, so that a
refusal leaves the kinds before it merged. -/
def mergeEndsIn (catalog : Catalog) (l : Link) : List SetKind → MemoryAction Negotiation
  | [] => pure .merged
  | kind :: rest => fun g =>
    match g.endSets? l kind with
    | none => mergeEndsIn catalog l rest g
    | some (a, b) =>
      match onRegistryIn kind
        (Registry.mergeIn (memory (.registry kind)) (kind.rule l.media catalog) a b) g with
      | .error e g' => .error e g'
      | .ok .incompatible g' => .ok (.incompatible kind) g'
      | .ok .merged g' => mergeEndsIn catalog l rest g'

def negotiateLinkIn (catalog : Catalog) (link : LinkId) : MemoryAction Negotiation := fun g =>
  match g.link? link with
  | none => .error (.format (.graph .invalidLink)) g
  | some l =>
    match (SetKind.applicable l.media).find? (!g.endsCompatible catalog l ·) with
    | some kind => .ok (.incompatible kind) g
    | none => mergeEndsIn memory catalog l (SetKind.applicable l.media) g

/-- Only the commands that reserve room depend on the memory. -/
def execIn : Command → MemoryAction Reply
  | .removeNode node =>
    (fun _ => .done) <$> withoutRoom (liftStructural (removeNodeIn memory node))
  | .install kind contents node => (fun _ => .done) <$> installIn memory kind contents node
  | .installLayouts entries node => (fun _ => .done) <$> installLayoutsIn memory entries node
  | .installAnyRate node =>
    (fun _ => .done) <$> installIn memory .sampleRates FormatList.allSampleRates node
  | .installAnyLayout node => (fun _ => .done) <$> installIn memory .channelLayouts .allCounts node
  | .installDefaults catalog node => (fun _ => .done) <$> installDefaultsIn memory catalog node
  | .negotiateLink catalog link => .negotiation <$> negotiateLinkIn memory catalog link
  | .onRegistry kind command =>
    .registry kind <$> onRegistryIn kind (Registry.execIn (memory (.registry kind)) command)
  | .addFilter name inputs outputs => withoutRoom (exec (.addFilter name inputs outputs))
  | .addLink edge => withoutRoom (exec (.addLink edge))
  | .insertFilter link node inPad outPad =>
    withoutRoom (exec (.insertFilter link node inPad outPad))

/-- The graph after a command with this memory, whether it succeeded or failed. -/
def afterIn (g : Graph) (memory : Memory) (c : Command) : Graph :=
  match execIn memory c g with
  | .ok _ g' => g'
  | .error _ g' => g'

/-- A run in which every command comes with what memory answers to it. -/
def runIn (g : Graph) (cs : List (Memory × Command)) : Graph :=
  cs.foldl (fun g (memory, c) => g.afterIn memory c) g

end Graph

end FormatNegotiation
