import FormatNegotiation.Graph.Basic

/-! Installing a common set on the pads of a filter that have none yet, which is how a filter states
what it can work with. -/
namespace FormatNegotiation.Graph

/-- The media and the near end of the links at the pads of a node, inputs before outputs. -/
def padEnds (g : Graph) (n : FilterNode) (node : NodeId) : List (Media × LinkEnd) :=
  (List.range n.inputs.length).filterMap (fun i =>
      (g.inputLink? ⟨node, i⟩).map fun l => (l.media, l.targetEnd)) ++
    (List.range n.outputs.length).filterMap fun i =>
      (g.outputLink? ⟨node, i⟩).map fun l => (l.media, l.sourceEnd)

/-- The slots at the connected pads of a node that can take a set of this kind: those on links to
which the kind applies, and that point at nothing. -/
def eligibleSlots (g : Graph) (kind : SetKind) (node : NodeId) : Except GraphError (List SlotId) :=
  match g.node? node with
  | none => .error .invalidNode
  | some n =>
    .ok ((((g.padEnds n node).filter fun p => kind.appliesTo p.1).map fun p => p.2.slot kind).filter
      fun slot => ((g.registry kind).held? slot).isNone)

/-- References one new set from every eligible slot of a node. If there is none the set is dropped.
-/
def install (kind : SetKind) (contents : kind.Contents) (node : NodeId) : Action Unit := fun g =>
  match g.eligibleSlots kind node with
  | .error e => .error (.graph e) g
  | .ok slots => (discard (onRegistry kind (Registry.attach contents slots))) g

/-- Installs a list of layouts, which must not clash. -/
def installLayouts (entries : List ChannelLayout) (node : NodeId) : Action Unit := fun g =>
  match LayoutSet.ofList entries with
  | .error e => .error e g
  | .ok set => install .channelLayouts set node g

def installAnyRate (node : NodeId) : Action Unit :=
  install .sampleRates FormatList.allSampleRates node

def installAnyLayout (node : NodeId) : Action Unit := install .channelLayouts .allCounts node

/-- For a filter that states nothing itself: all formats of its default media, and for audio also
any layout and any sample rate. -/
def installDefaults (catalog : Catalog) (node : NodeId) : Action Unit := fun g =>
  match g.node? node with
  | none => .error (.graph .invalidNode) g
  | some n =>
    (do
      install .formats (FormatList.allFormats n.defaultMedia catalog) node
      if n.defaultMedia.isAudio then
        installAnyLayout node
        installAnyRate node : Action Unit) g

/-! ## What these operations check -/

def installFindings (kind : SetKind) (contents : kind.Contents) (node : NodeId) (g : Graph) :
    List Finding :=
  match g.eligibleSlots kind node with
  | .error _ => []
  | .ok slots => Registry.attachFindings contents slots (g.registry kind)

/-- The list is checked while it is built, even if it is not installed in the end. -/
def installLayoutsFindings (entries : List ChannelLayout) (node : NodeId) (g : Graph) :
    List Finding :=
  LayoutSet.ofListFindings none entries ++
    match LayoutSet.ofList entries with
    | .error _ => []
    | .ok set => installFindings .channelLayouts set node g

/-- Each set is checked as it is installed, until one fails. -/
def installAllFindings (node : NodeId) :
    List ((kind : SetKind) × kind.Contents) → Graph → List Finding
  | [], _ => []
  | ⟨kind, contents⟩ :: rest, g =>
    installFindings kind contents node g ++
      match install kind contents node g with
      | .ok _ g' => installAllFindings node rest g'
      | .error _ _ => []

def installDefaultsFindings (catalog : Catalog) (node : NodeId) (g : Graph) : List Finding :=
  match g.node? node with
  | none => []
  | some n =>
    let formats : (kind : SetKind) × kind.Contents :=
      ⟨.formats, FormatList.allFormats n.defaultMedia catalog⟩
    let audio : List ((kind : SetKind) × kind.Contents) :=
      [⟨.channelLayouts, LayoutSet.allCounts⟩, ⟨.sampleRates, FormatList.allSampleRates⟩]
    installAllFindings node (formats :: if n.defaultMedia.isAudio then audio else []) g

end FormatNegotiation.Graph
