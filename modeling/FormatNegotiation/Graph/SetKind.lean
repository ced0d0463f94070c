import FormatNegotiation.Merge.Layouts
import FormatNegotiation.Merge.Values
import FormatNegotiation.Registry.Command

/-! The kinds of set that a link negotiates, and the registries that hold the sets of each kind. -/
namespace FormatNegotiation

/-- What is negotiated on a link. -/
inductive SetKind where
  /-- Pixel or sample formats. -/
  | formats
  | sampleRates
  | channelLayouts
deriving DecidableEq, Repr

namespace SetKind

/-- Every kind, in the order in which links negotiate them. -/
def all : List SetKind := [.formats, .sampleRates, .channelLayouts]

abbrev Contents : SetKind → Type
  | .formats => FormatList
  | .sampleRates => FormatList
  | .channelLayouts => LayoutSet

/-- Sample rates and channel layouts matter on audio links only. -/
def appliesTo (kind : SetKind) (media : Media) : Bool := kind = .formats || media.isAudio

/-- The kinds that matter on a link of this media, in order. -/
def applicable (media : Media) : List SetKind := all.filter (·.appliesTo media)

end SetKind

instance : (kind : SetKind) → Mergeable kind.Contents
  | .formats => inferInstanceAs (Mergeable FormatList)
  | .sampleRates => inferInstanceAs (Mergeable FormatList)
  | .channelLayouts => inferInstanceAs (Mergeable LayoutSet)

/-- The rule by which a link of this media merges its two sets of a kind. -/
def SetKind.rule (media : Media) (catalog : Catalog) :
    (kind : SetKind) → Mergeable.Rule kind.Contents
  | .formats => ValueRule.formats media catalog
  | .sampleRates => ValueRule.rates
  | .channelLayouts => ()

/-- The slots of one end of a link, one for each kind. -/
structure LinkEnd where
  formats : SlotId
  sampleRates : SlotId
  channelLayouts : SlotId
deriving DecidableEq, Repr

def LinkEnd.slot (e : LinkEnd) : SetKind → SlotId
  | .formats => e.formats
  | .sampleRates => e.sampleRates
  | .channelLayouts => e.channelLayouts

structure Registries where
  formats : Registry FormatList
  sampleRates : Registry FormatList
  channelLayouts : Registry LayoutSet
deriving DecidableEq, Repr

namespace Registries

def empty : Registries := ⟨.empty, .empty, .empty⟩

def of (rs : Registries) : (kind : SetKind) → Registry kind.Contents
  | .formats => rs.formats
  | .sampleRates => rs.sampleRates
  | .channelLayouts => rs.channelLayouts

def set (rs : Registries) : (kind : SetKind) → Registry kind.Contents → Registries
  | .formats, r => { rs with formats := r }
  | .sampleRates, r => { rs with sampleRates := r }
  | .channelLayouts, r => { rs with channelLayouts := r }

/-- Takes a new slot of each kind. -/
def newEnd (rs : Registries) : LinkEnd × Registries :=
  let (formats, formatSets) := rs.formats.newSlot
  let (sampleRates, rateSets) := rs.sampleRates.newSlot
  let (channelLayouts, layoutSets) := rs.channelLayouts.newSlot
  (⟨formats, sampleRates, channelLayouts⟩, ⟨formatSets, rateSets, layoutSets⟩)

/-- Hands back the slots of an end. -/
def releaseEnd (rs : Registries) (e : LinkEnd) : Registries :=
  ⟨rs.formats.releaseSlot e.formats, rs.sampleRates.releaseSlot e.sampleRates,
    rs.channelLayouts.releaseSlot e.channelLayouts⟩

end Registries

end FormatNegotiation
