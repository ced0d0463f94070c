import FormatNegotiation.Memory.Room
import FormatNegotiation.Merge.Layouts
import FormatNegotiation.Merge.Values
import FormatNegotiation.Registry.Command

/-! Lists and registries whose reservations may be refused. An operation may reserve room in several
places. It does so in a row and before it changes anything, so that one answer stands for all. -/
namespace FormatNegotiation

/-! ## Lists -/

/-- Appends an entry, for which there must be room. -/
def LayoutSet.addIn (refusal? : Option ReserveError) (l : ChannelLayout) :
    EStateM MemoryError (Option LayoutSet) Unit :=
  withRoom refusal? (fun _ _ => true) (add l)

/-- Appends entries that come with their places, for each of which there must be room. -/
def LayoutSet.addAllIn (refusal? : Nat → Option ReserveError)
    (entries : List (ChannelLayout × Nat)) : EStateM MemoryError (Option LayoutSet) Unit :=
  entries.forM fun (l, place) => addIn (refusal? place) l

/-- The list of these entries, unless two of them clash or there is no room for one. -/
def LayoutSet.ofListIn (refusal? : Nat → Option ReserveError) (entries : List ChannelLayout) :
    Except MemoryError LayoutSet :=
  match addAllIn refusal? entries.zipIdx none with
  | .ok _ set? => .ok (set?.getD (.listed []))
  | .error e _ => .error e

def FormatList.addIn (refusal? : Option ReserveError) (value : FormatId) :
    EStateM MemoryError (Option FormatList) Unit :=
  withRoom refusal? (fun _ _ => true) fun list? => .ok () (some (add list? value))

/-- A sort of set for which room may be reserved just to see whether two of them share anything. -/
class Buffered (σ : Type) where
  buffers : σ → σ → Bool

/-- Common values are counted before any is stored. -/
instance : Buffered FormatList where
  buffers _ _ := false

/-- The common part of two lists is built up at once, unless there is nothing in either. -/
instance : Buffered LayoutSet where
  buffers
    | .listed a, .listed b => !(a.isEmpty && b.isEmpty)
    | _, _ => false

namespace Registry

variable {σ : Type}

abbrev MemoryAction (σ α : Type) := EStateM MemoryError (Registry σ) α

/-- Room is asked for if a set is to be stored. -/
def attachIn (refusal? : Option ReserveError) (contents : σ) (slots : List SlotId) :
    MemoryAction σ (Option SetId) :=
  withRoom refusal? (fun _ id? => id?.isSome) (attach contents slots)

def addReferenceIn (refusal? : Option ReserveError) (id : SetId) (slot : SlotId) :
    MemoryAction σ Unit :=
  withRoom refusal? (fun _ _ => true) (addReference id slot)

def retargetAllIn (refusal? : Option ReserveError) (src dst : SetId) : MemoryAction σ σ :=
  withRoom refusal? (fun _ _ => true) (retargetAll src dst)

/-- Takes a slot back. Without room on the free list it stays handed out, and points at nothing. -/
def releaseSlotIn (refusal? : Option ReserveError) (r : Registry σ) (slot : SlotId) : Registry σ :=
  match refusal? with
  | some _ => r.removeReference slot
  | none => r.releaseSlot slot

section Merge

variable [Buffered σ]

/-- A merge of two different sets asks for room for the references that move, and one that is
refused at most for what it compares. -/
def mergeAsks (a b : SetId) (r : Registry σ) : MergeOutcome → Bool
  | .merged => a ≠ b
  | .incompatible =>
    match r.contents? a, r.contents? b with
    | some x, some y => Buffered.buffers x y
    | _, _ => false

variable [Mergeable σ]

def mergeIn (refusal? : Option ReserveError) (rule : Mergeable.Rule σ) (a b : SetId) :
    MemoryAction σ MergeOutcome :=
  withRoom refusal? (mergeAsks a b) (merge rule a b)

/-- A new slot is pushed without a reservation that could be refused, and a reference that is
removed or moved needs no room. -/
def execIn (refusal? : Option ReserveError) : Command σ → MemoryAction σ (Reply σ)
  | .releaseSlot slot => fun r => .ok .done (r.releaseSlotIn refusal? slot)
  | .attach contents slots => .attached <$> attachIn refusal? contents slots
  | .addReference id slot => (fun _ => .done) <$> addReferenceIn refusal? id slot
  | .retargetAll src dst => .drained <$> retargetAllIn refusal? src dst
  | .merge rule a b => .outcome <$> mergeIn refusal? rule a b
  | .newSlot => withoutRoom (exec .newSlot)
  | .removeReference slot => withoutRoom (exec (.removeReference slot))
  | .changeReference old new => withoutRoom (exec (.changeReference old new))

end Merge

end Registry

end FormatNegotiation
