/-! What can go wrong in negotiation: the causes, and the one place where they are put into words.
-/
namespace FormatNegotiation

/-- What an integrity check can find wrong with a list. -/
inductive Defect where
  /-- The list holds no value where at least one is required. -/
  | empty
  /-- A value appears more than once. -/
  | duplicate
  /-- A known layout and a bare channel count describe the same number of channels. -/
  | ambiguous
  /-- A value is unknown to the catalog, or is a sample rate that is not positive. -/
  | invalidValue
deriving DecidableEq, Repr

def Defect.text : Defect → String
  | .empty => "empty list"
  | .duplicate => "duplicated value"
  | .ambiguous => "redundant layout and channel count"
  | .invalidValue => "invalid value"

/-- Why the graph refuses a node, a pad or a link. -/
inductive GraphError where
  | mediaMismatch
  | cycleDetected
  | invalidPad
  | invalidNode
  | invalidLink
  | padAlreadyConnected
deriving DecidableEq, Repr

def GraphError.name : GraphError → String
  | .mediaMismatch => "MediaMismatch"
  | .cycleDetected => "CycleDetected"
  | .invalidPad => "InvalidPad"
  | .invalidNode => "InvalidNode"
  | .invalidLink => "InvalidLink"
  | .padAlreadyConnected => "PadAlreadyConnected"

/-- Why an operation on sets, slots or lists fails. Want of memory is not among the causes: here and
in all operations memory is taken to suffice. What happens when it does not is said in the modules
under `FormatNegotiation.Memory`. -/
inductive FormatError where
  /-- The set is no longer live, or never was. -/
  | unknownSet
  /-- The slot was never handed out, or has been handed back. -/
  | unknownSlot (slot : Nat)
  /-- The slot already references a set. -/
  | slotInUse (slot : Nat)
  /-- A merge needs both sets to be referenced. -/
  | unreferenced
  /-- A list that accepts everything takes no explicit entry. -/
  | wildcardList
  /-- The layout, as written in messages, would make its list ambiguous. -/
  | ambiguousLayout (layout : String)
  /-- A check found a defect in the list that goes by this name. -/
  | integrity (list : String) (defect : Defect)
  /-- The graph has no such part, or refuses the change. -/
  | graph (error : GraphError)
deriving DecidableEq, Repr

def FormatError.message : FormatError → String
  | .unknownSet => "unknown format set"
  | .unknownSlot slot => s!"unknown reference slot {slot}"
  | .slotInUse slot => s!"reference slot {slot} is already in use"
  | .unreferenced => "format set has no references"
  | .wildcardList => "cannot add an explicit value to a wildcard list"
  | .ambiguousLayout layout =>
    s!"channel layout {layout} conflicts with an entry of the same channel count"
  | .integrity list defect => s!"invalid {list} list: {defect.text}"
  | .graph error => s!"graph error: {error.name}"

end FormatNegotiation
