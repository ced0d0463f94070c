import FormatNegotiation.Error
import FormatNegotiation.Law

/-! A registry of shared sets: an arena of cells that hold the sets, and the slots that point at
them. A set knows the slots that reference it, so that a merge can repoint them all. -/
namespace FormatNegotiation

/-- A slot is known by its number. -/
abbrev SlotId := Nat

/-- A handle to a stored set. The generation tells the sets apart that a cell holds one after the
other, so that the handle of a freed set stays invalid when its cell is used again. Here the index
may be any number. What becomes of it in 32 bits is said in `FormatNegotiation.Registry.Narrow`. -/
structure SetId where
  index : Nat
  generation : Nat
deriving DecidableEq, Repr

/-- A stored set and the slots that reference it, in the order in which they came. -/
structure SetEntry (σ : Type) where
  contents : σ
  refs : List SlotId
deriving DecidableEq, Repr

/-- A place for one set at a time. -/
structure Cell (σ : Type) where
  generation : Nat
  occupant : Option (SetEntry σ)
deriving DecidableEq, Repr

/-- What a slot is good for. -/
inductive SlotState where
  /-- Handed out, and pointing at nothing. -/
  | vacant
  | held (id : SetId)
  /-- Handed back by its owner, and waiting to be handed out again. -/
  | released
deriving DecidableEq, Repr

/-- Shared sets and the slots that reference them. -/
structure Registry (σ : Type) where
  cells : Array (Cell σ)
  /-- Empty cells, the one to be used next in front. -/
  freeCells : List Nat
  slots : Array SlotState
  /-- Released slots, the one to be handed out next in front. -/
  freeSlots : List SlotId
deriving DecidableEq, Repr

namespace Registry

variable {σ : Type}

/-- An operation that may fail; after a failure the registry is the one that comes with the error.
-/
abbrev Action (σ α : Type) := EStateM FormatError (Registry σ) α

def empty : Registry σ := ⟨#[], [], #[], []⟩

/-! ## Lookups -/

/-- The set that a handle names, if it is live. -/
def find? (r : Registry σ) (id : SetId) : Option (SetEntry σ) :=
  match r.cells[id.index]? with
  | some cell => if cell.generation = id.generation then cell.occupant else none
  | none => none

def contents? (r : Registry σ) (id : SetId) : Option σ := (r.find? id).map (·.contents)

/-- The slots that reference a set, in the order in which they came; none for a set that is not
live. -/
def refs (r : Registry σ) (id : SetId) : List SlotId := ((r.find? id).map (·.refs)).getD []

def refcount (r : Registry σ) (id : SetId) : Nat := (r.refs id).length

def isLive (r : Registry σ) (id : SetId) : Bool := (r.find? id).isSome

def liveSets (r : Registry σ) : Nat := r.cells.countP (·.occupant.isSome)

/-- The number of slots ever handed out, released ones included. -/
def slotCount (r : Registry σ) : Nat := r.slots.size

def held? (r : Registry σ) (slot : SlotId) : Option SetId :=
  match r.slots[slot]? with
  | some (.held id) => some id
  | _ => none

def heldContents? (r : Registry σ) (slot : SlotId) : Option σ := (r.held? slot).bind r.contents?

/-- Only a slot that is handed out and points at nothing can take a reference. -/
def checkVacant (r : Registry σ) (slot : SlotId) : Except FormatError Unit :=
  match r.slots[slot]? with
  | some .vacant => .ok ()
  | some (.held _) => .error (.slotInUse slot)
  | some .released | none => .error (.unknownSlot slot)

/-! ## Updates of one part -/

def setSlot (r : Registry σ) (slot : SlotId) (state : SlotState) : Registry σ :=
  { r with slots := r.slots.setIfInBounds slot state }

/-- Lets every one of these slots point at the set. -/
def pointAll (r : Registry σ) (slots : List SlotId) (id : SetId) : Registry σ :=
  slots.foldl (fun r slot => r.setSlot slot (.held id)) r

def modifyEntry (r : Registry σ) (id : SetId) (f : SetEntry σ → SetEntry σ) : Registry σ :=
  { r with
    cells := r.cells.modify id.index fun cell =>
      if cell.generation = id.generation then { cell with occupant := cell.occupant.map f }
      else cell }

/-- The handle that the next stored set gets: the cell freed last, or a new one if all are full, in
its present generation. The index is exact up to 2^32 cells; see `SetId.narrow` for what is handed
out beyond them. -/
def nextId (r : Registry σ) : SetId :=
  let index := r.freeCells.headD r.cells.size
  ⟨index, ((r.cells[index]?).map (·.generation)).getD 0⟩

/-- Puts an entry into the cell that `nextId` names. -/
def store (r : Registry σ) (entry : SetEntry σ) : Registry σ :=
  match r.freeCells with
  | index :: free =>
    { r with
      cells := r.cells.modify index fun cell => { cell with occupant := some entry }
      freeCells := free }
  | [] => { r with cells := r.cells.push ⟨0, some entry⟩ }

/-- The generation that follows. It is kept in 32 bits, and starts over when they are used up. -/
def nextGeneration (generation : Nat) : Nat := (generation + 1) % UInt32.size

/-- Empties the cell of a live set. Its generation ends, and the cell is the next to be used. -/
def free (r : Registry σ) (id : SetId) : Registry σ :=
  match r.find? id with
  | some _ =>
    { r with
      cells := r.cells.modify id.index fun cell => ⟨nextGeneration cell.generation, none⟩
      freeCells := id.index :: r.freeCells }
  | none => r

/-! ## Slots -/

/-- Hands out a vacant slot: the one released last, or a new one if none is waiting. -/
def newSlot (r : Registry σ) : SlotId × Registry σ :=
  match r.freeSlots with
  | slot :: free => (slot, { r.setSlot slot .vacant with freeSlots := free })
  | [] => (r.slots.size, { r with slots := r.slots.push .vacant })

/-! ## What is checked of a set -/

/-- Each slot is listed once, and every one of them points back at the set. -/
def setFindings (r : Registry σ) (id : SetId) : List Finding :=
  [⟨.refsDistinct, (r.refs id).Nodup⟩,
    ⟨.slotsPointBack, (r.refs id).all fun slot => r.held? slot = some id⟩]

end Registry

end FormatNegotiation
