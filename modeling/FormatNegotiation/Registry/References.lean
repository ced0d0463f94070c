import FormatNegotiation.Registry.Basic

/-! Operations on the references from slots to sets. Those that can fail look before they act, so
that the registry which comes with an error is the one they were given. -/
namespace FormatNegotiation.Registry

variable {σ : Type}

/-- Every slot must be vacant, and none may occur among those seen before it; the first one at fault
is reported. -/
def checkDistinctVacant (r : Registry σ) (seen : List SlotId) :
    List SlotId → Except FormatError Unit
  | [] => .ok ()
  | slot :: rest =>
    match r.checkVacant slot with
    | .error e => .error e
    | .ok () =>
      if seen.contains slot then .error (.slotInUse slot)
      else r.checkDistinctVacant (slot :: seen) rest

/-- Stores a new set that is referenced from every one of these slots. Without slots the contents
are dropped. -/
def attach (contents : σ) (slots : List SlotId) : Action σ (Option SetId) := fun r =>
  if slots.isEmpty then .ok none r
  else
    match r.checkDistinctVacant [] slots with
    | .error e => .error e r
    | .ok () => .ok (some r.nextId) ((r.store ⟨contents, slots⟩).pointAll slots r.nextId)

/-- Lets a vacant slot point at a live set. -/
def addReference (id : SetId) (slot : SlotId) : Action σ Unit := fun r =>
  match r.checkVacant slot with
  | .error e => .error e r
  | .ok () =>
    if r.isLive id then
      .ok ()
        ((r.modifyEntry id fun e => { e with refs := e.refs ++ [slot] }).setSlot slot (.held id))
    else .error .unknownSet r

/-- Lets a slot point at nothing, and frees the set that it pointed at if no other slot does. A slot
that points at nothing is left alone. -/
def removeReference (r : Registry σ) (slot : SlotId) : Registry σ :=
  match r.held? slot with
  | none => r
  | some id =>
    let r := (r.setSlot slot .vacant).modifyEntry id fun e => { e with refs := e.refs.erase slot }
    if (r.refs id).isEmpty then r.free id else r

/-- Takes a slot back together with its reference. It is then unknown until `newSlot` hands it out
again. There must be room for it on the free list; see `releaseSlotIn` for a want of it. -/
def releaseSlot (r : Registry σ) (slot : SlotId) : Registry σ :=
  match r.slots[slot]? with
  | none | some .released => r
  | some _ =>
    { (r.removeReference slot).setSlot slot .released with freeSlots := slot :: r.freeSlots }

/-- Moves the reference of one slot to a vacant one, in the same place among the references of the
set. There is nothing to do for a slot that points at nothing, or if both are the same. -/
def changeReference (old new : SlotId) : Action σ Unit := fun r =>
  if r.slotCount ≤ old then .error (.unknownSlot old) r
  else
    match r.held? old with
    | none => .ok () r
    | some id =>
      if old = new then .ok () r
      else
        match r.checkVacant new with
        | .error e => .error e r
        | .ok () =>
          if r.isLive id then
            .ok () (((r.modifyEntry id fun e => { e with refs := e.refs.replace old new }).setSlot
              new (.held id)).setSlot old .vacant)
          else .error .unknownSet r

/-- Moves all references of one live set to another one, behind those that it has, and frees the
first. Its contents are the result. -/
def retargetAll (src dst : SetId) : Action σ σ := fun r =>
  if src = dst then .error .unknownSet r
  else
    match r.find? src, r.find? dst with
    | some moving, some _ =>
      .ok moving.contents (((r.free src).pointAll moving.refs dst).modifyEntry dst fun e =>
        { e with refs := e.refs ++ moving.refs })
    | _, _ => .error .unknownSet r

/-! ## What these operations check -/

def attachFindings (contents : σ) (slots : List SlotId) (r : Registry σ) : List Finding :=
  match attach contents slots r with
  | .ok (some id) r' =>
    ⟨.attachReachesAll, slots.all fun slot => r'.held? slot = some id⟩ :: r'.setFindings id
  | _ => []

def addReferenceFindings (id : SetId) (slot : SlotId) (r : Registry σ) : List Finding :=
  match addReference id slot r with
  | .ok _ r' => r'.setFindings id
  | .error _ _ => []

/-- A set that lost its last reference must be gone; any other one is checked as usual. -/
def removeReferenceFindings (r : Registry σ) (slot : SlotId) : List Finding :=
  match r.held? slot with
  | none => []
  | some id =>
    match r.find? id with
    | none => []
    | some entry =>
      let r' := r.removeReference slot
      if (entry.refs.erase slot).isEmpty then [⟨.lastReferenceFrees, !r'.isLive id⟩]
      else r'.setFindings id

def releaseSlotFindings (r : Registry σ) (slot : SlotId) : List Finding :=
  r.removeReferenceFindings slot

/-- What the release of several slots checks, one after the other. -/
def releaseSlotsFindings (r : Registry σ) : List SlotId → List Finding
  | [] => []
  | slot :: rest => r.releaseSlotFindings slot ++ (r.releaseSlot slot).releaseSlotsFindings rest

/-- Nothing is checked unless a reference moves. -/
def changeReferenceFindings (old new : SlotId) (r : Registry σ) : List Finding :=
  match r.held? old, changeReference old new r with
  | some id, .ok _ r' => if old = new then [] else r'.setFindings id
  | _, _ => []

def retargetAllFindings (src dst : SetId) (r : Registry σ) : List Finding :=
  match retargetAll src dst r with
  | .ok _ r' =>
    ⟨.mergeRetargetsAll, (r.refs src).all fun slot => r'.held? slot = some dst⟩ ::
      r'.setFindings dst
  | .error _ _ => []

end FormatNegotiation.Registry
