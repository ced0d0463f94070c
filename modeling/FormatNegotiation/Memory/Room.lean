import FormatNegotiation.Error

/-! Room for what grows. The operations themselves take memory to suffice, so that a list or a
registry can always grow. The modules under `FormatNegotiation.Memory` say what becomes of them
where it does not: room is reserved before anything is changed, and an operation whose reservation
is refused fails for that reason. -/
namespace FormatNegotiation

/-- Why room is refused. -/
inductive ReserveError where
  | capacityOverflow
  | allocator
deriving DecidableEq, Repr

def ReserveError.reason : ReserveError → String
  | .capacityOverflow => "the computed capacity exceeded the collection's maximum"
  | .allocator => "the memory allocator returned an error"

/-- Why an operation fails where room may be refused. -/
inductive MemoryError where
  | alloc (cause : ReserveError)
  /-- It fails as it does with all the room that it needs. -/
  | format (error : FormatError)
deriving DecidableEq, Repr

def MemoryError.message : MemoryError → String
  | .alloc cause => s!"allocation failed: memory allocation failed because {cause.reason}"
  | .format error => error.message

section Operation

variable {State α : Type}

/-- An operation that reserves nothing. -/
def withoutRoom (act : EStateM FormatError State α) : EStateM MemoryError State α := fun s =>
  match act s with
  | .ok x s' => .ok x s'
  | .error e s' => .error (.format e) s'

/-- An operation that asks for room when its checks have passed. If it is refused nothing has been
changed. What is asked for may depend on the state before and on the result to come. -/
def withRoom (refusal? : Option ReserveError) (asks : State → α → Bool)
    (act : EStateM FormatError State α) : EStateM MemoryError State α := fun s =>
  match refusal?, act s with
  | some cause, .ok x s' => if asks s x then .error (.alloc cause) s else .ok x s'
  | none, .ok x s' => .ok x s'
  | _, .error e s' => .error (.format e) s'

end Operation

end FormatNegotiation
