/-! The laws that negotiation promises to keep, and the log of those that a run has checked. -/
namespace FormatNegotiation

/-- What operations on sets, layouts and links promise about the state they leave. -/
inductive Law where
  /-- A set lists no slot twice. -/
  | refsDistinct
  /-- Every slot that a set lists points back at the set. -/
  | slotsPointBack
  /-- What a merge computes is accepted by both operands. -/
  | mergeIsIntersection
  /-- A merge brings every reference of both operands to the survivor. -/
  | mergeRetargetsAll
  /-- A refused merge leaves both operands referenced as before. -/
  | refusalKeepsReferences
  /-- The loss of its last reference frees a set. -/
  | lastReferenceFrees
  /-- A new set is referenced from every slot that it was attached to. -/
  | attachReachesAll
  /-- An entry is appended only where it agrees in kind with those of its channel count. -/
  | layoutsUnambiguous
  /-- After a merge both ends of the link reference the same set. -/
  | linkEndsAgree
deriving DecidableEq, Repr

/-- Laws are numbered from 1 in the order of their declaration. -/
def Law.number (law : Law) : Nat := law.ctorIdx + 1

/-- One check of a law, and whether the law was found to hold. -/
structure Finding where
  law : Law
  holds : Bool
deriving DecidableEq, Repr

/-- The laws that were checked and held since the log was last cleared. -/
structure LawLog where
  laws : List Law
deriving DecidableEq, Repr

namespace LawLog

def empty : LawLog := ⟨[]⟩

/-- Notes every law that was found to hold. -/
def record (log : LawLog) (findings : List Finding) : LawLog :=
  ⟨(findings.filter (·.holds)).foldl (fun laws f => laws.insert f.law) log.laws⟩

def containsNumber (log : LawLog) (n : Nat) : Bool := log.laws.any (·.number == n)

/-- The numbers among those required that the log lacks, in the order and as often as required. -/
def missing (log : LawLog) (required : List Nat) : List Nat :=
  required.filter (!log.containsNumber ·)

/-- A contract names laws by number and is broken by those that the log lacks; the error is its
report. -/
def contract (log : LawLog) (name : String) (required : List Nat) : Except String Unit :=
  match log.missing required with
  | [] => .ok ()
  | lacking =>
    let numbers := ", ".intercalate (lacking.map toString)
    .error s!"Contract test '{name}' failed: invariants not enforced: [{numbers}]"

end LawLog

/-- A run so far: the state it reached, and the laws it checked on the way. -/
structure Session (State : Type) where
  state : State
  log : LawLog

def Session.start {State : Type} (state : State) : Session State := ⟨state, .empty⟩

end FormatNegotiation
