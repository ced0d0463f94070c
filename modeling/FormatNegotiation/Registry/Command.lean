import FormatNegotiation.Registry.Merge

/-! The commands that change a registry, as data, so that a run is a list of them. -/
namespace FormatNegotiation.Registry

/-- A change to a registry of sets. Slots and handles may be any, issued or not. -/
inductive Command (σ : Type) [Mergeable σ] where
  | newSlot
  | releaseSlot (slot : SlotId)
  | attach (contents : σ) (slots : List SlotId)
  | addReference (id : SetId) (slot : SlotId)
  | removeReference (slot : SlotId)
  | changeReference (old new : SlotId)
  | retargetAll (src dst : SetId)
  | merge (rule : Mergeable.Rule σ) (a b : SetId)

inductive Reply (σ : Type) where
  | done
  | slot (slot : SlotId)
  | attached (id? : Option SetId)
  | drained (contents : σ)
  | outcome (outcome : MergeOutcome)
deriving DecidableEq, Repr

variable {σ : Type} [Mergeable σ]

def exec : Command σ → Action σ (Reply σ)
  | .newSlot => fun r => .ok (.slot r.newSlot.1) r.newSlot.2
  | .releaseSlot slot => fun r => .ok .done (r.releaseSlot slot)
  | .attach contents slots => .attached <$> attach contents slots
  | .addReference id slot => (fun _ => .done) <$> addReference id slot
  | .removeReference slot => fun r => .ok .done (r.removeReference slot)
  | .changeReference old new => (fun _ => .done) <$> changeReference old new
  | .retargetAll src dst => .drained <$> retargetAll src dst
  | .merge rule a b => .outcome <$> merge rule a b

/-- What a command checks on its way. -/
def findings (r : Registry σ) : Command σ → List Finding
  | .newSlot => []
  | .releaseSlot slot => r.releaseSlotFindings slot
  | .attach contents slots => r.attachFindings contents slots
  | .addReference id slot => r.addReferenceFindings id slot
  | .removeReference slot => r.removeReferenceFindings slot
  | .changeReference old new => r.changeReferenceFindings old new
  | .retargetAll src dst => r.retargetAllFindings src dst
  | .merge rule a b => r.mergeFindings rule a b

/-- The registry after a command, whether it succeeded or failed. -/
def after (r : Registry σ) (c : Command σ) : Registry σ :=
  match exec c r with
  | .ok _ r' => r'
  | .error _ r' => r'

/-- Carries a command out within a run, and notes what it checks. -/
def step (c : Command σ) (s : Session (Registry σ)) :
    Except FormatError (Reply σ) × Session (Registry σ) :=
  let log := s.log.record (s.state.findings c)
  match exec c s.state with
  | .ok reply r => (.ok reply, ⟨r, log⟩)
  | .error e r => (.error e, ⟨r, log⟩)

def run (r : Registry σ) (cs : List (Command σ)) : Registry σ := cs.foldl after r

end FormatNegotiation.Registry
