import FormatNegotiation.Merge.Intersection
import FormatNegotiation.Registry.References

/-! Merging two sets of a registry: all slots of both come to reference one survivor, which holds
the intersection. A merge that fails or is refused changes nothing. -/
namespace FormatNegotiation.Registry

variable {σ : Type}

/-- What a merge of two live sets comes down to. -/
inductive MergePlan (σ : Type) where
  /-- Both handles name the same set. -/
  | nothing
  | refuse
  /-- One set takes over the references of the other, and new contents if there are any. -/
  | join (survivor loser : SetId) (contents? : Option σ)
deriving DecidableEq, Repr

variable [Mergeable σ]

/-- Both sets must be live and referenced. An operand whose contents are the intersection survives;
if neither is, the one with more references does, and the first of two that have as many. -/
def planMerge (rule : Mergeable.Rule σ) (a b : SetId) (r : Registry σ) :
    Except FormatError (MergePlan σ) :=
  match r.find? a, r.find? b with
  | some x, some y =>
    if x.refs.isEmpty || y.refs.isEmpty then .error .unreferenced
    else if a = b then .ok .nothing
    else
      match Mergeable.intersect rule x.contents y.contents with
      | .disjoint => .ok .refuse
      | .keep .first => .ok (.join a b none)
      | .keep .second => .ok (.join b a none)
      | .replace contents =>
        if y.refs.length ≤ x.refs.length then .ok (.join a b (some contents))
        else .ok (.join b a (some contents))
  | _, _ => .error .unknownSet

/-- Gives a live set new contents, if there are any. -/
def replaceContents (r : Registry σ) (id : SetId) : Option σ → Registry σ
  | some contents => r.modifyEntry id fun e => { e with contents }
  | none => r

def merge (rule : Mergeable.Rule σ) (a b : SetId) : Action σ MergeOutcome := fun r =>
  match r.planMerge rule a b with
  | .error e => .error e r
  | .ok .nothing => .ok .merged r
  | .ok .refuse => .ok .incompatible r
  | .ok (.join survivor loser contents?) =>
    match retargetAll loser survivor r with
    | .error e r' => .error e r'
    | .ok _ r' => .ok .merged (r'.replaceContents survivor contents?)

/-- Whether two sets could be merged; none if either is not live. -/
def canMerge? (rule : Mergeable.Rule σ) (a b : SetId) (r : Registry σ) : Option Bool := do
  let x ← r.contents? a
  let y ← r.contents? b
  return Mergeable.compatible rule x y

/-- What the intersection of two live sets checks. -/
def intersectFindings (rule : Mergeable.Rule σ) (a b : SetId) (r : Registry σ) : List Finding :=
  match r.contents? a, r.contents? b with
  | some x, some y => Mergeable.intersectFindings rule x y
  | _, _ => []

/-- The intersection is checked, then that a refusal kept all references, or that the survivor got
them. -/
def mergeFindings (rule : Mergeable.Rule σ) (a b : SetId) (r : Registry σ) : List Finding :=
  match r.planMerge rule a b, merge rule a b r with
  | .ok .refuse, .ok _ r' =>
    r.intersectFindings rule a b ++
      [⟨.refusalKeepsReferences, r'.refcount a = r.refcount a && r'.refcount b = r.refcount b⟩]
  | .ok (.join survivor loser _), .ok _ r' =>
    r.intersectFindings rule a b ++ r.retargetAllFindings loser survivor ++
      [⟨.mergeRetargetsAll, r'.refcount survivor = r.refcount a + r.refcount b⟩]
  | _, _ => []

end FormatNegotiation.Registry
