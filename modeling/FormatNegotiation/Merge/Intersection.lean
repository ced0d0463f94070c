import FormatNegotiation.Law

/-! What it takes to merge sets of one sort: a test of compatibility, and the intersection. -/
namespace FormatNegotiation

/-- One of the two operands of a merge. -/
inductive Side where
  | first
  | second
deriving DecidableEq, Repr

/-- The intersection of two sets. -/
inductive Intersection (σ : Type) where
  /-- Nothing is accepted by both. -/
  | disjoint
  /-- This operand, as it stands. -/
  | keep (side : Side)
  /-- New contents. -/
  | replace (contents : σ)
deriving DecidableEq, Repr

/-- How a merge ends, if it does not fail. -/
inductive MergeOutcome where
  /-- Every reference to either set now leads to the survivor. -/
  | merged
  /-- The sets share nothing and are as before. -/
  | incompatible
deriving DecidableEq, Repr

def MergeOutcome.isMerged : MergeOutcome → Bool
  | .merged => true
  | .incompatible => false

/-- A sort of set that can be merged, by one rule or by several. -/
class Mergeable (σ : Type) where
  /-- The rules by which such sets are merged. -/
  Rule : Type
  compatible : Rule → σ → σ → Bool
  intersect : Rule → σ → σ → Intersection σ
  /-- What the computation of an intersection checks. -/
  intersectFindings : Rule → σ → σ → List Finding

end FormatNegotiation
