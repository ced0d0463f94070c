import FormatNegotiation.Merge.Intersection

/-! What a merge of two sets has to be: a test of compatibility that agrees with the intersection.
-/
namespace FormatNegotiation

variable {σ : Type}

/-- The contents that the survivor of a merge has in the end; none if the operands share nothing. -/
def Intersection.contents? (i : Intersection σ) (x y : σ) : Option σ :=
  match i with
  | .disjoint => none
  | .keep .first => some x
  | .keep .second => some y
  | .replace contents => some contents

theorem Intersection.contents?_eq_none {i : Intersection σ} {x y : σ} :
    i.contents? x y = none ↔ i = .disjoint := by
  rcases i with _ | (_ | _) | _ <;> simp [contents?]

/-- The test of compatibility and the intersection agree on what cannot be merged. -/
class LawfulMergeable (σ : Type) [Mergeable σ] : Prop where
  intersect_eq_disjoint_iff (rule : Mergeable.Rule σ) (x y : σ) :
    Mergeable.intersect rule x y = .disjoint ↔ Mergeable.compatible rule x y = false

end FormatNegotiation
