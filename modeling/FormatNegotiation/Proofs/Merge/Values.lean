import FormatNegotiation.Proofs.Merge.Intersection
import FormatNegotiation.Merge.Values

/-! The intersection of two lists of formats has the values of both, and that of two lists of rates
accepts the rates that both accept. -/
namespace FormatNegotiation

namespace FormatList

theorem commonCount_eq_zero_iff (a b : FormatList) : commonCount a b = 0 ↔ ∀ v ∈ a, v ∉ b := by
  simp [commonCount, List.countP_eq_zero]

theorem commonCount_eq_length_iff (a b : FormatList) : commonCount a b = a.length ↔ a ⊆ b := by
  simp [commonCount, List.countP_eq_length, List.subset_def]

theorem any_contains_iff (a b : FormatList) :
    a.any (b.contains ·) = true ↔ ∃ v, v ∈ a ∧ v ∈ b := by
  simp

theorem all_contains_iff (a b : FormatList) : a.all (b.contains ·) = true ↔ a ⊆ b := by
  simp [List.subset_def]

/-- How two lists lie to each other, and their intersection then. -/
inductive Meets (a b : FormatList) : Intersection FormatList → Prop
  | disjoint (h : ∀ v ∈ a, v ∉ b) : Meets a b .disjoint
  | first (hmeet : ∃ v, v ∈ a ∧ v ∈ b) (h : a ⊆ b) : Meets a b (.keep .first)
  | second (hmeet : ∃ v, v ∈ a ∧ v ∈ b) (hnot : ¬ a ⊆ b) (h : b ⊆ a) : Meets a b (.keep .second)
  | neither (hmeet : ∃ v, v ∈ a ∧ v ∈ b) (ha : ¬ a ⊆ b) (hb : ¬ b ⊆ a) :
    Meets a b (.replace (common a b))

theorem meets_intersect (a b : FormatList) : Meets a b (intersect a b) := by
  unfold intersect
  by_cases hzero : commonCount a b = 0
  · rw [if_pos hzero]
    exact .disjoint ((commonCount_eq_zero_iff a b).mp hzero)
  have hmeet : ∃ v, v ∈ a ∧ v ∈ b := by
    simpa [commonCount_eq_zero_iff] using hzero
  rw [if_neg hzero]
  by_cases hfirst : commonCount a b = a.length
  · rw [if_pos hfirst]
    exact .first hmeet ((commonCount_eq_length_iff a b).mp hfirst)
  have ha : ¬ a ⊆ b := by rwa [← commonCount_eq_length_iff]
  rw [if_neg hfirst]
  by_cases hsecond : b.all (a.contains ·) = true
  · rw [if_pos hsecond]
    exact .second hmeet ha ((all_contains_iff b a).mp hsecond)
  · rw [if_neg hsecond]
    have hb : ¬ b ⊆ a := by rwa [← all_contains_iff]
    exact .neither hmeet ha hb

theorem mem_common {a b : FormatList} {v : FormatId} : v ∈ common a b ↔ v ∈ a ∧ v ∈ b := by
  simp [common]

/-- Whether an operand is kept or new contents are made, the result has the values of both lists. -/
theorem intersect_cases (a b : FormatList) :
    (intersect a b = .disjoint ∧ a.any (b.contains ·) = false) ∨
    a.any (b.contains ·) = true ∧ ∃ out, (intersect a b).contents? a b = some out ∧
      ∀ v, v ∈ out ↔ v ∈ a ∧ v ∈ b := by
  rw [any_contains_iff]
  have hmeets := meets_intersect a b
  generalize intersect a b = i at hmeets
  cases hmeets with
  | disjoint h => exact .inl ⟨rfl, by simpa using h⟩
  | first hmeet h => exact .inr ⟨hmeet, a, rfl, fun v => ⟨fun hv => ⟨hv, h hv⟩, And.left⟩⟩
  | second hmeet _ h => exact .inr ⟨hmeet, b, rfl, fun v => ⟨fun hv => ⟨h hv, hv⟩, And.right⟩⟩
  | neither hmeet => exact .inr ⟨hmeet, common a b, rfl, fun v => mem_common⟩

theorem intersect_eq_disjoint_iff (a b : FormatList) :
    intersect a b = .disjoint ↔ a.any (b.contains ·) = false := by
  rcases intersect_cases a b with ⟨hi, hany⟩ | ⟨hany, out, hi, -⟩
  · simp only [hi, hany]
  · rw [← Intersection.contents?_eq_none (x := a) (y := b), hi, hany]
    simp

/-! ## Formats -/

theorem intersectFormats_eq_disjoint_iff (media : Media) (catalog : Catalog) (a b : FormatList) :
    intersectFormats media catalog a b = .disjoint ↔
      formatsCompatible media catalog a b = false := by
  unfold intersectFormats formatsCompatible
  split
  · rename_i h
    simp [h]
  · rename_i h
    rw [intersect_eq_disjoint_iff, Bool.eq_false_iff.mpr h]
    simp

/-- Only video looks beyond the values. -/
theorem intersectFormats_of_ne_video {media : Media} (h : media ≠ .video) (catalog : Catalog)
    (a b : FormatList) : intersectFormats media catalog a b = intersect a b := by
  simp [intersectFormats, h]

/-! ## Sample rates -/

/-- A list of rates accepts what it lists, and any rate if it lists none. -/
def AcceptsRate (rates : FormatList) (rate : FormatId) : Prop := rates = [] ∨ rate ∈ rates

theorem intersectRates_eq_disjoint_iff (a b : FormatList) :
    intersectRates a b = .disjoint ↔ ratesCompatible a b = false := by
  unfold intersectRates ratesCompatible
  cases a with
  | nil => simp
  | cons x a =>
    cases b with
    | nil => simp
    | cons y b =>
      simp only [List.isEmpty_cons, Bool.false_eq_true, if_false, intersect_eq_disjoint_iff,
        Bool.false_or]

theorem ratesCompatible_iff (a b : FormatList) :
    ratesCompatible a b = true ↔ ∃ rate, AcceptsRate a rate ∧ AcceptsRate b rate := by
  unfold ratesCompatible AcceptsRate
  cases a with
  | nil =>
    cases b with
    | nil => simp
    | cons y b => exact iff_of_true rfl ⟨y, .inl rfl, .inr (by simp)⟩
  | cons x a =>
    cases b with
    | nil => exact iff_of_true rfl ⟨x, .inr (by simp), .inl rfl⟩
    | cons y b =>
      simp only [List.isEmpty_cons, Bool.false_or, any_contains_iff, reduceCtorEq, false_or]

theorem intersectRates_cases (a b : FormatList) :
    (intersectRates a b = .disjoint ∧ ratesCompatible a b = false) ∨
    ratesCompatible a b = true ∧ ∃ out, (intersectRates a b).contents? a b = some out ∧
      ∀ rate, AcceptsRate out rate ↔ AcceptsRate a rate ∧ AcceptsRate b rate := by
  unfold intersectRates ratesCompatible
  cases a with
  | nil => exact .inr ⟨rfl, b, rfl, by simp [AcceptsRate]⟩
  | cons x a =>
    cases b with
    | nil => exact .inr ⟨rfl, x :: a, rfl, by simp [AcceptsRate]⟩
    | cons y b =>
      simp only [List.isEmpty_cons, Bool.false_eq_true, if_false, Bool.false_or]
      rcases intersect_cases (x :: a) (y :: b) with ⟨hi, hany⟩ | ⟨hany, out, hi, hout⟩
      · exact .inl ⟨hi, hany⟩
      · refine .inr ⟨hany, out, hi, fun rate => ?_⟩
        obtain ⟨v, hv⟩ := (any_contains_iff _ _).mp hany
        have hne : out ≠ [] := List.ne_nil_of_mem ((hout v).mpr hv)
        simp [AcceptsRate, hne, hout]

end FormatList

instance : LawfulMergeable FormatList where
  intersect_eq_disjoint_iff rule x y := by
    cases rule with
    | formats media catalog => exact FormatList.intersectFormats_eq_disjoint_iff media catalog x y
    | rates => exact FormatList.intersectRates_eq_disjoint_iff x y

end FormatNegotiation
