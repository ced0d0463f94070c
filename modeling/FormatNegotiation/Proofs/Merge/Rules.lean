import FormatNegotiation.Proofs.Merge.Layouts
import FormatNegotiation.Proofs.Merge.Values

/-! The rules by which a merge keeps exactly the values that both operands accept. -/
namespace FormatNegotiation

/-- Contents of a sort come down, under a rule, to the values that they accept: what is left of two
is of that sort again and accepts what both accept, and if that is nothing, they are refused. -/
def ExactRule {σ ν : Type} [Mergeable σ] (rule : Mergeable.Rule σ) (Plain : σ → Prop)
    (Accepts : σ → ν → Prop) : Prop :=
  ∀ x y, Plain x → Plain y →
    ((Mergeable.intersect rule x y).contents? x y = none ∧ ∀ v, ¬ (Accepts x v ∧ Accepts y v)) ∨
    ∃ z, (Mergeable.intersect rule x y).contents? x y = some z ∧ Plain z ∧
      (∃ v, Accepts z v) ∧ ∀ v, Accepts z v ↔ Accepts x v ∧ Accepts y v

/-- Video apart, formats are merged by their values. -/
theorem FormatList.formats_exact {media : Media} (hmedia : media ≠ .video) (catalog : Catalog) :
    ExactRule (ValueRule.formats media catalog) (fun _ => True)
      fun (formats : FormatList) v => v ∈ formats := by
  intro x y _ _
  have hrule : Mergeable.intersect (ValueRule.formats media catalog) x y = intersect x y :=
    intersectFormats_of_ne_video hmedia catalog x y
  rw [hrule]
  rcases intersect_cases x y with ⟨hi, hany⟩ | ⟨hany, out, hi, hout⟩
  · refine .inl ⟨Intersection.contents?_eq_none.mpr hi, fun v hv => ?_⟩
    rw [(any_contains_iff x y).mpr ⟨v, hv⟩] at hany
    cases hany
  · obtain ⟨v, hv⟩ := (any_contains_iff x y).mp hany
    exact .inr ⟨out, hi, trivial, ⟨v, (hout v).mpr hv⟩, hout⟩

/-- Rates are merged by their values, of which the empty list has all. -/
theorem FormatList.rates_exact : ExactRule ValueRule.rates (fun _ => True) AcceptsRate := by
  intro x y _ _
  have hrule : Mergeable.intersect ValueRule.rates x y = intersectRates x y := rfl
  rw [hrule]
  rcases intersectRates_cases x y with ⟨hi, hcompatible⟩ | ⟨hcompatible, out, hi, hout⟩
  · refine .inl ⟨Intersection.contents?_eq_none.mpr hi, fun v hv => ?_⟩
    rw [(ratesCompatible_iff x y).mpr ⟨v, hv⟩] at hcompatible
    cases hcompatible
  · obtain ⟨v, hv⟩ := (ratesCompatible_iff x y).mp hcompatible
    exact .inr ⟨out, hi, trivial, ⟨v, (hout v).mpr hv⟩, hout⟩

namespace LayoutSet

/-- A list with entries, or the wildcard for everything. The wildcard for known layouts makes a
merge drop bare counts that it could have narrowed, and an empty list is kept by the wildcard for
counts. -/
def Plain (s : LayoutSet) : Prop := s ≠ .allLayouts ∧ s ≠ .listed []

theorem exists_accepts_of_plain {s : LayoutSet} (h : s.Plain) : ∃ l, s.accepts l := by
  cases s with
  | listed entries =>
    have hne : entries ≠ [] := fun hnil => h.2 (congrArg listed hnil)
    obtain ⟨l, hl⟩ := List.exists_mem_of_ne_nil entries hne
    exact ⟨l, (accepts_listed entries l).mpr (.inl hl)⟩
  | allLayouts => exact absurd rfl h.1
  | allCounts => exact ⟨.stereo, rfl⟩

/-- Without the wildcard for known layouts, sets of layouts are merged by what they accept. -/
theorem layouts_exact : ExactRule (σ := LayoutSet) () Plain fun s l => s.accepts l := by
  intro x y hx hy
  have hkept : ∀ z : LayoutSet, z.Plain → (∀ l, z.accepts l ↔ x.accepts l ∧ y.accepts l) →
      (intersect x y).contents? x y = some z →
      ∃ z, (intersect x y).contents? x y = some z ∧ z.Plain ∧ (∃ l, z.accepts l) ∧
        ∀ l, z.accepts l ↔ x.accepts l ∧ y.accepts l :=
    fun z hz hacc hi => ⟨z, hi, hz, exists_accepts_of_plain hz, hacc⟩
  cases x with
  | allLayouts => exact absurd rfl hx.1
  | listed a =>
    cases y with
    | allLayouts => exact absurd rfl hy.1
    | listed b =>
      rcases intersectListed_cases a b with ⟨hnil, hi⟩ | ⟨hne, out, hi, hout⟩
      · refine .inl ⟨Intersection.contents?_eq_none.mpr hi, fun l hl => ?_⟩
        exact (meet_ne_nil_iff a b).mpr ⟨l, hl⟩ hnil
      · obtain ⟨l, hl⟩ := (meet_ne_nil_iff a b).mp hne
        have hplain : Plain (.listed out) := by
          refine ⟨by simp, fun hnil => ?_⟩
          have haccepts := (hout l).mpr hl
          rw [hnil] at haccepts
          cases haccepts
        exact .inr (hkept _ hplain hout hi)
    | allCounts => exact .inr (hkept (.listed a) hx (by simp [accepts]) rfl)
  | allCounts =>
    cases y with
    | allLayouts => exact absurd rfl hy.1
    | listed b => exact .inr (hkept (.listed b) hy (by simp [accepts]) rfl)
    | allCounts => exact .inr (hkept .allCounts hx (by simp [accepts]) rfl)

end LayoutSet

end FormatNegotiation
