import FormatNegotiation.Proofs.Merge.Layouts
import FormatNegotiation.Proofs.Merge.Values

/-! A merge only narrows: what is left of two sets accepts nothing that either of them did not, and
if one of them lists something, so does the result. -/
namespace FormatNegotiation

/-- What is left of two contents under a rule accepts no more than each of them, and has entries if
one of them has. An empty list may accept everything, so that a list must not become empty. -/
def NarrowingRule {σ ν : Type} [Mergeable σ] (rule : Mergeable.Rule σ) (Accepts : σ → ν → Prop)
    (Lists : σ → Prop) : Prop :=
  ∀ x y z, (Mergeable.intersect rule x y).contents? x y = some z →
    (∀ v, Accepts z v → Accepts x v ∧ Accepts y v) ∧ (Lists x ∨ Lists y → Lists z)

namespace FormatList

theorem mem_of_intersect {a b out : FormatList} (h : (intersect a b).contents? a b = some out) :
    (∀ v, v ∈ out ↔ v ∈ a ∧ v ∈ b) ∧ out ≠ [] := by
  rcases intersect_cases a b with ⟨hi, -⟩ | ⟨hany, out', hout', hmem⟩
  · rw [hi] at h
    cases h
  · obtain rfl : out' = out := Option.some.inj (hout'.symm.trans h)
    obtain ⟨v, hv⟩ := (any_contains_iff a b).mp hany
    exact ⟨hmem, List.ne_nil_of_mem ((hmem v).mpr hv)⟩

theorem mem_of_intersectFormats {media : Media} {catalog : Catalog} {x y z : FormatList}
    (h : (intersectFormats media catalog x y).contents? x y = some z) :
    (∀ v, v ∈ z ↔ v ∈ x ∧ v ∈ y) ∧ z ≠ [] := by
  unfold intersectFormats at h
  split at h
  · cases h
  · exact mem_of_intersect h

theorem formats_narrowing (media : Media) (catalog : Catalog) :
    NarrowingRule (ValueRule.formats media catalog)
      (fun (formats : FormatList) v => v ∈ formats) (fun formats => formats ≠ []) := by
  intro x y z hz
  obtain ⟨hmem, hne⟩ := mem_of_intersectFormats hz
  exact ⟨fun v => (hmem v).mp, fun _ => hne⟩

theorem rates_narrowing :
    NarrowingRule ValueRule.rates AcceptsRate (fun rates => rates ≠ []) := by
  intro x y z hz
  have hres : (intersectRates x y).contents? x y = some z := hz
  cases x with
  | nil =>
    obtain rfl : y = z := Option.some.inj hres
    exact ⟨fun v hv => ⟨.inl rfl, hv⟩, fun hlists => hlists.resolve_left (· rfl)⟩
  | cons v a =>
    cases y with
    | nil =>
      obtain rfl : v :: a = z := Option.some.inj hres
      exact ⟨fun v hv => ⟨hv, .inl rfl⟩, fun hlists => hlists.resolve_right (· rfl)⟩
    | cons w b =>
      have hboth : (intersect (v :: a) (w :: b)).contents? (v :: a) (w :: b) = some z := hres
      obtain ⟨hmem, hne⟩ := mem_of_intersect hboth
      refine ⟨fun u hu => ?_, fun _ => hne⟩
      have hu : u ∈ v :: a ∧ u ∈ w :: b := (hmem u).mp (hu.resolve_left hne)
      exact ⟨.inr hu.1, .inr hu.2⟩

end FormatList

namespace LayoutSet

/-- The bare count of a layout is not among the known entries. -/
theorem accepts_known {entries : List ChannelLayout} {l : ChannelLayout}
    (h : (listed (entries.filter (·.isKnown))).accepts l) :
    l.isKnown ∧ (listed entries).accepts l := by
  have hmono := accepts_listed_mono (List.filter_sublist.subset) h
  rw [accepts_listed] at h
  rcases h with hl | ⟨hk, -⟩
  · exact ⟨(List.mem_filter.mp hl).2, hmono⟩
  · exact ⟨hk, hmono⟩

theorem IsIntersection.accepts {x y z : LayoutSet} (h : IsIntersection x y z) {l : ChannelLayout}
    (hl : z.accepts l) : x.accepts l ∧ y.accepts l := by
  have hkept : (∀ l, z.accepts l ↔ x.accepts l ∧ y.accepts l) → x.accepts l ∧ y.accepts l :=
    fun hiff => (hiff l).mp hl
  cases x with
  | listed a =>
    cases y with
    | allLayouts =>
      obtain rfl : z = .listed (a.filter (·.isKnown)) := h
      exact (accepts_known hl).symm
    | listed b => exact hkept h
    | allCounts => exact hkept h
  | allLayouts =>
    cases y with
    | listed b =>
      obtain rfl : z = .listed (b.filter (·.isKnown)) := h
      exact accepts_known hl
    | allLayouts => exact hkept h
    | allCounts => exact hkept h
  | allCounts => exact hkept h

theorem ne_nil_of_intersectListed {a b : List ChannelLayout} {z : LayoutSet}
    (h : (intersectListed a b).contents? (.listed a) (.listed b) = some z) : z.layouts ≠ [] := by
  rcases intersectListed_cases a b with ⟨-, hi⟩ | ⟨hmeet, out, hout, haccepts⟩
  · rw [hi] at h
    cases h
  · obtain rfl : .listed out = z := Option.some.inj (hout.symm.trans h)
    obtain ⟨l, hl⟩ := (meet_ne_nil_iff a b).mp hmeet
    rintro (rfl : out = [])
    have hnone : (listed []).accepts l := (haccepts l).mpr hl
    cases hnone

theorem ne_nil_of_intersectKnown {side : Side} {entries : List ChannelLayout} {x y z : LayoutSet}
    (h : (intersectKnown side entries).contents? x y = some z)
    (hz : z = .listed (entries.filter (·.isKnown))) : z.layouts ≠ [] := by
  rw [hz]
  intro hnil
  have hnone : ∀ l ∈ entries, l.isKnown = false := by
    simpa only [layouts, List.filter_eq_nil_iff, Bool.not_eq_true] using hnil
  rw [(intersectKnown_eq_disjoint_iff side entries).mpr hnone] at h
  cases h

theorem ne_nil_of_intersect {x y z : LayoutSet} (h : (intersect x y).contents? x y = some z)
    (hinter : IsIntersection x y z) (hlists : x.layouts ≠ [] ∨ y.layouts ≠ []) :
    z.layouts ≠ [] := by
  cases x with
  | listed a =>
    cases y with
    | listed b => exact ne_nil_of_intersectListed h
    | allLayouts => exact ne_nil_of_intersectKnown h hinter
    | allCounts =>
      obtain rfl : .listed a = z := Option.some.inj h
      exact hlists.resolve_right (· rfl)
  | allLayouts =>
    cases y with
    | listed b => exact ne_nil_of_intersectKnown h hinter
    | allLayouts => exact absurd hlists (by simp [layouts])
    | allCounts => exact absurd hlists (by simp [layouts])
  | allCounts =>
    cases y with
    | listed b =>
      obtain rfl : .listed b = z := Option.some.inj h
      exact hlists.resolve_left (· rfl)
    | allLayouts => exact absurd hlists (by simp [layouts])
    | allCounts => exact absurd hlists (by simp [layouts])

theorem isIntersection_of_intersect {x y z : LayoutSet}
    (h : (intersect x y).contents? x y = some z) :
    IsIntersection x y z := by
  rcases intersect_exact x y with ⟨hnone, -⟩ | ⟨z', hsome, hinter⟩
  · cases hnone.symm.trans h
  · obtain rfl : z' = z := Option.some.inj (hsome.symm.trans h)
    exact hinter

theorem layouts_narrowing :
    NarrowingRule (σ := LayoutSet) () (fun s l => s.accepts l) (fun s => s.layouts ≠ []) := by
  intro x y z hz
  have hres : (intersect x y).contents? x y = some z := hz
  have hinter : IsIntersection x y z := isIntersection_of_intersect hres
  exact ⟨fun l hl => hinter.accepts hl, ne_nil_of_intersect hres hinter⟩

end LayoutSet

end FormatNegotiation
