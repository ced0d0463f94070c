import FormatNegotiation.Proofs.Merge.Narrowing

/-! Refusals that last. Contents that share nothing still share nothing after either of them has
been merged with something else. Video apart, and without the wildcard for known layouts, that is
all a refusal says. -/
namespace FormatNegotiation

/-- What the first rule refuses, it refuses again after either side has been merged under the second
rule, and the second rule refuses it too. -/
structure RefusalLasts {σ : Type} [Mergeable σ] (rule rule' : Mergeable.Rule σ) (Plain : σ → Prop) :
    Prop where
  plain {x y z : σ} : Plain x → Plain y →
    (Mergeable.intersect rule' x y).contents? x y = some z → Plain z
  symm {x y : σ} : Plain x → Plain y →
    Mergeable.intersect rule x y = .disjoint → Mergeable.intersect rule y x = .disjoint
  refused {x y : σ} : Plain x → Plain y →
    Mergeable.intersect rule x y = .disjoint → Mergeable.intersect rule' x y = .disjoint
  narrowed {x y z w : σ} : Plain x → Plain y → Plain w →
    (Mergeable.intersect rule' x y).contents? x y = some z →
    Mergeable.intersect rule x w = .disjoint ∨ Mergeable.intersect rule y w = .disjoint →
    Mergeable.intersect rule z w = .disjoint

namespace FormatList

theorem intersect_eq_disjoint_iff_forall (a b : FormatList) :
    intersect a b = .disjoint ↔ ∀ v, ¬ (v ∈ a ∧ v ∈ b) := by
  have hany := any_contains_iff a b
  rw [intersect_eq_disjoint_iff, ← Bool.not_eq_true, hany, not_exists]

theorem intersectRates_eq_disjoint_iff_forall (a b : FormatList) :
    intersectRates a b = .disjoint ↔ ∀ rate, ¬ (AcceptsRate a rate ∧ AcceptsRate b rate) := by
  have hcompatible := ratesCompatible_iff a b
  rw [intersectRates_eq_disjoint_iff, ← Bool.not_eq_true, hcompatible, not_exists]

/-- A rule for video may refuse more, but nothing less. -/
theorem intersectFormats_of_disjoint {a b : FormatList} (h : intersect a b = .disjoint)
    (media : Media) (catalog : Catalog) : intersectFormats media catalog a b = .disjoint := by
  unfold intersectFormats
  split
  · rfl
  · exact h

theorem formats_refusalLasts {media : Media} (hmedia : media ≠ .video) (media' : Media)
    (catalog catalog' : Catalog) :
    RefusalLasts (ValueRule.formats media catalog) (ValueRule.formats media' catalog')
      (fun _ : FormatList => True) := by
  have hrule : ∀ x y : FormatList, Mergeable.intersect (ValueRule.formats media catalog) x y =
      .disjoint ↔ ∀ v, ¬ (v ∈ x ∧ v ∈ y) := by
    intro x y
    have hplain := intersectFormats_of_ne_video hmedia catalog x y
    rw [← intersect_eq_disjoint_iff_forall, ← hplain]
    rfl
  refine ⟨fun _ _ _ => trivial, fun {x y} _ _ h => ?_, fun {x y} _ _ h => ?_,
    fun {x y z w} _ _ _ hz h => ?_⟩
  · rw [hrule] at h ⊢
    exact fun v hv => h v hv.symm
  · rw [hrule, ← intersect_eq_disjoint_iff_forall] at h
    exact intersectFormats_of_disjoint h media' catalog'
  · have hnarrow := (formats_narrowing media' catalog' x y z hz).1
    simp only [hrule] at h ⊢
    rintro v ⟨hvz, hvw⟩
    have hv := hnarrow v hvz
    exact h.elim (fun hx => hx v ⟨hv.1, hvw⟩) fun hy => hy v ⟨hv.2, hvw⟩

theorem rates_refusalLasts :
    RefusalLasts ValueRule.rates ValueRule.rates (fun _ : FormatList => True) := by
  have hrule : ∀ x y : FormatList, Mergeable.intersect ValueRule.rates x y = .disjoint ↔
      ∀ rate, ¬ (AcceptsRate x rate ∧ AcceptsRate y rate) := intersectRates_eq_disjoint_iff_forall
  refine ⟨fun _ _ _ => trivial, fun {x y} _ _ h => ?_, fun _ _ h => h,
    fun {x y z w} _ _ _ hz h => ?_⟩
  · rw [hrule] at h ⊢
    exact fun rate hrate => h rate hrate.symm
  · have hnarrow := (rates_narrowing x y z hz).1
    simp only [hrule] at h ⊢
    rintro rate ⟨hz, hw⟩
    have hboth := hnarrow rate hz
    exact h.elim (fun hx => hx rate ⟨hboth.1, hw⟩) fun hy => hy rate ⟨hboth.2, hw⟩

end FormatList

namespace LayoutSet

/-- Without the wildcard for known layouts a refusal says that both sets are lists, and that no
layout is accepted by both. An empty list accepts none, but is kept by the wildcard for counts. -/
theorem intersect_eq_disjoint_iff_forall {x y : LayoutSet} (hx : x ≠ .allLayouts)
    (hy : y ≠ .allLayouts) : intersect x y = .disjoint ↔
      (x.acceptsAllLayouts = false ∧ y.acceptsAllLayouts = false) ∧
        ∀ l, ¬ (x.accepts l ∧ y.accepts l) := by
  cases x with
  | allLayouts => exact absurd rfl hx
  | allCounts =>
    have hkept : intersect .allCounts y ≠ .disjoint := by cases y <;> simp [intersect]
    simp [hkept, acceptsAllLayouts]
  | listed a =>
    cases y with
    | allLayouts => exact absurd rfl hy
    | allCounts => simp [intersect, acceptsAllLayouts]
    | listed b =>
      have hcompatible := compatible_listed_iff a b
      have hmeet := meet_ne_nil_iff a b
      rw [intersect_eq_disjoint_iff, ← Bool.not_eq_true, hcompatible, hmeet, not_exists]
      simp [acceptsAllLayouts]

/-- What is left of a list and another set is a list. -/
theorem acceptsAllLayouts_of_intersect {x y z : LayoutSet} (hx : x ≠ .allLayouts)
    (hy : y ≠ .allLayouts) (hz : (intersect x y).contents? x y = some z) :
    z ≠ .allLayouts ∧ (x.acceptsAllLayouts = false ∨ y.acceptsAllLayouts = false →
      z.acceptsAllLayouts = false) := by
  cases x with
  | allLayouts => exact absurd rfl hx
  | allCounts =>
    cases y with
    | allLayouts => exact absurd rfl hy
    | allCounts =>
      obtain rfl : .allCounts = z := Option.some.inj hz
      exact ⟨hx, by simp [acceptsAllLayouts]⟩
    | listed b =>
      obtain rfl : .listed b = z := Option.some.inj hz
      exact ⟨hy, fun _ => rfl⟩
  | listed a =>
    cases y with
    | allLayouts => exact absurd rfl hy
    | allCounts =>
      obtain rfl : .listed a = z := Option.some.inj hz
      exact ⟨hx, fun _ => rfl⟩
    | listed b =>
      have hres : (intersectListed a b).contents? (.listed a) (.listed b) = some z := hz
      rcases intersectListed_cases a b with ⟨-, hi⟩ | ⟨-, out, hout, -⟩
      · rw [hi] at hres
        cases hres
      · obtain rfl : .listed out = z := Option.some.inj (hout.symm.trans hres)
        exact ⟨by simp, fun _ => rfl⟩

theorem layouts_refusalLasts :
    RefusalLasts (σ := LayoutSet) () () fun s => s ≠ .allLayouts := by
  have hrule : ∀ {x y : LayoutSet}, x ≠ .allLayouts → y ≠ .allLayouts →
      (Mergeable.intersect (σ := LayoutSet) () x y = .disjoint ↔
        (x.acceptsAllLayouts = false ∧ y.acceptsAllLayouts = false) ∧
          ∀ l, ¬ (x.accepts l ∧ y.accepts l)) := intersect_eq_disjoint_iff_forall
  refine ⟨fun hx hy hz => (acceptsAllLayouts_of_intersect hx hy hz).1, fun hx hy h => ?_,
    fun _ _ h => h, fun {x y z w} hx hy hw hz h => ?_⟩
  · rw [hrule hx hy] at h
    rw [hrule hy hx]
    exact ⟨h.1.symm, fun l hl => h.2 l hl.symm⟩
  · have hnarrow := (layouts_narrowing x y z hz).1
    obtain ⟨hplain, hlist⟩ := acceptsAllLayouts_of_intersect hx hy hz
    rw [hrule hx hw, hrule hy hw] at h
    rw [hrule hplain hw]
    rcases h with ⟨⟨hlx, hlw⟩, hnone⟩ | ⟨⟨hly, hlw⟩, hnone⟩
    · exact ⟨⟨hlist (.inl hlx), hlw⟩, fun l hl => hnone l ⟨(hnarrow l hl.1).1, hl.2⟩⟩
    · exact ⟨⟨hlist (.inr hly), hlw⟩, fun l hl => hnone l ⟨(hnarrow l hl.1).2, hl.2⟩⟩

end LayoutSet

end FormatNegotiation
