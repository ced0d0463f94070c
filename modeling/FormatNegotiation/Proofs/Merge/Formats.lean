import FormatNegotiation.Proofs.Merge.Exactness
import FormatNegotiation.Proofs.Merge.Values

/-! What a merge of two sets of formats comes to: when it is refused, which set survives, and with
which values in which order. -/
namespace FormatNegotiation

/-- The catalog knows the format, as one that has the property. -/
def Catalog.Describes (catalog : Catalog) (has : PixelDescriptor → Bool) (f : FormatId) : Prop :=
  ∃ d, catalog.pixel? f = some d ∧ has d = true

namespace FormatList

/-- Some format of each list has the property, but none that is in both. -/
def Loses (catalog : Catalog) (has : PixelDescriptor → Bool) (a b : FormatList) : Prop :=
  (∃ f ∈ a, catalog.Describes has f) ∧ (∃ f ∈ b, catalog.Describes has f) ∧
    ∀ f ∈ a, f ∈ b → ¬ catalog.Describes has f

/-- The lists have no value in common, or they are for video and what they have in common lacks the
alpha or the chroma that each of them has. -/
def Refused (media : Media) (catalog : Catalog) (a b : FormatList) : Prop :=
  (∀ v ∈ a, v ∉ b) ∨
    media = .video ∧ (Loses catalog (·.hasAlpha) a b ∨ Loses catalog (·.hasChroma) a b)

variable (media : Media) (catalog : Catalog) (has : PixelDescriptor → Bool) (a b : FormatList)

/-! ## The test for what is lost -/

/-- The two formats of a pair are chosen independently. -/
theorem offersBoth_iff :
    offersBoth catalog has a b = true ↔
      (∃ f ∈ a, catalog.Describes has f) ∧ ∃ g ∈ b, catalog.Describes has g := by
  simp only [offersBoth, List.any_eq_true]
  constructor
  · intro ⟨f, hf, g, hg, hpair⟩
    cases hd : catalog.pixel? f with
    | none => simp [hd] at hpair
    | some d =>
      cases he : catalog.pixel? g with
      | none => simp [hd, he] at hpair
      | some e =>
        have hboth : has d = true ∧ has e = true := by simpa [hd, he] using hpair
        exact ⟨⟨f, hf, d, hd, hboth.1⟩, ⟨g, hg, e, he, hboth.2⟩⟩
  · intro ⟨⟨f, hf, d, hd, hhasd⟩, ⟨g, hg, e, he, hhase⟩⟩
    exact ⟨f, hf, g, hg, by simp [hd, he, hhasd, hhase]⟩

theorem shares_iff :
    shares catalog has a b = true ↔ ∃ f ∈ a, f ∈ b ∧ catalog.Describes has f := by
  have hdescribes : ∀ f, (catalog.pixel? f).any has = true ↔ catalog.Describes has f := by
    intro f
    rw [Option.any_eq_true]
    rfl
  simp only [shares, List.any_eq_true, Bool.and_eq_true, decide_eq_true_eq, hdescribes]
  constructor
  · intro ⟨f, hf, g, hg, heq, hd⟩
    exact ⟨f, hf, heq ▸ hg, hd⟩
  · intro ⟨f, hf, hg, hd⟩
    exact ⟨f, hf, f, hg, rfl, hd⟩

theorem loses_iff : loses catalog has a b = true ↔ Loses catalog has a b := by
  have hnone : shares catalog has a b = false ↔ ∀ f ∈ a, f ∈ b → ¬ catalog.Describes has f := by
    rw [← Bool.not_eq_true, shares_iff]
    simp
  rw [loses, Bool.and_eq_true, Bool.not_eq_true', offersBoth_iff, hnone, Loses, and_assoc]

theorem losesChromaOrAlpha_iff :
    losesChromaOrAlpha catalog a b = true ↔
      Loses catalog (·.hasAlpha) a b ∨ Loses catalog (·.hasChroma) a b := by
  rw [losesChromaOrAlpha, Bool.or_eq_true, loses_iff, loses_iff]

variable {media catalog a b}

theorem refused_iff :
    Refused media catalog a b ↔ formatsCompatible media catalog a b = false := by
  have hnone : a.any (b.contains ·) = false ↔ ∀ v ∈ a, v ∉ b := by simp
  rw [formatsCompatible, Bool.and_eq_false_iff, Bool.not_eq_false', Bool.and_eq_true,
    decide_eq_true_eq, losesChromaOrAlpha_iff, hnone, Refused, or_comm]

instance : Decidable (Refused media catalog a b) := decidable_of_iff _ refused_iff.symm

theorem intersectFormats_of_refused (h : Refused media catalog a b) :
    intersectFormats media catalog a b = .disjoint :=
  (intersectFormats_eq_disjoint_iff media catalog a b).mpr (refused_iff.mp h)

/-- Formats that are not refused are merged by their values. -/
theorem intersectFormats_of_not_refused (h : ¬ Refused media catalog a b) :
    intersectFormats media catalog a b = intersect a b := by
  unfold intersectFormats
  split
  · rename_i hlost
    rw [Bool.and_eq_true, decide_eq_true_eq, losesChromaOrAlpha_iff] at hlost
    exact absurd (.inr hlost) h
  · rfl

end FormatList

namespace Registry

/-- Which of two sets with values in common survives, which does not, and what is left. -/
inductive FormatsJoin (r : Registry FormatList) (a b : SetId) (x y : FormatList) :
    SetId → SetId → FormatList → Prop
  /-- The first set lies within the second and stays as it is. -/
  | first (h : x ⊆ y) : FormatsJoin r a b x y a b x
  /-- So does the second, if the first does not. -/
  | second (hnot : ¬ x ⊆ y) (h : y ⊆ x) : FormatsJoin r a b x y b a y
  /-- Otherwise the values are those of the first that are in the second, in the order of the first
  and as often as there, whichever of the two survives. It is the first if the second does not have
  more references. -/
  | firstBusier (hx : ¬ x ⊆ y) (hy : ¬ y ⊆ x) (hrefs : r.refcount b ≤ r.refcount a) :
    FormatsJoin r a b x y a b (x.filter (y.contains ·))
  | secondBusier (hx : ¬ x ⊆ y) (hy : ¬ y ⊆ x) (hrefs : r.refcount a < r.refcount b) :
    FormatsJoin r a b x y b a (x.filter (y.contains ·))

variable {r : Registry FormatList} {a b survivor loser : SetId} {x y z : FormatList}

theorem FormatsJoin.ne (h : FormatsJoin r a b x y survivor loser z) (hne : a ≠ b) :
    survivor ≠ loser := by
  cases h with
  | first => exact hne
  | second => exact hne.symm
  | firstBusier => exact hne
  | secondBusier => exact hne.symm

theorem FormatsJoin.mem_iff (h : FormatsJoin r a b x y survivor loser z) (v : FormatId) :
    v ∈ z ↔ v ∈ x ∧ v ∈ y := by
  cases h with
  | first h => exact ⟨fun hv => ⟨hv, h hv⟩, And.left⟩
  | second _ h => exact ⟨fun hv => ⟨h hv, hv⟩, And.right⟩
  | firstBusier => exact FormatList.mem_common
  | secondBusier => exact FormatList.mem_common

variable {media : Media} {catalog : Catalog}

theorem merge_of_refused (h : r.WellFormed) (hne : a ≠ b) (hx : r.contents? a = some x)
    (hy : r.contents? b = some y) (hrefused : FormatList.Refused media catalog x y) :
    merge (ValueRule.formats media catalog) a b r = .ok .incompatible r := by
  obtain ⟨u, hu, rfl⟩ := contents?_eq_some.mp hx
  obtain ⟨v, hv, rfl⟩ := contents?_eq_some.mp hy
  have hrule : Mergeable.intersect (ValueRule.formats media catalog) u.contents v.contents =
      .disjoint :=
    FormatList.intersectFormats_of_refused hrefused
  have hplan := planMerge_of_live h.linked (ValueRule.formats media catalog) hne hu hv
  rw [hrule] at hplan
  exact merge_of_refuse hplan

theorem exists_formatsJoin (h : r.WellFormed) (hne : a ≠ b) (hx : r.contents? a = some x)
    (hy : r.contents? b = some y) (hkept : ¬ FormatList.Refused media catalog x y) :
    ∃ r' survivor loser z, merge (ValueRule.formats media catalog) a b r = .ok .merged r' ∧
      r.Absorbs r' survivor loser z ∧ FormatsJoin r a b x y survivor loser z := by
  obtain ⟨u, hu, rfl⟩ := contents?_eq_some.mp hx
  obtain ⟨v, hv, rfl⟩ := contents?_eq_some.mp hy
  have hrule : Mergeable.intersect (ValueRule.formats media catalog) u.contents v.contents =
      FormatList.intersect u.contents v.contents :=
    FormatList.intersectFormats_of_not_refused hkept
  have hplan := planMerge_of_live h.linked (ValueRule.formats media catalog) hne hu hv
  have hmeets := FormatList.meets_intersect u.contents v.contents
  rw [hrule] at hplan
  generalize FormatList.intersect u.contents v.contents = i at hplan hmeets
  cases hmeets with
  | disjoint hnone => exact absurd (.inl hnone) hkept
  | first _ hsub =>
    obtain ⟨r', heq, habsorbs⟩ := exists_absorbs_of_join h hplan hne hu hv
    exact ⟨r', a, b, _, heq, habsorbs, .first hsub⟩
  | second _ hnot hsub =>
    obtain ⟨r', heq, habsorbs⟩ := exists_absorbs_of_join h hplan hne.symm hv hu
    exact ⟨r', b, a, _, heq, habsorbs, .second hnot hsub⟩
  | neither _ hnot hnot' =>
    have hrefs : r.refcount a = u.refs.length ∧ r.refcount b = v.refs.length := by
      rw [refcount, refcount, refs_of_find? hu, refs_of_find? hv]
      exact ⟨rfl, rfl⟩
    by_cases hle : v.refs.length ≤ u.refs.length
    · simp only [hle, if_true] at hplan
      obtain ⟨r', heq, habsorbs⟩ := exists_absorbs_of_join h hplan hne hu hv
      exact ⟨r', a, b, _, heq, habsorbs, .firstBusier hnot hnot' (by omega)⟩
    · simp only [hle, if_false] at hplan
      obtain ⟨r', heq, habsorbs⟩ := exists_absorbs_of_join h hplan hne.symm hv hu
      exact ⟨r', b, a, _, heq, habsorbs, .secondBusier hnot hnot' (by omega)⟩

/-- Two different live sets of formats are refused if they share no value, or, for video, if what
they share has no alpha or no chroma while each of them has it. Otherwise one of them is left, with
the values of both. -/
theorem merge_formats_exact (cs : List (Command FormatList)) (a b : SetId) (x y : FormatList)
    (media : Media) (catalog : Catalog) (hne : a ≠ b)
    (hx : (run empty cs).contents? a = some x) (hy : (run empty cs).contents? b = some y) :
    let r := run empty cs
    let rule := ValueRule.formats media catalog
    (merge rule a b r = .ok .incompatible r ↔ FormatList.Refused media catalog x y) ∧
    (¬ FormatList.Refused media catalog x y →
      ∃ r' survivor loser z, merge rule a b r = .ok .merged r' ∧
        r'.contents? survivor = some z ∧ r'.contents? loser = none ∧
        (∀ v, v ∈ z ↔ v ∈ x ∧ v ∈ y) ∧ FormatsJoin r a b x y survivor loser z) := by
  intro r rule
  have h : r.WellFormed := run_wellFormed cs
  have hmerged : ¬ FormatList.Refused media catalog x y →
      ∃ r' survivor loser z, merge rule a b r = .ok .merged r' ∧
        r.Absorbs r' survivor loser z ∧ FormatsJoin r a b x y survivor loser z :=
    exists_formatsJoin h hne hx hy
  constructor
  · constructor
    · intro hincompatible
      by_contra hkept
      obtain ⟨r', _, _, _, heq, -⟩ := hmerged hkept
      cases hincompatible.symm.trans heq
    · exact merge_of_refused h hne hx hy
  · intro hkept
    obtain ⟨r', survivor, loser, z, heq, habsorbs, hjoin⟩ := hmerged hkept
    exact ⟨r', survivor, loser, z, heq, habsorbs.contents?_survivor (hjoin.ne hne),
      habsorbs.contents?_loser, hjoin.mem_iff, hjoin⟩

/-- The first set has a format twice and one that no catalog knows, the second has more references,
and alpha is not lost. -/
theorem merge_formats_exact_second_busier :
    let cs : List (Command FormatList) :=
      [.newSlot, .newSlot, .newSlot, .attach [0, 2, 0, 99, 16] [0], .attach [16, 0, 99, 7] [1, 2]]
    (run empty cs).contents? ⟨0, 0⟩ = some [0, 2, 0, 99, 16] ∧
      (run empty cs).contents? ⟨1, 0⟩ = some [16, 0, 99, 7] ∧
      ∃ r', merge (ValueRule.formats .video .builtin) ⟨0, 0⟩ ⟨1, 0⟩ (run empty cs) =
        .ok .merged r' ∧ r'.contents? ⟨1, 0⟩ = some [0, 0, 99, 16] := by
  intro cs
  have hx : (run empty cs).contents? ⟨0, 0⟩ = some [0, 2, 0, 99, 16] := by decide
  have hy : (run empty cs).contents? ⟨1, 0⟩ = some [16, 0, 99, 7] := by decide
  obtain ⟨-, hmerged⟩ :=
    merge_formats_exact cs ⟨0, 0⟩ ⟨1, 0⟩ _ _ .video .builtin (by decide) hx hy
  have hkept : ¬ FormatList.Refused .video .builtin [0, 2, 0, 99, 16] [16, 0, 99, 7] := by decide
  obtain ⟨r', survivor, loser, z, heq, hz, -, -, hjoin⟩ := hmerged hkept
  refine ⟨hx, hy, r', heq, ?_⟩
  cases hjoin with
  | first h => exact absurd h (by decide)
  | second _ h => exact absurd h (by decide)
  | firstBusier _ _ hrefs => exact absurd hrefs (by decide)
  | secondBusier => exact hz

end Registry

end FormatNegotiation
