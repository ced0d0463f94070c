import FormatNegotiation.Proofs.Integrity
import FormatNegotiation.Proofs.Merge.Finality
import FormatNegotiation.Proofs.Merge.Formats
import FormatNegotiation.Proofs.Merge.Rates
import FormatNegotiation.Proofs.Registry.Narrowing

/-! The order of the two operands of a merge matters only to which set survives, and to the order in
which it lists its values. -/
namespace FormatNegotiation

/-- Under a rule either order of two operands is refused, or leaves what is the same up to this
relation. -/
structure Commutes {σ : Type} [Mergeable σ] (rule : Mergeable.Rule σ) (Same : σ → σ → Prop)
    (x y : σ) : Prop where
  refused_iff : Mergeable.intersect rule x y = .disjoint ↔ Mergeable.intersect rule y x = .disjoint
  same {z z' : σ} : (Mergeable.intersect rule x y).contents? x y = some z →
    (Mergeable.intersect rule y x).contents? y x = some z' → Same z z'

namespace FormatList

/-- Lists with the same values, in whatever order and however often. -/
def SameValues (x y : FormatList) : Prop := ∀ v, v ∈ x ↔ v ∈ y

/-! ## Formats -/

theorem Loses.symm {catalog : Catalog} {has : PixelDescriptor → Bool} {x y : FormatList}
    (h : Loses catalog has x y) : Loses catalog has y x :=
  ⟨h.2.1, h.1, fun f hy hx => h.2.2 f hx hy⟩

theorem Refused.symm {media : Media} {catalog : Catalog} {x y : FormatList}
    (h : Refused media catalog x y) : Refused media catalog y x := by
  rcases h with hnone | ⟨hmedia, hlost⟩
  · exact .inl fun v hy hx => hnone v hx hy
  · exact .inr ⟨hmedia, hlost.imp Loses.symm Loses.symm⟩

theorem formats_commutes (media : Media) (catalog : Catalog) (x y : FormatList) :
    Commutes (ValueRule.formats media catalog) SameValues x y where
  refused_iff := by
    have hrule : ∀ x y : FormatList, Mergeable.intersect (ValueRule.formats media catalog) x y =
        .disjoint ↔ Refused media catalog x y := fun x y =>
      (intersectFormats_eq_disjoint_iff media catalog x y).trans refused_iff.symm
    rw [hrule, hrule]
    exact ⟨Refused.symm, Refused.symm⟩
  same hz hz' v := by
    rw [(mem_of_intersectFormats hz).1 v, (mem_of_intersectFormats hz').1 v, and_comm]

/-! ## Sample rates -/

/-- A list that accepts any rate accepts more than every list that names some. -/
theorem rates_commutes (x y : FormatList) : Commutes ValueRule.rates SameValues x y where
  refused_iff := by
    have hrule : ∀ x y : FormatList, Mergeable.intersect ValueRule.rates x y = .disjoint ↔
      ∀ rate, ¬ (AcceptsRate x rate ∧ AcceptsRate y rate) := intersectRates_eq_disjoint_iff_forall
    rw [hrule, hrule]
    simp only [and_comm]
  same {z z'} hz hz' v := by
    obtain ⟨haccepts, -, -, hnil⟩ := contents?_intersectRates hz
    obtain ⟨haccepts', -, -, hnil'⟩ := contents?_intersectRates hz'
    have hboth : AcceptsRate z v ↔ AcceptsRate z' v := by
      rw [haccepts, haccepts', and_comm]
    have hany : z = [] ↔ z' = [] := by
      rw [hnil, hnil', and_comm]
    by_cases hz : z = []
    · rw [hz, hany.mp hz]
    · have hz' : z' ≠ [] := fun h => hz (hany.mpr h)
      simpa [AcceptsRate, hz, hz'] using hboth

theorem commutes (rule : ValueRule) (x y : FormatList) : Commutes rule SameValues x y := by
  cases rule with
  | formats media catalog => exact formats_commutes media catalog x y
  | rates => exact rates_commutes x y

end FormatList

namespace LayoutSet

open ChannelLayout

/-- The same wildcard, or lists with the same entries. -/
def SameValues : LayoutSet → LayoutSet → Prop
  | .listed a, .listed b => ∀ l, l ∈ a ↔ l ∈ b
  | x, y => x = y

theorem SameValues.refl (x : LayoutSet) : x.SameValues x := by
  cases x with
  | listed entries => exact fun _ => .rfl
  | allLayouts => rfl
  | allCounts => rfl

variable {a b : List ChannelLayout} {x y z : LayoutSet}

theorem mem_meet_comm (a b : List ChannelLayout) (l : ChannelLayout) :
    l ∈ meet a b ↔ l ∈ meet b a := by
  rw [mem_meet, mem_meet]
  exact or_congr and_comm or_comm

/-- An operand that is within what two lists have in common is all of it. Anything else there would
be a known layout whose bare count both lists have, beside the layout itself in one of them. -/
theorem mem_of_subset_meet (hb : Unambiguous b) (h : a ⊆ meet a b) (l : ChannelLayout) :
    l ∈ a ↔ l ∈ meet a b := by
  refine ⟨fun hl => h hl, fun hl => ?_⟩
  rcases (mem_meet a b l).mp hl with ⟨hla, -⟩ | ⟨-, hla, -⟩ | ⟨hk, hlb, hbare⟩
  · exact hla
  · exact hla
  · have hshared : l.bare ∈ b := ((bare_mem_meet a b l).mp (h hbare)).2
    exact absurd hshared (hb l hlb hk)

theorem subset_of_sameAs {out side : List ChannelLayout} (h : sameAs out side = true) :
    side ⊆ out := by
  intro l hl
  simp only [sameAs, Bool.and_eq_true, List.all_eq_true, List.contains_iff_mem] at h
  exact h.2 l hl

/-- Whether an operand of two that are not ambiguous is kept or new contents are made, the entries
are those that the lists have in common. -/
theorem mem_of_intersectListed (ha : Unambiguous a) (hb : Unambiguous b)
    (h : (intersectListed a b).contents? (.listed a) (.listed b) = some z) :
    ∃ out, z = .listed out ∧ ∀ l, l ∈ out ↔ l ∈ meet a b := by
  unfold intersectListed at h
  split_ifs at h with hnil hfirst hsecond
  · cases h
  · cases h
    exact ⟨a, rfl, mem_of_subset_meet hb (subset_of_sameAs hfirst)⟩
  · cases h
    have hsub : b ⊆ meet b a := fun l hl =>
      (mem_meet_comm a b l).mp (subset_of_sameAs hsecond hl)
    exact ⟨b, rfl, fun l => (mem_of_subset_meet ha hsub l).trans (mem_meet_comm b a l)⟩
  · cases h
    exact ⟨meet a b, rfl, fun _ => .rfl⟩

theorem compatible_comm (x y : LayoutSet) : compatible x y = true ↔ compatible y x = true := by
  cases x with
  | listed a =>
    cases y with
    | listed b =>
      rw [compatible_listed_iff, compatible_listed_iff, meet_ne_nil_iff, meet_ne_nil_iff]
      simp only [and_comm]
    | allLayouts => rfl
    | allCounts => rfl
  | allLayouts => cases y <;> rfl
  | allCounts => cases y <;> rfl

theorem commutes (hx : Unambiguous x.layouts) (hy : Unambiguous y.layouts) :
    Commutes (σ := LayoutSet) () SameValues x y where
  refused_iff := by
    have hrule : ∀ x y : LayoutSet, Mergeable.intersect (σ := LayoutSet) () x y = .disjoint ↔
        compatible x y = false := intersect_eq_disjoint_iff
    rw [hrule, hrule, ← Bool.not_eq_true, ← Bool.not_eq_true, compatible_comm]
  same {z z'} hz hz' := by
    have hinter : IsIntersection x y z := isIntersection_of_intersect hz
    have hinter' : IsIntersection y x z' := isIntersection_of_intersect hz'
    -- Beside a wildcard both orders leave the very same.
    have hsame : ∀ w, z = w → z' = w → SameValues z z' := by
      rintro w rfl rfl
      exact .refl z'
    have hkept : ∀ w, some w = some z → some w = some z' → SameValues z z' := fun w h h' =>
      hsame w (Option.some.inj h).symm (Option.some.inj h').symm
    cases x with
    | listed a =>
      cases y with
      | listed b =>
        obtain ⟨out, rfl, hout⟩ := mem_of_intersectListed hx hy hz
        obtain ⟨out', rfl, hout'⟩ := mem_of_intersectListed hy hx hz'
        intro l
        rw [hout, hout', mem_meet_comm]
      | allLayouts => exact hsame _ hinter hinter'
      | allCounts => exact hkept (.listed a) hz hz'
    | allLayouts =>
      cases y with
      | listed b => exact hsame _ hinter hinter'
      | allLayouts => exact hkept .allLayouts hz hz'
      | allCounts => exact hkept .allLayouts hz hz'
    | allCounts =>
      cases y with
      | listed b => exact hkept (.listed b) hz hz'
      | allLayouts => exact hkept .allLayouts hz hz'
      | allCounts => exact hkept .allCounts hz hz'

end LayoutSet

namespace Registry

variable {σ : Type} {Same : σ → σ → Prop} {r r' r'' : Registry σ} {a b : SetId} {x y z z' : σ}

/-- Two registries are the same up to the names of their sets: the same slots point at nothing, the
same ones share a set, and what is at a slot is the same up to this relation. -/
structure AlikeUpToNames (Same : σ → σ → Prop) (r r' : Registry σ) : Prop where
  held?_eq_none_iff (s : SlotId) : r.held? s = none ↔ r'.held? s = none
  shares_iff (s t : SlotId) : r.Shares s t ↔ r'.Shares s t
  contents_same (s : SlotId) : Option.Rel Same (r.heldContents? s) (r'.heldContents? s)

/-- How the slots see a merge of two sets: those that pointed at either share one set with these
contents, and the others are as they were. -/
structure Pools (r r' : Registry σ) (a b : SetId) (z : σ) : Prop where
  held?_eq_none_iff (s : SlotId) : r'.held? s = none ↔ r.held? s = none
  shares_iff (s t : SlotId) :
    r'.Shares s t ↔ r.Shares s t ∨ r.PointsAtEither a b s ∧ r.PointsAtEither a b t
  of_either {s : SlotId} : r.PointsAtEither a b s → r'.heldContents? s = some z
  of_neither {s : SlotId} : ¬ r.PointsAtEither a b s → r'.heldContents? s = r.heldContents? s

theorem Absorbs.pools {survivor loser : SetId} (h : r.Absorbs r' survivor loser z)
    (hne : survivor ≠ loser) : r.Pools r' survivor loser z where
  held?_eq_none_iff s := by
    rw [h.held?_eq]
    by_cases hs : r.held? s = some loser <;> simp [hs]
  shares_iff := h.shares_iff
  of_either {s} hs := (h.heldContents?_eq hne s).trans (if_pos hs)
  of_neither {s} hs := (h.heldContents?_eq hne s).trans (if_neg hs)

theorem Pools.symm (h : r.Pools r' a b z) : r.Pools r' b a z where
  held?_eq_none_iff := h.held?_eq_none_iff
  shares_iff s t := (h.shares_iff s t).trans (or_congr_right (and_congr or_comm or_comm))
  of_either hs := h.of_either hs.symm
  of_neither hs := h.of_neither fun hs' => hs hs'.symm

/-- It does not matter how a pool came about. -/
theorem Pools.alike (h : r.Pools r' a b z) (h' : r.Pools r'' a b z') (hsame : Same z z')
    (hrefl : ∀ w, Same w w) : AlikeUpToNames Same r' r'' where
  held?_eq_none_iff s := (h.held?_eq_none_iff s).trans (h'.held?_eq_none_iff s).symm
  shares_iff s t := (h.shares_iff s t).trans (h'.shares_iff s t).symm
  contents_same s := by
    by_cases hs : r.PointsAtEither a b s
    · rw [h.of_either hs, h'.of_either hs]
      exact .some hsame
    · rw [h.of_neither hs, h'.of_neither hs]
      cases r.heldContents? s with
      | none => exact .none
      | some w => exact .some (hrefl w)

variable [Mergeable σ] {rule : Mergeable.Rule σ}

/-- Both orders of a merge are refused, or both succeed and leave the same up to the names of the
sets. -/
def MergesAlike (Same : σ → σ → Prop) (rule : Mergeable.Rule σ) (a b : SetId) (r : Registry σ) :
    Prop :=
  (merge rule a b r = .ok .incompatible r ∧ merge rule b a r = .ok .incompatible r) ∨
  ∃ r' r'', merge rule a b r = .ok .merged r' ∧ merge rule b a r = .ok .merged r'' ∧
    AlikeUpToNames Same r' r''

theorem mergesAlike_of_commutes (h : r.WellFormed) (hne : a ≠ b) (hx : r.contents? a = some x)
    (hy : r.contents? b = some y) (hcommutes : Commutes rule Same x y) (hrefl : ∀ w, Same w w) :
    MergesAlike Same rule a b r := by
  have hrefused := hcommutes.refused_iff
  rw [← Intersection.contents?_eq_none (x := x) (y := y),
    ← Intersection.contents?_eq_none (x := y) (y := x)] at hrefused
  rcases merge_of_contents h rule hne hx hy with
    ⟨hnone, heq⟩ | ⟨r', survivor, loser, z, hz, heq, hside, hne', habsorbs⟩ <;>
  rcases merge_of_contents h rule hne.symm hy hx with
    ⟨hnone', heq'⟩ | ⟨r'', survivor', loser', z', hz', heq', hside', hne'', habsorbs'⟩
  · exact .inl ⟨heq, heq'⟩
  · cases (hrefused.mp hnone).symm.trans hz'
  · cases (hrefused.mpr hnone').symm.trans hz
  · have hpools : r.Pools r' a b z := by
      rcases hside with ⟨rfl, rfl⟩ | ⟨rfl, rfl⟩
      · exact habsorbs.pools hne'
      · exact (habsorbs.pools hne').symm
    have hpools' : r.Pools r'' a b z' := by
      rcases hside' with ⟨rfl, rfl⟩ | ⟨rfl, rfl⟩
      · exact (habsorbs'.pools hne'').symm
      · exact habsorbs'.pools hne''
    exact .inr ⟨r', r'', heq, heq', hpools.alike hpools' (hcommutes.same hz hz') hrefl⟩

/-- Two different live sets can be merged in either order. The answers are equal, and so is what is
left up to the names of the sets and the order in which they list their values. Lists of layouts
must not be ambiguous for that, but may repeat entries. -/
theorem merge_comm_up_to_names :
    (∀ (cs : List (Command FormatList)) (rule : ValueRule) (a b : SetId), a ≠ b →
      (run empty cs).isLive a → (run empty cs).isLive b →
      MergesAlike FormatList.SameValues rule a b (run empty cs)) ∧
    ∀ (cs : List (Command LayoutSet)) (a b : SetId) (x y : LayoutSet), a ≠ b →
      (run empty cs).contents? a = some x → (run empty cs).contents? b = some y →
      ChannelLayout.Unambiguous x.layouts → ChannelLayout.Unambiguous y.layouts →
      MergesAlike LayoutSet.SameValues () a b (run empty cs) := by
  constructor
  · intro cs rule a b hne ha hb
    obtain ⟨u, hu⟩ := isLive_iff.mp ha
    obtain ⟨v, hv⟩ := isLive_iff.mp hb
    exact mergesAlike_of_commutes (run_wellFormed cs) hne (contents?_of_find? hu)
      (contents?_of_find? hv) (FormatList.commutes rule _ _) fun _ _ => .rfl
  · intro cs a b x y hne hx hy hux huy
    exact mergesAlike_of_commutes (run_wellFormed cs) hne hx hy (LayoutSet.commutes hux huy)
      LayoutSet.SameValues.refl

/-- The sets have different numbers of references, and repeat values that they share. -/
theorem merge_comm_up_to_names_repeated :
    let formats : List (Command FormatList) :=
      [.newSlot, .newSlot, .newSlot, .attach [0, 2, 0, 99] [0], .attach [7, 0, 99, 99] [1, 2]]
    let layouts : List (Command LayoutSet) :=
      [.newSlot, .newSlot, .newSlot, .attach (.listed [.stereo, .stereo, .count 6]) [0],
        .attach (.listed [.count 2, .surroundSideLfe, .mono]) [1, 2]]
    MergesAlike FormatList.SameValues (ValueRule.formats .video .builtin) ⟨0, 0⟩ ⟨1, 0⟩
      (run empty formats) ∧
    MergesAlike LayoutSet.SameValues () ⟨0, 0⟩ ⟨1, 0⟩ (run empty layouts) := by
  intro formats layouts
  have hformats := merge_comm_up_to_names.1 formats (.formats .video .builtin) ⟨0, 0⟩ ⟨1, 0⟩
    (by decide) (by decide) (by decide)
  have hlayouts := merge_comm_up_to_names.2 layouts ⟨0, 0⟩ ⟨1, 0⟩
    (.listed [.stereo, .stereo, .count 6]) (.listed [.count 2, .surroundSideLfe, .mono])
    (by decide) (by decide) (by decide) (by decide) (by decide)
  exact ⟨hformats, hlayouts⟩

/-- The second list is ambiguous. Each order keeps its first operand, and they differ in stereo,
which both of them accept. -/
example :
    let a : List ChannelLayout := [.count 2, .mono, .mono]
    let b : List ChannelLayout := [.stereo, .count 2, .mono]
    LayoutSet.intersect (.listed a) (.listed b) = .keep .first ∧
      LayoutSet.intersect (.listed b) (.listed a) = .keep .first := by
  decide

end Registry

end FormatNegotiation
