import FormatNegotiation.Proofs.Merge.Layouts

/-! The test whether two sets of layouts are compatible, against the layouts that they accept. -/
namespace FormatNegotiation.LayoutSet

/-- Some layout is accepted by both sets. Beside the wildcard for known layouts a list has a known
entry, since bare counts are dropped there. -/
def SharesSome (x y : LayoutSet) : Prop :=
  match x, y with
  | .allLayouts, .listed entries | .listed entries, .allLayouts => ∃ l ∈ entries, l.isKnown = true
  | _, _ => ∃ l, x.accepts l = true ∧ y.accepts l = true

/-- One set is the wildcard for counts, and the other is a list without entries. -/
def EmptyBesideAllCounts (x y : LayoutSet) : Prop :=
  x = .allCounts ∧ y = .listed [] ∨ x = .listed [] ∧ y = .allCounts

/-- Every list accepts some layout, the empty one aside. -/
theorem exists_accepts_listed_iff (entries : List ChannelLayout) :
    (∃ l, (listed entries).accepts l = true) ↔ entries ≠ [] := by
  constructor
  · intro ⟨l, hl⟩ hnil
    rw [hnil] at hl
    cases hl
  · intro hne
    obtain ⟨l, hl⟩ := List.exists_mem_of_ne_nil entries hne
    exact ⟨l, (accepts_listed entries l).mpr (.inl hl)⟩

theorem compatible_listed_iff_exists (a b : List ChannelLayout) :
    compatible (.listed a) (.listed b) = true ↔
      ∃ l, (listed a).accepts l = true ∧ (listed b).accepts l = true :=
  (compatible_listed_iff a b).trans (meet_ne_nil_iff a b)

theorem allCounts_sharesSome_listed_iff (entries : List ChannelLayout) :
    SharesSome .allCounts (.listed entries) ↔ entries ≠ [] := by
  rw [← exists_accepts_listed_iff]
  exact exists_congr fun l => and_iff_right rfl

theorem listed_sharesSome_allCounts_iff (entries : List ChannelLayout) :
    SharesSome (.listed entries) .allCounts ↔ entries ≠ [] := by
  rw [← exists_accepts_listed_iff]
  exact exists_congr fun l => and_iff_left rfl

/-- Two wildcards share every known layout. -/
theorem sharesSome_of_wildcards {x y : LayoutSet} (hx : x.acceptsAllLayouts = true)
    (hy : y.acceptsAllLayouts = true) : x.SharesSome y := by
  have hstereo : ∀ {s : LayoutSet}, s.acceptsAllLayouts = true → s.accepts .stereo = true := by
    intro s hs
    cases s with
    | listed entries => cases hs
    | allLayouts => rfl
    | allCounts => rfl
  have hshared : ∃ l, x.accepts l = true ∧ y.accepts l = true :=
    ⟨.stereo, hstereo hx, hstereo hy⟩
  cases x with
  | listed a => cases hx
  | allLayouts =>
    cases y with
    | listed b => cases hy
    | allLayouts => exact hshared
    | allCounts => exact hshared
  | allCounts => exact hshared

/-- Two sets of layouts are compatible exactly if they share a layout, or if an empty list stands
beside the wildcard for counts, which is not looked at. -/
theorem compatible_iff_sharesSome (x y : LayoutSet) :
    x.compatible y = true ↔ x.SharesSome y ∨ x.EmptyBesideAllCounts y := by
  -- Wildcards take everything that they meet, so that only the entries of lists matter.
  cases x with
  | listed a =>
    cases y with
    | listed b => simp [compatible_listed_iff_exists, SharesSome, EmptyBesideAllCounts]
    | allLayouts => simp [compatible, SharesSome, EmptyBesideAllCounts]
    | allCounts =>
      have hcases : a ≠ [] ∨ a = [] := ne_or_eq a []
      simp [compatible, listed_sharesSome_allCounts_iff, EmptyBesideAllCounts, hcases]
  | allLayouts =>
    cases y with
    | listed b => simp [compatible, SharesSome, EmptyBesideAllCounts]
    | allLayouts => exact iff_of_true rfl (.inl (sharesSome_of_wildcards rfl rfl))
    | allCounts => exact iff_of_true rfl (.inl (sharesSome_of_wildcards rfl rfl))
  | allCounts =>
    cases y with
    | listed b =>
      have hcases : b ≠ [] ∨ b = [] := ne_or_eq b []
      simp [compatible, allCounts_sharesSome_listed_iff, EmptyBesideAllCounts, hcases]
    | allLayouts => exact iff_of_true rfl (.inl (sharesSome_of_wildcards rfl rfl))
    | allCounts => exact iff_of_true rfl (.inl (sharesSome_of_wildcards rfl rfl))

/-- The wildcard for counts passes as compatible with the empty list, although nothing is accepted
by both. -/
theorem not_compatible_only_if_shared :
    ¬ ∀ x y : LayoutSet, x.compatible y = true ↔ x.SharesSome y := by
  intro h
  have hshares : SharesSome .allCounts (.listed []) := (h .allCounts (.listed [])).mp rfl
  exact (allCounts_sharesSome_listed_iff []).mp hshares rfl

end FormatNegotiation.LayoutSet
