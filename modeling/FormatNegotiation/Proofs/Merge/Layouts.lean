import FormatNegotiation.Proofs.Merge.Intersection
import FormatNegotiation.Merge.Layouts
import Mathlib.Logic.Basic

/-! The intersection of two sets of layouts accepts what both of them accept, however often their
entries are repeated and whether or not they clash. -/
namespace FormatNegotiation.LayoutSet

open ChannelLayout

@[simp] theorem isKnown_bare (l : ChannelLayout) : l.bare.isKnown = false := rfl

theorem accepts_listed (entries : List ChannelLayout) (l : ChannelLayout) :
    (listed entries).accepts l ↔ l ∈ entries ∨ l.isKnown ∧ l.bare ∈ entries := by
  simp only [accepts, List.any_eq_true, Bool.or_eq_true, Bool.and_eq_true, decide_eq_true_eq]
  constructor
  · rintro ⟨e, he, rfl | ⟨hk, rfl⟩⟩
    · exact .inl he
    · exact .inr ⟨hk, he⟩
  · rintro (hl | ⟨hk, hl⟩)
    · exact ⟨l, hl, .inl rfl⟩
    · exact ⟨l.bare, hl, .inr ⟨hk, rfl⟩⟩

theorem accepts_listed_mono {entries entries' : List ChannelLayout} (h : entries ⊆ entries')
    {l : ChannelLayout} (hl : (listed entries).accepts l) : (listed entries').accepts l := by
  rw [accepts_listed] at hl ⊢
  exact hl.imp (fun hm => h hm) fun ⟨hk, hm⟩ => ⟨hk, h hm⟩

/-! ## Pairing known layouts -/

theorem mem_paired (a b : List ChannelLayout) (l : ChannelLayout) :
    l ∈ (pair a b).paired ↔ l.isKnown ∧ l ∈ a ∧ l ∈ b := by
  induction a generalizing b with
  | nil => simp [pair]
  | cons x a ih =>
    rw [pair]
    by_cases hx : x.isKnown ∧ x ∈ b
    · have hpair : (x.isKnown && b.contains x) = true := by simpa using hx
      simp only [hpair, if_true, List.mem_cons, ih]
      by_cases hl : l = x
      · subst hl
        simp [hx]
      · simp [hl, List.mem_erase_of_ne hl]
    · have hpair : (x.isKnown && b.contains x) = false := by
        simpa using hx
      simp only [hpair, Bool.false_eq_true, if_false, ih, List.mem_cons]
      constructor
      · rintro ⟨hk, ha, hb⟩
        exact ⟨hk, .inr ha, hb⟩
      · rintro ⟨hk, rfl | ha, hb⟩
        · exact absurd ⟨hk, hb⟩ hx
        · exact ⟨hk, ha, hb⟩

/-- Pairing splits the first list into what found a partner and what did not. -/
theorem paired_append_first_perm (a b : List ChannelLayout) :
    ((pair a b).paired ++ (pair a b).first).Perm a := by
  induction a generalizing b with
  | nil => exact .refl _
  | cons x a ih =>
    rw [pair]
    split
    · exact (ih (b.erase x)).cons x
    · exact List.perm_middle.trans ((ih b).cons x)

/-- The partners are taken from the second list. -/
theorem paired_append_second_perm (a b : List ChannelLayout) :
    ((pair a b).paired ++ (pair a b).second).Perm b := by
  induction a generalizing b with
  | nil => exact .refl _
  | cons x a ih =>
    rw [pair]
    split
    · rename_i hx
      have hmem : x ∈ b := by
        rw [Bool.and_eq_true] at hx
        simpa using hx.2
      exact ((ih (b.erase x)).cons x).trans (List.perm_cons_erase hmem).symm
    · exact ih b

theorem mem_iff_paired_or_first (a b : List ChannelLayout) (l : ChannelLayout) :
    l ∈ a ↔ l ∈ (pair a b).paired ∨ l ∈ (pair a b).first := by
  rw [← (paired_append_first_perm a b).mem_iff, List.mem_append]

theorem mem_iff_paired_or_second (a b : List ChannelLayout) (l : ChannelLayout) :
    l ∈ b ↔ l ∈ (pair a b).paired ∨ l ∈ (pair a b).second := by
  rw [← (paired_append_second_perm a b).mem_iff, List.mem_append]

/-! ## Two lists -/

/-- A layout is common to two lists if both have it, or if it is a known layout of one and the other
has the bare count of its channels. -/
theorem mem_meet (a b : List ChannelLayout) (l : ChannelLayout) :
    l ∈ meet a b ↔
      l ∈ a ∧ l ∈ b ∨ l.isKnown ∧ l ∈ a ∧ l.bare ∈ b ∨ l.isKnown ∧ l ∈ b ∧ l.bare ∈ a := by
  have hp := mem_paired a b l
  have hf := mem_iff_paired_or_first a b l
  have hs := mem_iff_paired_or_second a b l
  simp only [meet, admitted, sharedCounts, List.mem_append, List.mem_filter, Bool.and_eq_true,
    Bool.not_eq_true', List.contains_iff_mem]
  cases hk : l.isKnown <;> simp only [hk] at hp ⊢ <;> grind

theorem bare_mem_meet (a b : List ChannelLayout) (l : ChannelLayout) :
    l.bare ∈ meet a b ↔ l.bare ∈ a ∧ l.bare ∈ b := by
  rw [mem_meet]
  simp

/-- The common layouts of two lists accept exactly what both lists accept. -/
theorem accepts_meet (a b : List ChannelLayout) (l : ChannelLayout) :
    (listed (meet a b)).accepts l ↔ (listed a).accepts l ∧ (listed b).accepts l := by
  rw [accepts_listed, bare_mem_meet, mem_meet, accepts_listed, accepts_listed]
  grind

/-- Two lists have entries in common exactly if some layout is accepted by both. -/
theorem meet_ne_nil_iff (a b : List ChannelLayout) :
    meet a b ≠ [] ↔ ∃ l, (listed a).accepts l ∧ (listed b).accepts l := by
  simp only [← accepts_meet]
  constructor
  · intro h
    obtain ⟨l, hl⟩ := List.exists_mem_of_ne_nil _ h
    exact ⟨l, (accepts_listed _ l).mpr (.inl hl)⟩
  · rintro ⟨l, hl⟩ h
    simp [h, accepts_listed] at hl

/-- Whether some entries of two lists meet is whether they have any in common. -/
theorem compatible_listed_iff (a b : List ChannelLayout) :
    compatible (.listed a) (.listed b) ↔ meet a b ≠ [] := by
  have hmem : meet a b ≠ [] ↔ ∃ l, l ∈ meet a b := by
    rw [ne_eq, List.eq_nil_iff_forall_not_mem, not_forall_not]
  simp only [hmem, mem_meet, compatible, List.any_eq_true, meets, Bool.or_eq_true,
    Bool.and_eq_true, decide_eq_true_eq]
  constructor
  · rintro ⟨x, hx, y, hy, (rfl | ⟨hk, rfl⟩) | ⟨hk, rfl⟩⟩
    · exact ⟨x, .inl ⟨hx, hy⟩⟩
    · exact ⟨x, .inr (.inl ⟨hk, hx, hy⟩)⟩
    · exact ⟨y, .inr (.inr ⟨hk, hy, hx⟩)⟩
  · rintro ⟨l, ⟨ha, hb⟩ | ⟨hk, ha, hb⟩ | ⟨hk, hb, ha⟩⟩
    · exact ⟨l, ha, l, hb, .inl (.inl rfl)⟩
    · exact ⟨l, ha, l.bare, hb, .inl (.inr ⟨hk, rfl⟩)⟩
    · exact ⟨l.bare, ha, l, hb, .inr ⟨hk, rfl⟩⟩

/-- An operand that has the length and the entries of the intersection accepts the same. -/
theorem accepts_of_sameAs {out side : List ChannelLayout} (h : sameAs out side)
    (hout : ∀ l, (listed out).accepts l → (listed side).accepts l) (l : ChannelLayout) :
    (listed side).accepts l ↔ (listed out).accepts l := by
  simp only [sameAs, Bool.and_eq_true, List.all_eq_true, List.contains_iff_mem] at h
  exact ⟨accepts_listed_mono h.2, hout l⟩

/-- Whether an operand is kept or new contents are made, the result accepts what both lists accept.
-/
theorem intersectListed_cases (a b : List ChannelLayout) :
    (meet a b = [] ∧ intersectListed a b = .disjoint) ∨
    (meet a b ≠ [] ∧ ∃ out,
      (intersectListed a b).contents? (.listed a) (.listed b) = some (.listed out) ∧
      ∀ l, (listed out).accepts l ↔ (listed a).accepts l ∧ (listed b).accepts l) := by
  unfold intersectListed
  by_cases hne : meet a b = []
  · exact .inl ⟨hne, by simp [hne]⟩
  simp only [List.isEmpty_iff, hne, if_false]
  refine .inr ⟨hne, ?_⟩
  by_cases ha : sameAs (meet a b) a
  · refine ⟨a, by simp [ha, Intersection.contents?], fun l => ?_⟩
    rw [← accepts_meet]
    exact accepts_of_sameAs ha (fun l hl => ((accepts_meet a b l).mp hl).1) l
  by_cases hb : sameAs (meet a b) b
  · refine ⟨b, by simp [ha, hb, Intersection.contents?], fun l => ?_⟩
    rw [← accepts_meet]
    exact accepts_of_sameAs hb (fun l hl => ((accepts_meet a b l).mp hl).2) l
  · exact ⟨meet a b, by simp [ha, hb, Intersection.contents?], accepts_meet a b⟩

/-! ## Lists and wildcards -/

/-- What is left of two sets accepts what both accept. Beside the wildcard for known layouts a list
is left with its known entries, in their order. -/
def IsIntersection (x y z : LayoutSet) : Prop :=
  match x, y with
  | .allLayouts, .listed entries | .listed entries, .allLayouts =>
    z = .listed (entries.filter (·.isKnown))
  | _, _ => ∀ l, z.accepts l ↔ x.accepts l ∧ y.accepts l

/-- No layout is accepted by both sets. Beside the wildcard for known layouts a list has no known
entry. -/
def SharesNothing (x y : LayoutSet) : Prop :=
  match x, y with
  | .allLayouts, .listed entries | .listed entries, .allLayouts =>
    ∀ l ∈ entries, l.isKnown = false
  | _, _ => ∀ l, ¬ (x.accepts l ∧ y.accepts l)

theorem intersectKnown_eq_disjoint_iff (side : Side) (entries : List ChannelLayout) :
    intersectKnown side entries = .disjoint ↔ ∀ l ∈ entries, l.isKnown = false := by
  unfold intersectKnown
  split
  · rename_i h
    simpa [List.countP_eq_zero] using h
  · rename_i h
    rw [List.countP_eq_zero] at h
    split <;> simpa using h

/-- A list that is kept beside the wildcard for known layouts has no other entries. -/
theorem intersectKnown_cases (side : Side) (entries : List ChannelLayout) :
    intersectKnown side entries = .disjoint ∨
    intersectKnown side entries = .keep side ∧ entries.filter (·.isKnown) = entries ∨
    intersectKnown side entries = .replace (.listed (entries.filter (·.isKnown))) := by
  unfold intersectKnown
  split
  · exact .inl rfl
  · split
    · rename_i h
      refine .inr (.inl ⟨rfl, ?_⟩)
      rw [List.filter_eq_self]
      exact List.countP_eq_length.mp h
    · exact .inr (.inr rfl)

theorem intersect_exact (x y : LayoutSet) :
    ((intersect x y).contents? x y = none ∧ SharesNothing x y) ∨
    ∃ z, (intersect x y).contents? x y = some z ∧ IsIntersection x y z := by
  cases x with
  | listed a =>
    cases y with
    | listed b =>
      rcases intersectListed_cases a b with ⟨hnil, hi⟩ | ⟨-, out, hi, hout⟩
      · refine .inl ⟨by simp [intersect, hi, Intersection.contents?], fun l hl => ?_⟩
        exact (meet_ne_nil_iff a b).mpr ⟨l, hl⟩ hnil
      · exact .inr ⟨_, hi, hout⟩
    | allLayouts =>
      rcases intersectKnown_cases .first a with hi | ⟨hi, hk⟩ | hi
      · exact .inl ⟨by simp [intersect, hi, Intersection.contents?],
          (intersectKnown_eq_disjoint_iff .first a).mp hi⟩
      · exact .inr ⟨.listed a, by simp [intersect, hi, Intersection.contents?],
          by simp [IsIntersection, hk]⟩
      · exact .inr ⟨_, by simp [intersect, hi, Intersection.contents?], rfl⟩
    | allCounts => exact .inr ⟨.listed a, rfl, by simp [IsIntersection, accepts]⟩
  | allLayouts =>
    cases y with
    | listed b =>
      rcases intersectKnown_cases .second b with hi | ⟨hi, hk⟩ | hi
      · exact .inl ⟨by simp [intersect, hi, Intersection.contents?],
          (intersectKnown_eq_disjoint_iff .second b).mp hi⟩
      · exact .inr ⟨.listed b, by simp [intersect, hi, Intersection.contents?],
          by simp [IsIntersection, hk]⟩
      · exact .inr ⟨_, by simp [intersect, hi, Intersection.contents?], rfl⟩
    | allLayouts => exact .inr ⟨.allLayouts, rfl, by simp [IsIntersection]⟩
    | allCounts => exact .inr ⟨.allLayouts, rfl, by simp [IsIntersection, accepts]⟩
  | allCounts =>
    cases y with
    | listed b => exact .inr ⟨.listed b, rfl, by simp [IsIntersection, accepts]⟩
    | allLayouts => exact .inr ⟨.allLayouts, rfl, by simp [IsIntersection, accepts]⟩
    | allCounts => exact .inr ⟨.allCounts, rfl, by simp [IsIntersection]⟩

/-- The test of compatibility is exact. -/
theorem intersect_eq_disjoint_iff (x y : LayoutSet) :
    intersect x y = .disjoint ↔ compatible x y = false := by
  cases x with
  | listed a =>
    cases y with
    | listed b =>
      rw [← Bool.not_eq_true, compatible_listed_iff, not_not]
      rcases intersectListed_cases a b with ⟨hnil, hi⟩ | ⟨hne, out, hi, -⟩
      · simp [intersect, hi, hnil]
      · refine iff_of_false (fun h => ?_) hne
        rw [intersect] at h
        simp [h, Intersection.contents?] at hi
    | allLayouts =>
      rw [intersect, intersectKnown_eq_disjoint_iff]
      simp [compatible]
    | allCounts => simp [intersect, compatible]
  | allLayouts =>
    cases y with
    | listed b =>
      rw [intersect, intersectKnown_eq_disjoint_iff]
      simp [compatible]
    | allLayouts => simp [intersect, compatible]
    | allCounts => simp [intersect, compatible]
  | allCounts => cases y <;> simp [intersect, compatible]

end FormatNegotiation.LayoutSet

namespace FormatNegotiation

instance : LawfulMergeable LayoutSet where
  intersect_eq_disjoint_iff _ := LayoutSet.intersect_eq_disjoint_iff

end FormatNegotiation
