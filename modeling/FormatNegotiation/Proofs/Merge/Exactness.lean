import FormatNegotiation.Proofs.Merge.Layouts
import FormatNegotiation.Proofs.Registry.Session

/-! Merging two sets of a registry leaves exactly what they have in common. -/
namespace FormatNegotiation.Registry

variable {σ : Type}

namespace Absorbs

variable {r r' : Registry σ} {survivor loser : SetId} {contents : σ}

theorem contents?_survivor (h : r.Absorbs r' survivor loser contents) (hne : survivor ≠ loser) :
    r'.contents? survivor = some contents := by
  simp [contents?, h.find?_eq, hne]

theorem contents?_loser (h : r.Absorbs r' survivor loser contents) :
    r'.contents? loser = none := by
  simp [contents?, h.find?_eq]

end Absorbs

/-- Two different live sets are left alone if their intersection is empty. Otherwise one of them
absorbs the other and holds the intersection. -/
theorem merge_of_contents [Mergeable σ] {r : Registry σ} {a b : SetId} {x y : σ}
    (h : r.WellFormed) (rule : Mergeable.Rule σ) (hne : a ≠ b) (hx : r.contents? a = some x)
    (hy : r.contents? b = some y) :
    ((Mergeable.intersect rule x y).contents? x y = none ∧
      merge rule a b r = .ok .incompatible r) ∨
    ∃ r' survivor loser z, (Mergeable.intersect rule x y).contents? x y = some z ∧
      merge rule a b r = .ok .merged r' ∧
      (survivor = a ∧ loser = b ∨ survivor = b ∧ loser = a) ∧ survivor ≠ loser ∧
      r.Absorbs r' survivor loser z := by
  obtain ⟨u, hu, rfl⟩ := contents?_eq_some.mp hx
  obtain ⟨v, hv, rfl⟩ := contents?_eq_some.mp hy
  rcases merge_of_live h rule hne hu hv with
    hnone | ⟨r', z, survivor, loser, hz, hside, heq, habsorbs⟩
  · exact .inl hnone
  · have hne' : survivor ≠ loser := by
      rcases hside with ⟨rfl, rfl⟩ | ⟨rfl, rfl⟩
      · exact hne
      · exact hne.symm
    exact .inr ⟨r', survivor, loser, z, hz, heq, hside, hne', habsorbs⟩

/-- Two different live sets of layouts are merged to what they have in common, or refused because
they share nothing. The lists may repeat entries and may hold entries that clash. -/
theorem merge_layouts_exact (cs : List (Command LayoutSet)) (a b : SetId) (x y : LayoutSet)
    (hne : a ≠ b) (hx : (run empty cs).contents? a = some x)
    (hy : (run empty cs).contents? b = some y) :
    (merge () a b (run empty cs) = .ok .incompatible (run empty cs) ∧ x.SharesNothing y) ∨
    ∃ r' survivor loser z, merge () a b (run empty cs) = .ok .merged r' ∧
      (survivor = a ∧ loser = b ∨ survivor = b ∧ loser = a) ∧
      r'.contents? survivor = some z ∧ r'.contents? loser = none ∧ x.IsIntersection y z := by
  have h : (run empty cs).WellFormed := run_wellFormed cs
  obtain ⟨ex, hfx, rfl⟩ := contents?_eq_some.mp hx
  obtain ⟨ey, hfy, rfl⟩ := contents?_eq_some.mp hy
  have hexact := LayoutSet.intersect_exact ex.contents ey.contents
  rcases merge_of_live h () hne hfx hfy with
    ⟨hnone, heq⟩ | ⟨r', z, survivor, loser, hsome, hside, heq, ha⟩
  · rcases hexact with ⟨-, hdisjoint⟩ | ⟨z, hz, -⟩
    · exact .inl ⟨heq, hdisjoint⟩
    · exact absurd (hnone.symm.trans hz) (by simp)
  · rcases hexact with ⟨hz, -⟩ | ⟨z', hz, hinter⟩
    · exact absurd (hsome.symm.trans hz) (by simp)
    · obtain rfl : z = z' := Option.some.inj (hsome.symm.trans hz)
      have hne' : survivor ≠ loser := by
        rcases hside with ⟨rfl, rfl⟩ | ⟨rfl, rfl⟩
        · exact hne
        · exact hne.symm
      exact .inr ⟨r', survivor, loser, z, heq, hside, ha.contents?_survivor hne',
        ha.contents?_loser, hinter⟩

/-- Stereo or six channels, against two channels or 5.1 with side speakers. -/
theorem merge_layouts_exact_stereo_or_six :
    let cs : List (Command LayoutSet) :=
      [.newSlot, .newSlot, .attach (.listed [.stereo, .count 6]) [0],
        .attach (.listed [.count 2, .surroundSideLfe]) [1]]
    let x : LayoutSet := .listed [.stereo, .count 6]
    let y : LayoutSet := .listed [.count 2, .surroundSideLfe]
    (run empty cs).contents? ⟨0, 0⟩ = some x ∧ (run empty cs).contents? ⟨1, 0⟩ = some y ∧
      ((merge () ⟨0, 0⟩ ⟨1, 0⟩ (run empty cs) = .ok .incompatible (run empty cs) ∧
          x.SharesNothing y) ∨
        ∃ r' survivor loser z, merge () ⟨0, 0⟩ ⟨1, 0⟩ (run empty cs) = .ok .merged r' ∧
          (survivor = ⟨0, 0⟩ ∧ loser = ⟨1, 0⟩ ∨ survivor = ⟨1, 0⟩ ∧ loser = ⟨0, 0⟩) ∧
          r'.contents? survivor = some z ∧ r'.contents? loser = none ∧
          x.IsIntersection y z) := by
  intro cs x y
  have hx : (run empty cs).contents? ⟨0, 0⟩ = some x := by decide
  have hy : (run empty cs).contents? ⟨1, 0⟩ = some y := by decide
  exact ⟨hx, hy, merge_layouts_exact cs ⟨0, 0⟩ ⟨1, 0⟩ x y (by decide) hx hy⟩

end FormatNegotiation.Registry
