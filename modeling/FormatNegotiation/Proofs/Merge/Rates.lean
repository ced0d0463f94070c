import FormatNegotiation.Proofs.Merge.Exactness
import FormatNegotiation.Proofs.Merge.Narrowing

/-! What a merge of two sets of sample rates comes to. The empty list accepts any rate, so it must
not be what is left of two lists that name rates. -/
namespace FormatNegotiation

namespace FormatList

/-- There is no list of rates that accepts none. -/
theorem exists_acceptsRate (rates : FormatList) : ∃ rate, AcceptsRate rates rate := by
  cases rates with
  | nil => exact ⟨0, .inl rfl⟩
  | cons v rest => exact ⟨v, .inr List.mem_cons_self⟩

/-- A list that accepts any rate yields to the other one, and only two such lists leave one. -/
theorem contents?_intersectRates {x y z : FormatList}
    (h : (intersectRates x y).contents? x y = some z) :
    (∀ rate, AcceptsRate z rate ↔ AcceptsRate x rate ∧ AcceptsRate y rate) ∧
      (x = [] → z = y) ∧ (y = [] → z = x) ∧ (z = [] ↔ x = [] ∧ y = []) := by
  have haccepts : ∀ rate, AcceptsRate z rate ↔ AcceptsRate x rate ∧ AcceptsRate y rate := by
    rcases intersectRates_cases x y with ⟨hdisjoint, -⟩ | ⟨-, out, hout, hiff⟩
    · rw [hdisjoint] at h
      cases h
    · obtain rfl : out = z := Option.some.inj (hout.symm.trans h)
      exact hiff
  have hfirst : x = [] → z = y := by
    rintro rfl
    exact (Option.some.inj h).symm
  have hsecond : y = [] → z = x := by
    rintro rfl
    cases x with
    | nil => exact (Option.some.inj h).symm
    | cons v a => exact (Option.some.inj h).symm
  have hnil : z = [] → x = [] ∧ y = [] := by
    intro hz
    have hlists : ¬ (x ≠ [] ∨ y ≠ []) := fun hlists => (rates_narrowing x y z h).2 hlists hz
    rwa [not_or, not_not, not_not] at hlists
  refine ⟨haccepts, hfirst, hsecond, hnil, fun hboth => ?_⟩
  rw [hfirst hboth.1, hboth.2]

end FormatList

namespace Registry

open FormatList

/-- Two different live sets of rates are refused exactly if no rate is accepted by both. Otherwise
one of them is left, and accepts the rates that both accepted. Beside the empty list it is the other
list as it was, and the empty list is left only of two. -/
theorem merge_rates_exact (cs : List (Command FormatList)) (a b : SetId) (x y : FormatList)
    (hne : a ≠ b) (hx : (run empty cs).contents? a = some x)
    (hy : (run empty cs).contents? b = some y) :
    let r := run empty cs
    (merge ValueRule.rates a b r = .ok .incompatible r ↔
      ¬ ∃ rate, AcceptsRate x rate ∧ AcceptsRate y rate) ∧
    ((∃ rate, AcceptsRate x rate ∧ AcceptsRate y rate) →
      ∃ r' survivor loser z, merge ValueRule.rates a b r = .ok .merged r' ∧
        (survivor = a ∧ loser = b ∨ survivor = b ∧ loser = a) ∧
        r'.contents? survivor = some z ∧ r'.contents? loser = none ∧
        (∀ rate, AcceptsRate z rate ↔ AcceptsRate x rate ∧ AcceptsRate y rate) ∧
        (x = [] → z = y) ∧ (y = [] → z = x) ∧ (z = [] ↔ x = [] ∧ y = [])) := by
  intro r
  have h : r.WellFormed := run_wellFormed cs
  rcases merge_of_contents h ValueRule.rates hne hx hy with
    ⟨hnone, heq⟩ | ⟨r', survivor, loser, z, hz, heq, hside, hne', habsorbs⟩
  · have hrefused : ratesCompatible x y = false :=
      (intersectRates_eq_disjoint_iff x y).mp (Intersection.contents?_eq_none.mp hnone)
    have hshared : ¬ ∃ rate, AcceptsRate x rate ∧ AcceptsRate y rate := by
      rw [← ratesCompatible_iff, hrefused]
      simp
    exact ⟨iff_of_true heq hshared, fun hrate => absurd hrate hshared⟩
  · have hleft := contents?_intersectRates hz
    obtain ⟨rate, hrate⟩ := exists_acceptsRate z
    have hshared : ∃ rate, AcceptsRate x rate ∧ AcceptsRate y rate :=
      ⟨rate, (hleft.1 rate).mp hrate⟩
    have hmerged : merge ValueRule.rates a b r ≠ .ok .incompatible r := by
      rw [heq]
      simp
    exact ⟨iff_of_false hmerged (not_not_intro hshared), fun _ =>
      ⟨r', survivor, loser, z, heq, hside, habsorbs.contents?_survivor hne',
        habsorbs.contents?_loser, hleft⟩⟩

/-- The first list names a rate twice, and the second, with more references, one that the first
lacks. -/
theorem merge_rates_exact_common_rate :
    let cs : List (Command FormatList) :=
      [.newSlot, .newSlot, .newSlot, .attach [48000, 44100, 48000] [0],
        .attach [48000, 96000] [1, 2]]
    (run empty cs).contents? ⟨0, 0⟩ = some [48000, 44100, 48000] ∧
      (run empty cs).contents? ⟨1, 0⟩ = some [48000, 96000] ∧
      ∃ r' survivor loser z, merge ValueRule.rates ⟨0, 0⟩ ⟨1, 0⟩ (run empty cs) = .ok .merged r' ∧
        (survivor = ⟨0, 0⟩ ∧ loser = ⟨1, 0⟩ ∨ survivor = ⟨1, 0⟩ ∧ loser = ⟨0, 0⟩) ∧
        r'.contents? survivor = some z ∧ r'.contents? loser = none ∧ z ≠ [] ∧
        (AcceptsRate z 48000 ∧ ¬ AcceptsRate z 44100) := by
  intro cs
  have hx : (run empty cs).contents? ⟨0, 0⟩ = some [48000, 44100, 48000] := by decide
  have hy : (run empty cs).contents? ⟨1, 0⟩ = some [48000, 96000] := by decide
  obtain ⟨-, hmerged⟩ := merge_rates_exact cs ⟨0, 0⟩ ⟨1, 0⟩ _ _ (by decide) hx hy
  obtain ⟨r', survivor, loser, z, heq, hside, hz, hgone, haccepts, -, -, hnil⟩ :=
    hmerged ⟨48000, .inr (by decide), .inr (by decide)⟩
  refine ⟨hx, hy, r', survivor, loser, z, heq, hside, hz, hgone, fun h => ?_, ?_⟩
  · cases (hnil.mp h).1
  · rw [haccepts, haccepts]
    simp [AcceptsRate]

end Registry

end FormatNegotiation
