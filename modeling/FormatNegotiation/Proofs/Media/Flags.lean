import FormatNegotiation.Media.FormatList
import Mathlib.Logic.Basic

/-! Choosing pixel formats by their flags. A flag that is both wanted and rejected counts as wanted.
Apart from that, the formats chosen are those with every wanted flag and no rejected one. -/
namespace FormatNegotiation

namespace PixelFlags

variable {flags want reject : PixelFlags}

/-- Every flag of `want` is set. -/
def HasAll (flags want : PixelFlags) : Prop :=
  ∀ i < 32, want.toNat.testBit i = true → flags.toNat.testBit i = true

/-- No flag of `reject` is set. -/
def HasNone (flags reject : PixelFlags) : Prop :=
  ∀ i < 32, reject.toNat.testBit i = true → flags.toNat.testBit i = false

instance (flags want : PixelFlags) : Decidable (flags.HasAll want) :=
  inferInstanceAs (Decidable (∀ i < 32, _ → _))

instance (flags reject : PixelFlags) : Decidable (flags.HasNone reject) :=
  inferInstanceAs (Decidable (∀ i < 32, _ → _))

theorem eq_iff_testBit (x y : PixelFlags) :
    x = y ↔ ∀ i < 32, x.toNat.testBit i = y.toNat.testBit i := by
  constructor
  · intro h i _
    rw [h]
  · intro h
    rw [← UInt32.toNat_inj]
    apply Nat.eq_of_testBit_eq
    intro i
    by_cases hi : i < 32
    · exact h i hi
    · have hpow : 2 ^ 32 ≤ 2 ^ i := Nat.pow_le_pow_right (by decide) (Nat.le_of_not_lt hi)
      rw [Nat.testBit_lt_two_pow (Nat.lt_of_lt_of_le x.toNat_lt hpow),
        Nat.testBit_lt_two_pow (Nat.lt_of_lt_of_le y.toNat_lt hpow)]

theorem testBit_and (x y : PixelFlags) (i : Nat) :
    (x &&& y).toNat.testBit i = (x.toNat.testBit i && y.toNat.testBit i) := by
  rw [UInt32.toNat_and, Nat.testBit_and]

theorem testBit_or (x y : PixelFlags) (i : Nat) :
    (x ||| y).toNat.testBit i = (x.toNat.testBit i || y.toNat.testBit i) := by
  rw [UInt32.toNat_or, Nat.testBit_or]

theorem testBit_not (x : PixelFlags) {i : Nat} (hi : i < 32) :
    (~~~x).toNat.testBit i = !x.toNat.testBit i := by
  rw [← UInt32.toNat_toBitVec, UInt32.toBitVec_not, BitVec.testBit_toNat, BitVec.getLsbD_not,
    ← UInt32.toNat_toBitVec, BitVec.testBit_toNat, decide_eq_true hi, Bool.true_and]

/-- The masked comparison takes a flag that is wanted and rejected for one that is wanted. -/
theorem and_or_eq_iff (flags want reject : PixelFlags) :
    flags &&& (want ||| reject) = want ↔
      flags.HasAll want ∧ flags.HasNone (reject &&& ~~~want) := by
  rw [eq_iff_testBit, HasAll, HasNone, ← forall₂_and]
  refine forall₂_congr fun i hi => ?_
  rw [testBit_and, testBit_or, testBit_and, testBit_not want hi]
  cases want.toNat.testBit i <;> cases reject.toNat.testBit i <;> simp

theorem HasNone.and_not_eq (h : want.HasNone reject) : reject &&& ~~~want = reject := by
  rw [eq_iff_testBit]
  intro i hi
  rw [testBit_and, testBit_not want hi]
  cases hreject : reject.toNat.testBit i with
  | false => rfl
  | true => rw [h i hi hreject]; rfl

end PixelFlags

namespace FormatList

open PixelFlags

variable {catalog : Catalog} {want reject : PixelFlags}

/-- The pixel formats that the catalog knows to have every flag of `want` and no flag of `reject`,
in catalog order and as often as they are registered. -/
def withFlags (catalog : Catalog) (want reject : PixelFlags) : FormatList :=
  (catalog.formats .video).filter fun f =>
    ∃ d ∈ catalog.pixel? f, d.filterFlags.HasAll want ∧ d.filterFlags.HasNone reject

theorem mem_withFlags {f : FormatId} :
    f ∈ withFlags catalog want reject ↔ f ∈ catalog.formats .video ∧
      ∃ d, catalog.pixel? f = some d ∧ d.filterFlags.HasAll want ∧
        d.filterFlags.HasNone reject := by
  simp [withFlags]

/-- No format can have a flag and not have it. -/
theorem withFlags_eq_nil (h : ¬ want.HasNone reject) : withFlags catalog want reject = [] := by
  rw [List.eq_nil_iff_forall_not_mem]
  intro f hf
  obtain ⟨-, d, -, hall, hnone⟩ := mem_withFlags.mp hf
  refine h fun i hi hreject => ?_
  cases hwant : want.toNat.testBit i with
  | false => rfl
  | true => exact (hall i hi hwant).symm.trans (hnone i hi hreject)

theorem ofFlags_eq_withFlags (catalog : Catalog) (want reject : PixelFlags) :
    ofFlags catalog want reject = withFlags catalog want (reject &&& ~~~want) := by
  refine List.filter_congr fun f _ => ?_
  cases catalog.pixel? f with
  | none => simp
  | some d => simp [and_or_eq_iff]

/-- The formats that are chosen have every flag that is wanted and none that is rejected and not
also wanted. So these are the ones with every flag of `want` and none of `reject` if no flag is
both, and otherwise only if none are chosen. -/
theorem ofFlags_exact (catalog : Catalog) (want reject : PixelFlags) :
    ofFlags catalog want reject = withFlags catalog want (reject &&& ~~~want) ∧
    (ofFlags catalog want reject = withFlags catalog want reject ↔
      want.HasNone reject ∨ ofFlags catalog want reject = []) := by
  refine ⟨ofFlags_eq_withFlags catalog want reject, ?_⟩
  by_cases h : want.HasNone reject
  · refine iff_of_true ?_ (.inl h)
    rw [ofFlags_eq_withFlags, h.and_not_eq]
  · rw [withFlags_eq_nil h, or_iff_right h]

/-- Formats are chosen for a flag that is rejected as well: those built in that are RGB have it. -/
theorem not_ofFlags_eq_withFlags :
    ¬ ∀ (catalog : Catalog) (want reject : PixelFlags),
      ofFlags catalog want reject = withFlags catalog want reject := by
  intro h
  have hboth : ¬ HasNone .rgb .rgb := by decide
  have hnone : ofFlags .builtin .rgb .rgb = [] := (h _ _ _).trans (withFlags_eq_nil hboth)
  have hrgb : PixelFormat.rgb24.id ∈ ofFlags .builtin .rgb .rgb := by decide
  rw [hnone] at hrgb
  cases hrgb

end FormatList

end FormatNegotiation
