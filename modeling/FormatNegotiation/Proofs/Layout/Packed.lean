import FormatNegotiation.Layout.Packed
import Mathlib.Data.Nat.Bitwise
import Mathlib.Tactic.SplitIfs

/-! Packed layouts. A layout that has a packed form can be read back from it. Every word stands for
a layout that has one, and only words that are marked as counts have bits that do not matter. -/
namespace FormatNegotiation.ChannelLayout

variable {l : ChannelLayout} {bits : UInt64}

/-! ## Words -/

/-- The top bit is set, so that the word stands for a bare count. -/
def Marked (bits : UInt64) : Prop := bits.toNat.testBit 63 = true

instance (bits : UInt64) : Decidable (Marked bits) := inferInstanceAs (Decidable (_ = true))

theorem marked_iff_le (bits : UInt64) : Marked bits ↔ 2 ^ 63 ≤ bits.toNat := by
  have hlt : bits.toNat < 2 ^ 64 := bits.toNat_lt
  rw [Marked, Nat.testBit_eq_decide_div_mod_eq, decide_eq_true_eq]
  omega

theorem and_countFlag_eq_zero_iff (bits : UInt64) : bits &&& countFlag = 0 ↔ ¬ Marked bits := by
  have hand : (bits &&& countFlag).toNat = (bits.toNat.testBit 63).toNat * 2 ^ 63 :=
    (UInt64.toNat_and bits countFlag).trans (Nat.and_two_pow bits.toNat 63)
  rw [← UInt64.toNat_inj, hand, Marked]
  cases bits.toNat.testBit 63 <;> simp

theorem toNat_and_countMask (bits : UInt64) : (bits &&& countMask).toNat = bits.toNat % 2 ^ 31 :=
  (UInt64.toNat_and bits countMask).trans (Nat.and_two_pow_sub_one_eq_mod bits.toNat 31)

theorem toNat_countFlag_or (h : bits.toNat < 2 ^ 63) :
    (countFlag ||| bits).toNat = 2 ^ 63 + bits.toNat :=
  (UInt64.toNat_or countFlag bits).trans (Nat.two_pow_add_eq_or_of_lt h 1).symm

theorem le_countMask_iff (n : UInt32) : n.toUInt64 ≤ countMask ↔ n.toNat < 2 ^ 31 := by
  rw [UInt64.le_iff_toNat_le, UInt32.toNat_toUInt64]
  exact Nat.le_iff_lt_add_one

/-! ## Packing and reading back -/

theorem toBits?_known (mask : UInt64) :
    toBits? (.known mask) = if Marked mask then none else some mask := by
  simp only [toBits?, and_countFlag_eq_zero_iff, ite_not]

theorem toBits?_count (n : UInt32) :
    toBits? (.count n) = if n.toNat < 2 ^ 31 then some (countFlag ||| n.toUInt64) else none := by
  simp only [toBits?, le_countMask_iff]

theorem ofBits_of_marked (h : Marked bits) : ofBits bits = .count (bits &&& countMask).toUInt32 :=
  if_pos (mt (and_countFlag_eq_zero_iff bits).mp (not_not.mpr h))

theorem ofBits_of_not_marked (h : ¬ Marked bits) : ofBits bits = .known bits :=
  if_neg (not_not.mpr ((and_countFlag_eq_zero_iff bits).mpr h))

theorem toBits?_eq_none_iff :
    toBits? l = none ↔ (∃ mask, l = .known mask ∧ Marked mask) ∨
      ∃ n : UInt32, l = .count n ∧ 0x7FFFFFFF < n.toNat := by
  cases l with
  | known mask => simp [toBits?_known]
  | count n =>
    rw [toBits?_count]
    by_cases h : n.toNat < 2 ^ 31
    · rw [if_pos h]
      refine iff_of_false (Option.some_ne_none _) ?_
      rintro (⟨mask, heq, -⟩ | ⟨m, heq, hlarge⟩)
      · cases heq
      · cases heq
        omega
    · rw [if_neg h]
      exact iff_of_true rfl (.inr ⟨n, rfl, by omega⟩)

/-- What was packed is read back. -/
theorem ofBits_of_toBits? (h : toBits? l = some bits) : ofBits bits = l := by
  cases l with
  | known mask =>
    rw [toBits?_known] at h
    split_ifs at h with hmask
    obtain rfl := Option.some.inj h
    exact ofBits_of_not_marked hmask
  | count n =>
    rw [toBits?_count] at h
    split_ifs at h with hn
    obtain rfl := Option.some.inj h
    have hword : (countFlag ||| n.toUInt64).toNat = 2 ^ 63 + n.toNat := by
      have hlt : n.toUInt64.toNat < 2 ^ 63 := by
        rw [UInt32.toNat_toUInt64]
        omega
      rw [toNat_countFlag_or hlt, UInt32.toNat_toUInt64]
    have hmarked : Marked (countFlag ||| n.toUInt64) := by
      rw [marked_iff_le, hword]
      exact Nat.le_add_right _ _
    have hcount : ((countFlag ||| n.toUInt64) &&& countMask).toUInt32 = n := by
      rw [← UInt32.toNat_inj, UInt64.toNat_toUInt32, toNat_and_countMask, hword]
      omega
    rw [ofBits_of_marked hmarked, hcount]

/-! ## Words that no layout packs to -/

/-- The word that is left when the bits that do not matter are cleared. -/
def canonical (bits : UInt64) : UInt64 :=
  if Marked bits then countFlag ||| (bits &&& countMask) else bits

theorem canonical_of_not_marked (h : ¬ Marked bits) : canonical bits = bits := if_neg h

/-- Of a marked word the 31 bits of the count are left, and the mark. -/
theorem testBit_canonical (h : Marked bits) (i : Nat) :
    (canonical bits).toNat.testBit i = (bits.toNat.testBit i && !(31 ≤ i && i ≤ 62)) := by
  have hflag : countFlag.toNat.testBit i = decide (63 = i) := by
    rw [show countFlag.toNat = 2 ^ 63 from rfl, Nat.testBit_two_pow]
  have hmask : countMask.toNat.testBit i = decide (i < 31) := Nat.testBit_two_pow_sub_one 31 i
  rw [canonical, if_pos h, UInt64.toNat_or, UInt64.toNat_and, Nat.testBit_or, Nat.testBit_and,
    hflag, hmask]
  rcases Nat.lt_trichotomy i 63 with hi | rfl | hi
  · have hne : 63 ≠ i := by omega
    by_cases hlow : i < 31
    · simp [hne, hlow]
    · simp [hne, hlow]
      omega
  · simp [show bits.toNat.testBit 63 = true from h]
  · have hpow : bits.toNat < 2 ^ i :=
      Nat.lt_of_lt_of_le bits.toNat_lt (Nat.pow_le_pow_right (by decide) hi)
    simp [Nat.testBit_lt_two_pow hpow, Nat.ne_of_lt hi]

theorem toBits?_ofBits (bits : UInt64) : toBits? (ofBits bits) = some (canonical bits) := by
  by_cases h : Marked bits
  · have hlt : (bits &&& countMask).toNat < 2 ^ 31 := by
      rw [toNat_and_countMask]
      exact Nat.mod_lt _ (by decide)
    have hword : (bits &&& countMask).toUInt32.toUInt64 = bits &&& countMask := by
      rw [← UInt64.toNat_inj, UInt32.toNat_toUInt64, UInt64.toNat_toUInt32]
      omega
    have hcount : (bits &&& countMask).toUInt32.toNat < 2 ^ 31 := by
      rw [UInt64.toNat_toUInt32]
      omega
    rw [ofBits_of_marked h, toBits?_count, if_pos hcount, hword, canonical, if_pos h]
  · rw [ofBits_of_not_marked h, toBits?_known, if_neg h, canonical_of_not_marked h]

theorem toNat_countOfBits (bits : UInt64) :
    (countOfBits bits).toNat = if Marked bits then bits.toNat % 2 ^ 31 else 0 := by
  unfold countOfBits
  by_cases h : Marked bits
  · rw [ofBits_of_marked h, if_pos h]
    show (bits &&& countMask).toUInt32.toNat = _
    rw [UInt64.toNat_toUInt32, toNat_and_countMask]
    omega
  · rw [ofBits_of_not_marked h, if_neg h]
    rfl

/-- A layout has no packed form just if it is a speaker mask with the marking bit or a count that
takes more than 31 bits. From its packed form it is read back, so no two layouts are packed alike.
What a word stands for can always be packed. That gives the word again unless it is marked, and of a
marked one it clears the bits between the count and the mark, so that the words which come back as
they were are those that layouts pack to. -/
theorem packed_round_trip :
    (∀ l, (toBits? l = none ↔ (∃ mask, l = .known mask ∧ Marked mask) ∨
        ∃ n : UInt32, l = .count n ∧ 0x7FFFFFFF < n.toNat) ∧
      ∀ bits, toBits? l = some bits → ofBits bits = l ∧ ∀ l', toBits? l' = some bits → l' = l) ∧
    ∀ bits,
      toBits? (ofBits bits) = some (canonical bits) ∧
      (¬ Marked bits → canonical bits = bits) ∧
      (Marked bits → ∀ i, (canonical bits).toNat.testBit i =
        (bits.toNat.testBit i && !(31 ≤ i && i ≤ 62))) ∧
      (toBits? (ofBits bits) = some bits ↔ ∃ l, toBits? l = some bits) ∧
      (countOfBits bits).toNat = if Marked bits then bits.toNat % 2 ^ 31 else 0 := by
  constructor
  · intro l
    refine ⟨toBits?_eq_none_iff, fun bits h => ⟨ofBits_of_toBits? h, fun l' h' => ?_⟩⟩
    rw [← ofBits_of_toBits? h', ofBits_of_toBits? h]
  · intro bits
    refine ⟨toBits?_ofBits bits, canonical_of_not_marked, testBit_canonical, ?_,
      toNat_countOfBits bits⟩
    constructor
    · intro h
      exact ⟨ofBits bits, h⟩
    · intro ⟨l, h⟩
      rwa [ofBits_of_toBits? h]

/-- Of a marked word with other bits beside the count only the count is read. -/
example : ofBits 0x8000000100000002 = .count 2 ∧
    toBits? (ofBits 0x8000000100000002) = some 0x8000000000000002 := by decide

end FormatNegotiation.ChannelLayout
