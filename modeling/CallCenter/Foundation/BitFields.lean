import Mathlib.Algebra.Group.Nat.Defs

/-!
# Fields of bits as numbers

Masks, shifts and disjunctions of disjoint fields are remainders, quotients and sums.
-/

namespace CallCenter.Foundation.BitFields

variable {w : Nat}

/-- The bits from `s` on, `k` of them, where they are. -/
theorem and_field (n s k : Nat) : n &&& ((2 ^ k - 1) <<< s) = n / 2 ^ s % 2 ^ k * 2 ^ s := by
  have shifted : (n >>> s &&& (2 ^ k - 1)) <<< s = n &&& ((2 ^ k - 1) <<< s) := by
    apply Nat.eq_of_testBit_eq
    intro i
    by_cases low : s ≤ i
    · simp [Nat.testBit_shiftLeft, Nat.testBit_and, Nat.testBit_shiftRight, low, Bool.and_comm]
    · simp [Nat.testBit_shiftLeft, Nat.testBit_and, low]
  rw [← shifted, Nat.and_two_pow_sub_one_eq_mod, Nat.shiftRight_eq_div_pow, Nat.shiftLeft_eq]

theorem toNat_and_mask {x mask : BitVec w} {k : Nat} (isMask : mask.toNat = 2 ^ k - 1) :
    (x &&& mask).toNat = x.toNat % 2 ^ k := by
  rw [BitVec.toNat_and, isMask, Nat.and_two_pow_sub_one_eq_mod]

theorem toNat_field {x mask : BitVec w} {s k : Nat} (isMask : mask.toNat = (2 ^ k - 1) <<< s) (shift : Nat) :
    ((x &&& mask) >>> shift).toNat = x.toNat / 2 ^ s % 2 ^ k * 2 ^ s / 2 ^ shift := by
  rw [BitVec.toNat_ushiftRight, BitVec.toNat_and, isMask, and_field, Nat.shiftRight_eq_div_pow]

theorem toNat_shiftLeft_of_lt {x : BitVec w} {k : Nat} (fits : x.toNat * 2 ^ k < 2 ^ w) :
    (x <<< k).toNat = x.toNat * 2 ^ k := by
  rw [BitVec.toNat_shiftLeft, Nat.shiftLeft_eq, Nat.mod_eq_of_lt fits]

/-- Fields that do not overlap add up. -/
theorem toNat_or_of_dvd {high low : BitVec w} {k : Nat} (above : 2 ^ k ∣ high.toNat)
    (below : low.toNat < 2 ^ k) : (high ||| low).toNat = high.toNat + low.toNat := by
  obtain ⟨a, shape⟩ := above
  rw [BitVec.toNat_or, shape, Nat.two_pow_add_eq_or_of_lt below]

end CallCenter.Foundation.BitFields
