import Mathlib
import PrimeOrder.Integer.Size

namespace PrimeOrder.Integer

theorem bitLength_le_iff {x : ℤ} {n : ℕ} : bitLength x ≤ n ↔ x.natAbs < 2 ^ n := by
  unfold bitLength
  by_cases hzero : x = 0
  · simp [hzero]
  · rw [if_neg hzero, Nat.add_one_le_iff, Nat.log2_lt (Int.natAbs_ne_zero.mpr hzero)]

theorem bitLength_eq_succ_iff {x : ℤ} {n : ℕ} :
    bitLength x = n + 1 ↔ 2 ^ n ≤ x.natAbs ∧ x.natAbs < 2 ^ (n + 1) := by
  have hle : bitLength x ≤ n ↔ x.natAbs < 2 ^ n := bitLength_le_iff
  have hsucc : bitLength x ≤ n + 1 ↔ x.natAbs < 2 ^ (n + 1) := bitLength_le_iff
  omega

theorem byteLength_le_iff {x : ℤ} {n : ℕ} : byteLength x ≤ n ↔ x.natAbs < 256 ^ n := by
  have hbits : byteLength x ≤ n ↔ bitLength x ≤ 8 * n := by
    unfold byteLength
    omega
  rw [hbits, bitLength_le_iff, pow_mul]
  rfl

theorem byteLength_mono {x y : ℤ} (hxy : x.natAbs ≤ y.natAbs) : byteLength x ≤ byteLength y :=
  byteLength_le_iff.mpr (hxy.trans_lt (byteLength_le_iff.mp le_rfl))

end PrimeOrder.Integer
