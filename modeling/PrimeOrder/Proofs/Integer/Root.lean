import Mathlib
import PrimeOrder.Integer.Root
import PrimeOrder.Proofs.Outcome

namespace PrimeOrder.Integer

theorem floorRoot_root_eq_sqrt (n : ℕ) : (floorRoot n).root = n.sqrt := by
  obtain ⟨hsum, hsmall⟩ := floorRoot_bounds n
  rw [Nat.eq_sqrt]
  constructor
  · omega
  · rw [add_one_mul, mul_add_one]
    omega

theorem isqrt_natCast (n : ℕ) : isqrt n = .ok n.sqrt := by
  rw [isqrt, isqrtWithRemainder, if_neg (Int.natCast_nonneg n).not_gt, Int.toNat_natCast,
    Outcome.map_ok, floorRoot_root_eq_sqrt]

/-- A distance of at most twice a root is at most one more than twice the floor of the root. -/
theorem abs_le_two_mul_sqrt_add_one {d : ℤ} {n : ℕ} (hd : d ^ 2 ≤ 4 * n) :
    |d| ≤ 2 * n.sqrt + 1 := by
  have hroot : (n : ℤ) < (n.sqrt + 1) * (n.sqrt + 1) := by exact_mod_cast n.lt_succ_sqrt
  have hsquare : d ^ 2 < (2 * n.sqrt + 2) ^ 2 := by
    calc d ^ 2 ≤ 4 * n := hd
      _ < 4 * ((n.sqrt + 1) * (n.sqrt + 1)) := by omega
      _ = (2 * n.sqrt + 2) ^ 2 := by ring
  have habs : |d| < 2 * n.sqrt + 2 := abs_lt_of_sq_lt_sq hsquare (by positivity)
  omega

end PrimeOrder.Integer
