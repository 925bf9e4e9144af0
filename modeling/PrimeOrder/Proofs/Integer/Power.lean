import Mathlib
import PrimeOrder.Integer.Power

namespace PrimeOrder.Integer

theorem powModNat_eq (base exponent modulus : ℕ) :
    powModNat base exponent modulus = base ^ exponent % modulus := by
  fun_induction powModNat base exponent modulus with
  | case1 => rw [pow_zero]
  | case2 e hzero root square heven ih =>
    have hsplit : base ^ e = base ^ (e / 2) * base ^ (e / 2) := by
      rw [← pow_add]
      congr 1
      omega
    simp only [square, root]
    rw [ih, hsplit, ← Nat.mul_mod]
  | case3 e hzero root square hodd ih =>
    have hsplit : base ^ e = base ^ (e / 2) * base ^ (e / 2) * base := by
      rw [← pow_add, ← pow_succ]
      congr 1
      omega
    simp only [square, root]
    rw [ih, hsplit, ← Nat.mul_mod, Nat.mod_mul_mod]

theorem powModNat_eq_val {modulus : ℕ} (base exponent : ℕ) :
    powModNat base exponent modulus = ((base : ZMod modulus) ^ exponent).val := by
  rw [powModNat_eq, ← Nat.cast_pow, ZMod.val_natCast]

end PrimeOrder.Integer
