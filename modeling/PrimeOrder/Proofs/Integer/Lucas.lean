import Mathlib
import PrimeOrder.Proofs.Integer.Power

namespace PrimeOrder.Integer

variable {base n : ℕ}

theorem pow_eq_natCast_iff {m : ℕ} (hm : m < n) (k : ℕ) :
    (base : ZMod n) ^ k = m ↔ powModNat base k n = m := by
  have : NeZero n := ⟨by omega⟩
  rw [powModNat_eq_val, ← (ZMod.val_injective n).eq_iff, ZMod.val_natCast_of_lt hm]

/-- A base has the order `n - 1` if its power by the half of that is minus one and that by the quotient
    by any odd prime factor is not one. -/
theorem prime_of_powModNat (base : ℕ) {factors : List ℕ} (hn : 2 < n) (hodd : n % 2 = 1)
    (hfactors : ∀ r, r.Prime → r ∣ n - 1 → r = 2 ∨ r ∈ factors)
    (hhalf : powModNat base ((n - 1) / 2) n = n - 1)
    (hquotients : ∀ r ∈ factors, powModNat base ((n - 1) / r) n ≠ 1) : n.Prime := by
  have : Fact (2 < n) := ⟨hn⟩
  have hminus : (base : ZMod n) ^ ((n - 1) / 2) = -1 := by
    rw [(pow_eq_natCast_iff (by omega) _).mpr hhalf, Nat.cast_sub (by omega), ZMod.natCast_self,
      zero_sub, Nat.cast_one]
  refine lucas_primality n base ?_ fun r hr hdvd => ?_
  · rw [show n - 1 = (n - 1) / 2 * 2 by omega, pow_mul, hminus, neg_one_sq]
  · rcases hfactors r hr hdvd with rfl | hmem
    · rw [hminus]
      exact ZMod.neg_one_ne_one
    · have hone : (base : ZMod n) ^ ((n - 1) / r) = (1 : ℕ) ↔ _ :=
        pow_eq_natCast_iff (by omega) _
      rw [Nat.cast_one] at hone
      exact mt hone.mp (hquotients r hmem)

/-- Before a number next to a multiple of a power of two stand no prime factors but two and those of the
    multiplier. -/
theorem prime_mul_two_pow_add_one (base : ℕ) {c k : ℕ} {factors : List ℕ} (hc : 0 < c) (hk : 0 < k)
    (hfactors : ∀ r, r.Prime → r ∣ c → r ∈ factors)
    (hhalf : powModNat base (c * 2 ^ k / 2) (c * 2 ^ k + 1) = c * 2 ^ k)
    (hquotients : ∀ r ∈ factors, powModNat base (c * 2 ^ k / r) (c * 2 ^ k + 1) ≠ 1) :
    (c * 2 ^ k + 1).Prime := by
  obtain ⟨half, hdouble⟩ : ∃ half, c * 2 ^ k = 2 * half :=
    (dvd_pow_self 2 hk.ne').mul_left c
  have hpos : 0 < c * 2 ^ k := by positivity
  have hall : ∀ r, r.Prime → r ∣ c * 2 ^ k + 1 - 1 → r = 2 ∨ r ∈ factors := by
    intro r hr hdvd
    rw [Nat.add_sub_cancel] at hdvd
    rcases hr.dvd_mul.mp hdvd with h | h
    · exact .inr (hfactors r hr h)
    · exact .inl ((Nat.prime_dvd_prime_iff_eq hr Nat.prime_two).mp (hr.dvd_of_dvd_pow h))
  refine prime_of_powModNat base (by omega) (by omega) hall ?_ ?_
  · rwa [Nat.add_sub_cancel]
  · rwa [Nat.add_sub_cancel]

/-- The double of a prime and one are a safe prime if two is no square modulo it. -/
theorem prime_two_mul_add_one {q : ℕ} (hq : q.Prime)
    (hhalf : powModNat 2 q (2 * q + 1) = 2 * q) : (2 * q + 1).Prime := by
  have hpos := hq.two_le
  have hfour : powModNat 2 2 (2 * q + 1) ≠ 1 := by
    rw [powModNat_eq, Nat.mod_eq_of_lt (by omega)]
    decide
  have hfactors : ∀ r, r.Prime → r ∣ 2 * q → r = 2 ∨ r ∈ [q] := by
    intro r hr hdvd
    rcases hr.dvd_mul.mp hdvd with h | h
    · exact .inl ((Nat.prime_dvd_prime_iff_eq hr Nat.prime_two).mp h)
    · exact .inr (List.mem_singleton.mpr ((Nat.prime_dvd_prime_iff_eq hr hq).mp h))
  have hdouble : 2 * q + 1 - 1 = 2 * q := by omega
  rw [← hdouble] at hfactors
  refine prime_of_powModNat 2 (by omega) (by omega) hfactors ?_ ?_
  · rwa [hdouble, Nat.mul_div_cancel_left _ two_pos]
  · rwa [List.forall_mem_singleton, hdouble, Nat.mul_div_cancel _ (by omega)]

end PrimeOrder.Integer
