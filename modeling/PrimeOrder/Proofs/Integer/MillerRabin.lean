import Mathlib
import PrimeOrder.Proofs.Integer.Power
import PrimeOrder.Proofs.Integer.Primality

namespace PrimeOrder

namespace Integer

theorem oddPart_mul_two_pow (n : ℕ) : (oddPart n).1 * 2 ^ (oddPart n).2 = n := by
  fun_induction oddPart n with
  | case1 n h => rw [pow_zero, mul_one]
  | case2 n h half ih =>
    have heven : n % 2 = 0 := by omega
    rw [pow_succ, ← mul_assoc, ih]
    omega

section Prime

variable {p : ℕ} [Fact p.Prime]

theorem val_eq_sub_one_of_eq_neg_one {y : ZMod p} (hy : y = -1) : y.val = p - 1 := by
  obtain ⟨n, rfl⟩ : ∃ n, p = n + 1 := Nat.exists_eq_add_one.mpr (Fact.out : p.Prime).pos
  rw [hy, ZMod.val_neg_one, Nat.add_sub_cancel]

/-- Squarings that end at one start there or pass through `-1` before. -/
theorem eq_one_or_reachesMinusOne {y : ZMod p} {count : ℕ} (hy : y ^ 2 ^ count = 1) :
    y = 1 ∨ reachesMinusOne p y.val count = true := by
  induction count generalizing y with
  | zero => exact .inl (by rwa [pow_zero, pow_one] at hy)
  | succ count ih =>
    have hsquare : (y * y) ^ 2 ^ count = 1 := by rwa [← pow_two, ← pow_mul, ← pow_succ']
    rw [reachesMinusOne, Bool.or_eq_true, beq_iff_eq]
    rcases ih hsquare with hone | hreaches
    · rcases mul_self_eq_one_iff.mp hone with hone | hminus
      · exact .inl hone
      · exact .inr (.inl (val_eq_sub_one_of_eq_neg_one hminus))
    · rw [ZMod.val_mul] at hreaches
      exact .inr (.inr hreaches)

theorem passesBase_of_prime (base : ℕ) : passesBase p base = true := by
  rw [passesBase]
  by_cases hresidue : base % p = 0
  · exact if_pos hresidue
  · have hne : ((base % p : ℕ) : ZMod p) ≠ 0 := by
      rwa [Ne, ZMod.natCast_mod, ZMod.natCast_eq_zero_iff, Nat.dvd_iff_mod_eq_zero]
    have hfermat : (((base % p : ℕ) : ZMod p) ^ (oddPart (p - 1)).1) ^ 2 ^ (oddPart (p - 1)).2 = 1 := by
      rw [← pow_mul, oddPart_mul_two_pow, ZMod.pow_card_sub_one_eq_one hne]
    dsimp only
    rw [if_neg hresidue, powModNat_eq_val, Bool.or_eq_true, beq_iff_eq]
    rcases eq_one_or_reachesMinusOne hfermat with hone | hreaches
    · exact .inl (by rw [hone, ZMod.val_one])
    · exact .inr hreaches

theorem passesBases_of_prime : passesBases p = true := by
  simp [passesBases, passesBase_of_prime]

end Prime

/-- A prime that one of the divisors divides is that divisor. -/
theorem eq_of_find?_smallPrimes {p q : ℕ} (hp : p.Prime)
    (hq : smallPrimes.find? (fun q => p % q == 0) = some q) : p = q := by
  have hlarge : ∀ q ∈ smallPrimes, q ≠ 1 := by decide
  have hdvd : q ∣ p := Nat.dvd_of_mod_eq_zero (by simpa using List.find?_some hq)
  exact (((Nat.dvd_prime hp).mp hdvd).resolve_left (hlarge q (List.mem_of_find?_eq_some hq))).symm

end Integer

/-- The test of the library accepts every prime. -/
theorem PrimalityTest.acceptsPrimes_millerRabin : AcceptsPrimes Integer.millerRabin := by
  intro x hx
  have htwo := hx.two_le
  have : Fact x.toNat.Prime := ⟨hx⟩
  rw [Integer.millerRabin, if_neg (by omega)]
  dsimp only
  split
  · rename_i q hq
    exact beq_iff_eq.mpr (Integer.eq_of_find?_smallPrimes hx hq)
  · exact Integer.passesBases_of_prime

end PrimeOrder
