import Mathlib
import PrimeOrder.Integer.Primality

namespace PrimeOrder

/-- A prime among the integers is a natural prime. -/
theorem Integer.exists_prime_eq {n : ℤ} (hn : n.toNat.Prime) : ∃ p : ℕ, p.Prime ∧ n = p :=
  ⟨n.toNat, hn, (Int.toNat_of_nonneg (by have := hn.pos; omega)).symm⟩

namespace PrimalityTest

/-- Whether a test accepts primes only. -/
def IsSound (isPrime : PrimalityTest) : Prop :=
  ∀ x, isPrime x = true → x.toNat.Prime

/-- Whether a test accepts all primes. -/
def AcceptsPrimes (isPrime : PrimalityTest) : Prop :=
  ∀ x, x.toNat.Prime → isPrime x = true

/-- Whether a test accepts the primes and nothing else. -/
def Decides (isPrime : PrimalityTest) : Prop :=
  ∀ x, isPrime x = true ↔ x.toNat.Prime

theorem Decides.isSound {isPrime : PrimalityTest} (h : isPrime.Decides) : isPrime.IsSound :=
  fun x hx => (h x).mp hx

/-- Whether a test accepts no number below two. -/
def RejectsBelowTwo (isPrime : PrimalityTest) : Prop :=
  ∀ x, isPrime x = true → 2 ≤ x

theorem IsSound.rejectsBelowTwo {isPrime : PrimalityTest} (h : isPrime.IsSound) :
    isPrime.RejectsBelowTwo := by
  intro x hx
  have := (h x hx).two_le
  omega

/-- The test of the library need not be sound, but it never accepts a number below two. -/
theorem rejectsBelowTwo_millerRabin : RejectsBelowTwo Integer.millerRabin := by
  intro x hx
  by_contra hsmall
  rw [Integer.millerRabin, if_pos (by omega)] at hx
  cases hx

/-- Two tests that decide primality give the same answers. -/
theorem Decides.eq {isPrime isPrime' : PrimalityTest} (h : isPrime.Decides) (h' : isPrime'.Decides) :
    isPrime = isPrime' := by
  funext x
  rw [Bool.eq_iff_iff, h x, h' x]

/-- Trial division is a test that decides primality. -/
theorem decides_trialDivision : PrimalityTest.Decides fun x => decide x.toNat.Prime :=
  fun _ => decide_eq_true_iff

end PrimalityTest

end PrimeOrder
