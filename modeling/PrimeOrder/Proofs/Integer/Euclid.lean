import Mathlib
import PrimeOrder.Integer.Euclid

namespace PrimeOrder.Integer

/-- Whatever the arguments of the run stand for as combinations of two fixed integers, its result is
    a combination of these integers. -/
theorem xgcdFrom_combines (a₀ b₀ : ℤ) {a b x₀ y₀ x₁ y₁ : ℤ} (ha : a₀ * x₀ + b₀ * y₀ = a)
    (hb : a₀ * x₁ + b₀ * y₁ = b) :
    a₀ * (xgcdFrom a b x₀ y₀ x₁ y₁).x + b₀ * (xgcdFrom a b x₀ y₀ x₁ y₁).y =
      (xgcdFrom a b x₀ y₀ x₁ y₁).divisor := by
  fun_induction xgcdFrom a b x₀ y₀ x₁ y₁ with
  | case1 => exact ha
  | case2 a b x₀ y₀ x₁ y₁ hzero quotient ih =>
    apply ih hb
    have hdiv := Int.mul_fdiv_add_fmod a b
    simp only [quotient]
    linear_combination ha - a.fdiv b * hb - hdiv

theorem natAbs_divisor_xgcdFrom (a b x₀ y₀ x₁ y₁ : ℤ) :
    (xgcdFrom a b x₀ y₀ x₁ y₁).divisor.natAbs = Int.gcd a b := by
  fun_induction xgcdFrom a b x₀ y₀ x₁ y₁ with
  | case1 => simp
  | case2 a b x₀ y₀ x₁ y₁ hzero quotient ih =>
    rw [ih]
    have hdiv := Int.mul_fdiv_add_fmod a b
    have hmod : a.fmod b = a - b * a.fdiv b := by omega
    rw [hmod, Int.gcd_comm, Int.gcd_sub_mul_left_left]

/-- With a positive second argument every remainder of the run is non-negative. -/
theorem divisor_xgcdFrom_nonneg {a b : ℤ} (x₀ y₀ x₁ y₁ : ℤ) (hb : 0 ≤ b) (ha : b = 0 → 0 ≤ a) :
    0 ≤ (xgcdFrom a b x₀ y₀ x₁ y₁).divisor := by
  fun_induction xgcdFrom a b x₀ y₀ x₁ y₁ with
  | case1 a => exact ha rfl
  | case2 a b x₀ y₀ x₁ y₁ hzero quotient ih =>
    have hpos : 0 < b := by omega
    exact ih (Int.fmod_nonneg_of_pos a hpos) fun _ => hb

theorem divisor_xgcd_eq_gcd {a b : ℤ} (hb : 0 < b) : (xgcd a b).divisor = Int.gcd a b := by
  have hnonneg := divisor_xgcdFrom_nonneg (a := a) 1 0 0 1 hb.le fun h => by omega
  have habs := natAbs_divisor_xgcdFrom a b 1 0 0 1
  unfold xgcd
  omega

theorem xgcd_combines (a b : ℤ) : a * (xgcd a b).x + b * (xgcd a b).y = (xgcd a b).divisor :=
  xgcdFrom_combines a b (by ring) (by ring)

/-- A value that is not zero modulo a prime has a reciprocal, the least representative of its
    inverse class. -/
theorem reciprocal?_eq_val_inv {p : ℕ} [Fact p.Prime] {value : ℤ} (hvalue : (value : ZMod p) ≠ 0) :
    reciprocal? value p = some (value : ZMod p)⁻¹.val := by
  have hpos : (0 : ℤ) < p := by exact_mod_cast (Fact.out : p.Prime).pos
  have hcast : ((value.fmod p : ℤ) : ZMod p) = value := by
    rw [Int.fmod_eq_emod_of_nonneg _ hpos.le, ZMod.intCast_mod]
  have hgcd : (xgcd (value.fmod p) p).divisor = 1 := by
    have hdvd : ¬ (p : ℤ) ∣ value.fmod p := by
      rwa [← ZMod.intCast_zmod_eq_zero_iff_dvd, hcast]
    have hcoprime := (Int.isCoprime_iff_gcd_eq_one.mp
      ((Nat.prime_iff_prime_int.mp Fact.out).coprime_iff_not_dvd.mpr hdvd))
    rw [divisor_xgcd_eq_gcd hpos, Int.gcd_comm, hcoprime, Nat.cast_one]
  have hinv : ((xgcd (value.fmod p) p).x : ZMod p) = (value : ZMod p)⁻¹ := by
    have h := congrArg (Int.cast : ℤ → ZMod p) (xgcd_combines (value.fmod p) p)
    rw [hgcd] at h
    exact eq_inv_of_mul_eq_one_right (by simpa [hcast] using h)
  simp only [reciprocal?, Int.natAbs_natCast, if_pos hgcd, Option.some.injEq]
  rw [← hinv, Int.fmod_eq_emod_of_nonneg _ hpos.le, ← ZMod.val_intCast, Int.toNat_natCast]

end PrimeOrder.Integer
