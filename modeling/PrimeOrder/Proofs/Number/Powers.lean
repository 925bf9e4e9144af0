import Mathlib
import PrimeOrder.Integer.Power
import PrimeOrder.Proofs.Integer.Power
import PrimeOrder.Proofs.Number.Inverse

namespace PrimeOrder

namespace Integer

/-- A power has the sign of its base if the exponent is odd. -/
theorem signed_natAbs_pow (base : ℤ) (e : ℕ) :
    (if base < 0 ∧ (e : ℤ) % 2 = 1 then -((base.natAbs ^ e : ℕ) : ℤ) else (base.natAbs ^ e : ℕ)) =
      base ^ e := by
  rcases lt_or_ge base 0 with hneg | hnonneg
  · obtain ⟨m, rfl⟩ : ∃ m : ℕ, base = -m := ⟨base.natAbs, by omega⟩
    rw [Int.natAbs_neg, Int.natAbs_natCast, Nat.cast_pow]
    rcases Nat.even_or_odd e with heven | hodd
    · have hmod : ¬(e : ℤ) % 2 = 1 := by
        rw [Nat.even_iff] at heven
        omega
      rw [if_neg fun h => hmod h.2, heven.neg_pow]
    · have hmod : (e : ℤ) % 2 = 1 := by
        rw [Nat.odd_iff] at hodd
        omega
      rw [if_pos ⟨hneg, hmod⟩, hodd.neg_pow]
  · rw [if_neg fun h => hnonneg.not_gt h.1, Nat.cast_pow, Int.natAbs_of_nonneg hnonneg]

/-- The exact power is there unless it grows beyond all bounds. -/
theorem powExact_natCast (base : ℤ) (e : ℕ) :
    powExact base e =
      if base.natAbs ≤ 1 ∨ e < 2 ^ 64 then .ok (base ^ e) else .error .exponentTooLarge := by
  rw [powExact, if_neg (Int.natCast_nonneg e).not_gt]
  by_cases hzero : e = 0
  · rw [hzero, if_pos Nat.cast_zero, if_pos (.inr (by norm_num)), pow_zero]
  rw [if_neg (by exact_mod_cast hzero)]
  by_cases hfixed : base = 0 ∨ base = 1
  · have hpower : base ^ e = base := by
      rcases hfixed with rfl | rfl
      · exact zero_pow hzero
      · exact one_pow e
    rw [if_pos hfixed, if_pos (.inl (by omega)), hpower]
  rw [if_neg hfixed]
  by_cases hsign : base = -1
  · have hpower : (-1 : ℤ) ^ e = if (e : ℤ) % 2 = 0 then 1 else -1 := by
      rw [neg_one_pow_eq_ite]
      refine if_congr ?_ rfl rfl
      rw [Nat.even_iff]
      omega
    rw [if_pos hsign, hsign, hpower]
    rfl
  rw [if_neg hsign]
  by_cases hlarge : unsignedWordBound ≤ e
  · rw [if_pos hlarge, if_neg]
    unfold unsignedWordBound at hlarge
    omega
  · rw [if_neg hlarge, if_pos]
    · exact congrArg Except.ok (signed_natAbs_pow base e)
    · unfold unsignedWordBound at hlarge
      omega

section Modulus

variable {base modulus : ℤ} (hmodulus : 0 < modulus)
include hmodulus

theorem powMod_natCast (e : ℕ) : powMod base e modulus = .ok (base ^ e % modulus) := by
  obtain ⟨n, rfl⟩ := Int.eq_ofNat_of_zero_le hmodulus.le
  have hstart : ((base % n).toNat : ℤ) = base % n := Int.toNat_of_nonneg (Int.emod_nonneg _ hmodulus.ne')
  have hpower : (base % n) ^ e % n = base ^ e % n := (Int.mod_modEq base n).pow e
  rw [powMod, if_neg hmodulus.not_ge, residuePower]
  simp only [Int.natAbs_natCast, Int.toNat_natCast, if_pos (Int.natCast_nonneg e), powModNat_eq]
  rw [Int.fmod_eq_emod_of_nonneg _ hmodulus.le, Int.natCast_mod, Nat.cast_pow, hstart,
    Int.emod_emod_of_dvd _ dvd_rfl, hpower]

theorem reciprocal?_eq :
    reciprocal? base modulus =
      if Int.gcd base modulus = 1 then some (inverseResidue base modulus).toNat else none := by
  have hsize : (modulus.natAbs : ℤ) = modulus := Int.natAbs_of_nonneg hmodulus.le
  simp only [reciprocal?, hsize, divisor_xgcd_eq_gcd hmodulus, gcd_fmod hmodulus, Nat.cast_eq_one]
  rfl

/-- A negative exponent raises the inverse of the base, if there is one. -/
theorem powMod_of_neg {exponent : ℤ} (hneg : exponent < 0) :
    powMod base exponent modulus =
      if Int.gcd base modulus = 1 then powMod (inverseResidue base modulus) (-exponent) modulus
      else .error .baseNotInvertible := by
  have hsize : (modulus.natAbs : ℤ) = modulus := Int.natAbs_of_nonneg hmodulus.le
  rw [powMod, if_neg hmodulus.not_ge, residuePower]
  simp only [if_neg hneg.not_ge, hsize, reciprocal?_eq hmodulus]
  split_ifs with hcoprime
  · have hinverse : inverseResidue base modulus % modulus = inverseResidue base modulus :=
      Int.emod_eq_of_lt (Int.fmod_nonneg_of_pos _ hmodulus) (Int.fmod_lt_of_pos _ hmodulus)
    have hexponent : (-exponent).toNat = exponent.natAbs := by omega
    rw [powMod, if_neg hmodulus.not_ge, residuePower]
    simp only [if_pos (Int.neg_nonneg_of_nonpos hneg.le), hinverse, hexponent]
  · rfl

end Modulus

section Units

variable {n : ℕ} [NeZero n] {base : ℤ}

theorem powMod_natCast_eq_val_pow {a : ZMod n} (ha : a = base) (e : ℕ) :
    powMod base e n = .ok (a ^ e).val := by
  have hpos : (0 : ℤ) < n := by exact_mod_cast Nat.pos_of_neZero n
  rw [powMod_natCast hpos, ha, ← Int.cast_pow, ZMod.val_intCast]

variable {u : (ZMod n)ˣ} (hu : (u : ZMod n) = base)
include hu

omit [NeZero n] in
theorem isCoprime_of_unit : IsCoprime base n := by
  rw [isCoprime_comm, ← ZMod.coe_int_isUnit_iff_isCoprime, ← hu]
  exact u.isUnit

theorem inv_eq_inverseResidue : ((u⁻¹ : (ZMod n)ˣ) : ZMod n) = inverseResidue base n := by
  have hpos : (0 : ℤ) < n := by exact_mod_cast Nat.pos_of_neZero n
  have hone : ((base * inverseResidue base n : ℤ) : ZMod n) = (1 : ℤ) :=
    (ZMod.intCast_eq_intCast_iff _ _ n).mpr (mul_inverseResidue_modEq hpos (isCoprime_of_unit hu))
  rw [Int.cast_mul, Int.cast_one, ← hu, mul_comm] at hone
  exact (Units.eq_inv_of_mul_eq_one_right hone).symm

/-- For an invertible base the residues of powers are the powers of a unit. -/
theorem powMod_eq_val_zpow (exponent : ℤ) :
    powMod base exponent n = .ok ((u ^ exponent : (ZMod n)ˣ) : ZMod n).val := by
  have hpos : (0 : ℤ) < n := by exact_mod_cast Nat.pos_of_neZero n
  rcases lt_or_ge exponent 0 with hneg | hnonneg
  · -- the inverse is raised to a natural exponent then
    obtain ⟨e, he⟩ : ∃ e : ℕ, -exponent = e := Int.eq_ofNat_of_zero_le (by omega)
    have hcoprime := Int.isCoprime_iff_gcd_eq_one.mp (isCoprime_of_unit hu)
    have hunit : u ^ exponent = u⁻¹ ^ e := by
      rw [← zpow_natCast, ← he, inv_zpow, zpow_neg, inv_inv]
    rw [powMod_of_neg hpos hneg, if_pos hcoprime, he,
      powMod_natCast_eq_val_pow (inv_eq_inverseResidue hu), hunit, Units.val_pow_eq_pow_val]
  · obtain ⟨e, rfl⟩ := Int.eq_ofNat_of_zero_le hnonneg
    rw [powMod_natCast_eq_val_pow hu, zpow_natCast, Units.val_pow_eq_pow_val]

end Units

/-- Exponents of either sign add up for an invertible base. -/
theorem powMod_add {base modulus : ℤ} (hmodulus : 0 < modulus) (hcoprime : IsCoprime base modulus)
    (j k : ℤ) :
    ∃ x y z, powMod base j modulus = .ok x ∧ powMod base k modulus = .ok y ∧
      powMod base (j + k) modulus = .ok z ∧ z = x * y % modulus := by
  obtain ⟨n, rfl⟩ := Int.eq_ofNat_of_zero_le hmodulus.le
  have : NeZero n := ⟨by omega⟩
  obtain ⟨u, hu⟩ := (ZMod.coe_int_isUnit_iff_isCoprime base n).mpr (isCoprime_comm.mp hcoprime)
  refine ⟨_, _, _, powMod_eq_val_zpow hu j, powMod_eq_val_zpow hu k, powMod_eq_val_zpow hu (j + k), ?_⟩
  rw [zpow_add, Units.val_mul, ZMod.val_mul]
  rfl

theorem powMod_of_nonpos {base exponent modulus : ℤ} (hmodulus : modulus ≤ 0) :
    powMod base exponent modulus = .error .nonPositiveModulus :=
  if_pos hmodulus

theorem exists_powMod_eq_ok {modulus : ℤ} (hmodulus : 0 < modulus) (base : ℤ) (e : ℕ) :
    ∃ r, powMod base e modulus = .ok r ∧ 0 ≤ r ∧ r < modulus :=
  ⟨_, powMod_natCast hmodulus e, Int.emod_nonneg _ hmodulus.ne', Int.emod_lt_of_pos _ hmodulus⟩

/-- Modulo a positive integer every power is there but those of a base without an inverse to negative
    exponents. -/
theorem powMod_cases {base modulus : ℤ} (hmodulus : 0 < modulus) (exponent : ℤ) :
    (∃ r, powMod base exponent modulus = .ok r ∧ 0 ≤ r ∧ r < modulus) ∨
      exponent < 0 ∧ Int.gcd base modulus ≠ 1 ∧
        powMod base exponent modulus = .error .baseNotInvertible := by
  rcases lt_or_ge exponent 0 with hneg | hnonneg
  · rw [powMod_of_neg hmodulus hneg]
    obtain ⟨e, he⟩ : ∃ e : ℕ, -exponent = e := Int.eq_ofNat_of_zero_le (by omega)
    split_ifs with hcoprime
    · rw [he]
      exact .inl (exists_powMod_eq_ok hmodulus _ e)
    · exact .inr ⟨hneg, hcoprime, rfl⟩
  · obtain ⟨e, rfl⟩ := Int.eq_ofNat_of_zero_le hnonneg
    exact .inl (exists_powMod_eq_ok hmodulus base e)

theorem exists_powMod_invalid_iff {base exponent modulus : ℤ} :
    (∃ e, powMod base exponent modulus = .error e ∧ e.report.1 = .invalidArgument) ↔ modulus ≤ 0 := by
  rcases le_or_gt modulus 0 with hnonpos | hpos
  · exact ⟨fun _ => hnonpos, fun _ => ⟨_, powMod_of_nonpos hnonpos, rfl⟩⟩
  · rw [iff_false_right hpos.not_ge]
    rintro ⟨e, he, hkind⟩
    rcases powMod_cases hpos exponent with ⟨r, hr, -⟩ | ⟨-, -, hrefused⟩
    · rw [hr] at he
      cases he
    · rw [hrefused] at he
      cases he
      cases hkind

end Integer

namespace Number

open Integer (powExact powMod)

/-- Whether the residues of the powers of a number are those of its exact powers and of the powers of its
    inverse, wherever there are such, and are refused for a negative exponent only where there is no
    inverse. -/
structure RaisesExactly (base modulus : Number) : Prop where
  bounds : ∀ e : ℕ, ∃ r, powMod base.toInt e modulus.toInt = .ok r ∧ 0 ≤ r ∧ r < modulus.toInt
  exact : ∀ e : ℕ, base.toInt.natAbs ≤ 1 ∨ e < 2 ^ 64 → ∃ power, powExact base.toInt e = .ok power ∧
    powMod base.toInt e modulus.toInt = .ok (power % modulus.toInt)
  beyond : ∀ e : ℕ, ¬(base.toInt.natAbs ≤ 1 ∨ e < 2 ^ 64) → ∃ refusal,
    powExact base.toInt e = .error refusal ∧ refusal.report = (.value, "pow() outrageous exponent")
  answers_iff : ∀ e < 0, (∃ r, powMod base.toInt e modulus.toInt = .ok r) ↔
    ∃ inverse, modInverse base modulus = .ok inverse
  inverse : ∀ e < 0, ∀ inverse, modInverse base modulus = .ok inverse →
    powMod base.toInt e modulus.toInt = powMod inverse.toInt (-e) modulus.toInt
  refused : ∀ e < 0, ∀ cause, modInverse base modulus = .error cause → cause.kind = .arithmeticDomain ∧
    ∃ refusal, powMod base.toInt e modulus.toInt = .error refusal ∧
      refusal.report = (.value, "pow() base not invertible")
  add : ∀ inverse, modInverse base modulus = .ok inverse → ∀ j k, ∃ x y z,
    powMod base.toInt j modulus.toInt = .ok x ∧ powMod base.toInt k modulus.toInt = .ok y ∧
      powMod base.toInt (j + k) modulus.toInt = .ok z ∧ z = x * y % modulus.toInt

section Modulus

variable {base modulus : Number} (hmodulus : 0 < modulus.toInt)
include hmodulus

/-- A number has the inverse that its powers to negative exponents are taken of, or none at all. -/
theorem modInverse_dichotomy :
    (Int.gcd base.toInt modulus.toInt = 1 ∧ ∃ inverse, modInverse base modulus = .ok inverse ∧
      inverse.toInt = Integer.inverseResidue base.toInt modulus.toInt) ∨
    Int.gcd base.toInt modulus.toInt ≠ 1 ∧
      ∃ divisor, modInverse base modulus = .error (.noInverse base modulus divisor) := by
  by_cases hcoprime : IsCoprime base.toInt modulus.toInt
  · obtain ⟨inverse, hok, hinverse⟩ := exists_modInverse_eq_ok hmodulus hcoprime
    exact .inl ⟨Int.isCoprime_iff_gcd_eq_one.mp hcoprime, inverse, hok,
      hinverse.eq (Integer.isInverse_inverseResidue hmodulus hcoprime)⟩
  · obtain ⟨divisor, herror, -⟩ := exists_modInverse_eq_error hmodulus hcoprime
    exact .inr ⟨mt Int.isCoprime_iff_gcd_eq_one.mpr hcoprime, divisor, herror⟩

theorem raisesExactly : base.RaisesExactly modulus := by
  constructor
  case bounds => exact Integer.exists_powMod_eq_ok hmodulus base.toInt
  case exact =>
    intro e hsmall
    refine ⟨base.toInt ^ e, ?_, Integer.powMod_natCast hmodulus e⟩
    rw [Integer.powExact_natCast, if_pos hsmall]
  case beyond =>
    intro e hlarge
    refine ⟨.exponentTooLarge, ?_, rfl⟩
    rw [Integer.powExact_natCast, if_neg hlarge]
  case answers_iff =>
    intro e he
    rcases modInverse_dichotomy hmodulus with ⟨hcoprime, b, hb, -⟩ | ⟨hcommon, divisor, hnone⟩
    · rcases Integer.powMod_cases hmodulus e with ⟨r, hr, -⟩ | ⟨-, hcommon, -⟩
      · exact ⟨fun _ => ⟨b, hb⟩, fun _ => ⟨r, hr⟩⟩
      · exact absurd hcoprime hcommon
    · simp [hnone, Integer.powMod_of_neg hmodulus he, hcommon]
  case inverse =>
    intro e he b hb
    rcases modInverse_dichotomy hmodulus with ⟨hcoprime, c, hc, heq⟩ | ⟨-, divisor, hnone⟩
    · rw [hb, Except.ok.injEq] at hc
      rw [Integer.powMod_of_neg hmodulus he, if_pos hcoprime, hc, heq]
    · rw [hb] at hnone
      cases hnone
  case refused =>
    intro e he cause hcause
    rcases modInverse_dichotomy hmodulus with ⟨-, b, hb, -⟩ | ⟨hcommon, divisor, hnone⟩
    · rw [hcause] at hb
      cases hb
    · rw [hcause, Except.error.injEq] at hnone
      have hrefused : powMod base.toInt e modulus.toInt = .error .baseNotInvertible := by
        rw [Integer.powMod_of_neg hmodulus he, if_neg hcommon]
      exact ⟨hnone ▸ rfl, _, hrefused, rfl⟩
  case add =>
    intro b hb
    rcases modInverse_dichotomy hmodulus with ⟨hcoprime, -⟩ | ⟨-, divisor, hnone⟩
    · exact Integer.powMod_add hmodulus (Int.isCoprime_iff_gcd_eq_one.mpr hcoprime)
    · rw [hb] at hnone
      cases hnone

end Modulus

/-- A power modulo a number is refused for the modulus exactly if that is not positive. Otherwise it is the
    residue of the exact power or a power of the inverse. -/
theorem powers_agree (base modulus : Number) :
    (∀ e, (∃ refusal, powMod base.toInt e modulus.toInt = .error refusal ∧
      refusal.report.1 = .invalidArgument) ↔ modulus.toInt ≤ 0) ∧
    (0 < modulus.toInt → base.RaisesExactly modulus) :=
  ⟨fun _ => Integer.exists_powMod_invalid_iff, raisesExactly⟩

/-- Powers of three modulo seven, and of six modulo nine, where it has no inverse. -/
theorem powers_agree_seven :
    (0 < (7 : ℤ) ∧ 0 < (9 : ℤ)) ∧
    (∃ power, powExact 3 (5 : ℕ) = .ok power ∧ powMod 3 (5 : ℕ) 7 = .ok (power % 7)) ∧
    (∃ inverse, modInverse (3 : ℤ) (7 : ℤ) = .ok inverse ∧ inverse = (5 : ℤ) ∧
      powMod 3 (-2) 7 = powMod inverse.toInt 2 7 ∧
      ∃ x y z, powMod 3 (-2) 7 = .ok x ∧ powMod 3 5 7 = .ok y ∧ powMod 3 (-2 + 5) 7 = .ok z ∧
        z = x * y % 7) ∧
    (∃ cause, modInverse (6 : ℤ) (9 : ℤ) = .error cause ∧ cause.kind = .arithmeticDomain ∧
      ∃ refusal, powMod 6 (-1) 9 = .error refusal ∧
        refusal.report = (.value, "pow() base not invertible")) ∧
    ∃ refusal, powMod 3 (-2) (-7) = .error refusal ∧ refusal.report.1 = .invalidArgument := by
  have hinverse : modInverse (3 : ℤ) (7 : ℤ) = .ok (5 : ℤ) := by decide +kernel
  have hnone : modInverse (6 : ℤ) (9 : ℤ) = .error (.noInverse (6 : ℤ) (9 : ℤ) (3 : ℤ)) := by
    decide +kernel
  have hseven := (powers_agree (3 : ℤ) (7 : ℤ)).2 (by decide)
  have hnine := (powers_agree (6 : ℤ) (9 : ℤ)).2 (by decide)
  refine ⟨⟨by decide, by decide⟩, hseven.exact 5 (.inr (by norm_num)), ⟨_, hinverse, rfl, ?_, ?_⟩,
    ⟨_, hnone, hnine.refused (-1) (by decide) _ hnone⟩, ?_⟩
  · exact hseven.inverse (-2) (by decide) _ hinverse
  · exact hseven.add _ hinverse (-2) 5
  · exact ((powers_agree (3 : ℤ) (-7 : ℤ)).1 (-2)).mpr (by decide)

/-- The refusal of a power without an inverse is none of a division by zero, and an exact power that is too
    large is refused although its residue is there. -/
theorem not_raised_as_division_two :
    ((∃ cause, modInverse (2 : ℤ) (4 : ℤ) = .error cause ∧ cause.report.1 = .arithmeticDomain) ∧
      ¬∃ refusal, powMod 2 (-1) 4 = .error refusal ∧ refusal.report.1 = .zeroDivision) ∧
    (∃ r, powMod 2 (2 ^ 64 : ℕ) 3 = .ok r) ∧ ¬∃ power, powExact 2 (2 ^ 64 : ℕ) = .ok power := by
  have hnone : modInverse (2 : ℤ) (4 : ℤ) = .error (.noInverse (2 : ℤ) (4 : ℤ) (2 : ℤ)) := by
    decide +kernel
  obtain ⟨-, refusal, hrefused, hreport⟩ := (raisesExactly (by decide)).refused (-1) (by decide) _ hnone
  obtain ⟨r, hr, -⟩ := Integer.exists_powMod_eq_ok (show (0 : ℤ) < 3 by decide) 2 (2 ^ 64)
  refine ⟨⟨⟨_, hnone, by decide⟩, ?_⟩, ⟨r, hr⟩, ?_⟩
  · rintro ⟨cause, hcause, hkind⟩
    cases hrefused.symm.trans hcause
    rw [hreport] at hkind
    cases hkind
  · rintro ⟨power, hpower⟩
    rw [Integer.powExact_natCast, if_neg (by norm_num)] at hpower
    cases hpower

end Number

end PrimeOrder
