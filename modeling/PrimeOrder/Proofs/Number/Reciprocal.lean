import Mathlib
import PrimeOrder.Proofs.Field
import PrimeOrder.Proofs.Integer.Primality
import PrimeOrder.Proofs.Number.Inverse
import PrimeOrder.Value.Operand

namespace PrimeOrder

/-- The least representative of the inverse class is the inverse modulo the prime. -/
theorem Integer.isInverse_val_inv {p : ℕ} [Fact p.Prime] {a : ℤ} (ha : (a : ZMod p) ≠ 0) :
    IsInverse a p ((a : ZMod p)⁻¹.val : ℤ) := by
  refine ⟨Int.natCast_nonneg _, Int.ofNat_lt.mpr (ZMod.val_lt _), ?_⟩
  rw [← ZMod.intCast_eq_intCast_iff, Int.cast_mul, Int.cast_natCast, ZMod.natCast_zmod_val,
    mul_inv_cancel₀ ha, Int.cast_one]

/-- The multiples of a prime are what has something in common with it. -/
theorem Integer.isCoprime_natCast_iff {p : ℕ} (hp : p.Prime) {a : ℤ} :
    IsCoprime a p ↔ (a : ZMod p) ≠ 0 := by
  rw [isCoprime_comm, (Nat.prime_iff_prime_int.mp hp).coprime_iff_not_dvd, Ne,
    ZMod.intCast_zmod_eq_zero_iff_dvd]

/-- The reciprocal of a number is the inverse of its class. -/
theorem PrimeField.inverseOf_number {p : ℕ} [Fact p.Prime] (a : Number) :
    inverseOf ⟨p⟩ (.number a) =
      if (a.toInt : ZMod p) = 0 then .error .zeroHasNoInverse
      else .ok (.native (a.toInt : ZMod p)⁻¹.val) := by
  change (do let reciprocal ← inverse ⟨p⟩ a.toInt; pure (Number.native reciprocal)) = _
  rw [FieldElement.inverse_eq]
  split_ifs <;> rfl

namespace Number

/-- Whether the inverse modulo a prime and the reciprocal in the field of that prime are the same: both
    are there for all numbers but the multiples of the prime, and these are outside the domain of both. A
    number that is too long for the refusal to be written is refused all the same. -/
structure AgreesWithField (a p : Number) : Prop where
  reciprocal : ¬p.toInt ∣ a.toInt → ∃ b, modInverse a p = .ok b ∧
    PrimeField.inverseOf ⟨p.toInt⟩ (.number a) = .ok (.native b.toInt)
  refusal : p.toInt ∣ a.toInt → ∃ e f, modInverse a p = .error e ∧
    PrimeField.inverseOf ⟨p.toInt⟩ (.number a) = .error f ∧ f.report.1 = .arithmeticDomain ∧
    e.report.1 = if a.isLong || p.isLong then .value else .arithmeticDomain

section Modulus

variable {a n : Number}

theorem modInverse_of_nonpos (hn : n.toInt ≤ 0) :
    modInverse a n = .error .nonPositiveModulus := by
  rw [modInverse, Integer.modInverse, if_pos hn]

/-- What has something in common with a positive modulus is refused with what that is. -/
theorem exists_modInverse_eq_refusal (hn : 0 < n.toInt) (hcommon : Int.gcd a.toInt n.toInt ≠ 1) :
    ∃ e, modInverse a n = .error e ∧
      e.report = if a.isLong || n.isLong then Error.decimalTooLong.report
        else (.arithmeticDomain, "No inverse: gcd(" ++ a.text ++ ", " ++ n.text ++ ") = " ++
          toString (Int.gcd a.toInt n.toInt)) := by
  obtain ⟨divisor, herror, htext, hshown⟩ :=
    exists_modInverse_eq_error hn (mt Int.isCoprime_iff_gcd_eq_one.mp hcommon)
  refine ⟨_, herror, ?_⟩
  rw [Error.report, hshown]
  split_ifs
  · rfl
  · rw [← htext]
    rfl

/-- Every number is refused for the modulus, or for what it has in common with it, or has an inverse. -/
theorem modInverse_cases (a n : Number) :
    (n.toInt ≤ 0 ∧ modInverse a n = .error .nonPositiveModulus) ∨
    (0 < n.toInt ∧ Int.gcd a.toInt n.toInt ≠ 1 ∧ ∃ e, modInverse a n = .error e ∧
      e.report.1 = if a.isLong || n.isLong then .value else .arithmeticDomain) ∨
    0 < n.toInt ∧ Int.gcd a.toInt n.toInt = 1 ∧ ∃ b, modInverse a n = .ok b := by
  rcases le_or_gt n.toInt 0 with hn | hn
  · exact .inl ⟨hn, modInverse_of_nonpos hn⟩
  · by_cases hcoprime : Int.gcd a.toInt n.toInt = 1
    · obtain ⟨b, hb, -⟩ := exists_modInverse_eq_ok hn (Int.isCoprime_iff_gcd_eq_one.mpr hcoprime)
      exact .inr (.inr ⟨hn, hcoprime, b, hb⟩)
    · obtain ⟨e, he, hreport⟩ := exists_modInverse_eq_refusal hn hcoprime
      refine .inr (.inl ⟨hn, hcoprime, e, he, ?_⟩)
      rw [hreport]
      split_ifs <;> rfl

theorem exists_modInverse_invalid_iff :
    (∃ e, modInverse a n = .error e ∧ e.report.1 = .invalidArgument) ↔ n.toInt ≤ 0 := by
  constructor
  · rintro ⟨e, he, hkind⟩
    rcases modInverse_cases a n with ⟨hn, -⟩ | ⟨-, -, e', he', hkind'⟩ | ⟨-, -, b, hb⟩
    · exact hn
    · rw [he', Except.error.injEq] at he
      rw [he, hkind] at hkind'
      split_ifs at hkind'
    · rw [hb] at he
      cases he
  · exact fun hn => ⟨_, modInverse_of_nonpos hn, rfl⟩

theorem exists_modInverse_outside_iff :
    (∃ e, modInverse a n = .error e ∧ e.report.1 = .arithmeticDomain) ↔
      0 < n.toInt ∧ Int.gcd a.toInt n.toInt ≠ 1 ∧ (a.isLong || n.isLong) = false := by
  rcases modInverse_cases a n with ⟨hn, h⟩ | ⟨hn, hcommon, e, h, hkind⟩ | ⟨-, hcoprime, b, h⟩
  · simp [h, hn.not_gt, Error.report, Error.shown, Error.numbers, Error.kind]
  · cases hlong : a.isLong || n.isLong with
    | true => simp [h, hkind, hlong]
    | false => simp [h, hkind, hlong, hn, hcommon]
  · simp [h, hcoprime]

/-- Both ways to the inverse lead to the same one. -/
theorem agreesWithField_of_prime (hprime : n.toInt.toNat.Prime) : AgreesWithField a n := by
  obtain ⟨p, hprime, hp⟩ := Integer.exists_prime_eq hprime
  have : Fact p.Prime := ⟨hprime⟩
  have hn : 0 < n.toInt := by rw [hp]; exact_mod_cast hprime.pos
  have hdvd : n.toInt ∣ a.toInt ↔ (a.toInt : ZMod p) = 0 := by
    rw [hp, ZMod.intCast_zmod_eq_zero_iff_dvd]
  have hcoprime : IsCoprime a.toInt n.toInt ↔ (a.toInt : ZMod p) ≠ 0 := by
    rw [hp, Integer.isCoprime_natCast_iff hprime]
  constructor
  case reciprocal =>
    intro hnot
    rw [hdvd] at hnot
    obtain ⟨b, hb, hinverse⟩ := exists_modInverse_eq_ok hn (hcoprime.mpr hnot)
    have heq := hinverse.eq (hp ▸ Integer.isInverse_val_inv hnot)
    exact ⟨b, hb, by rw [hp, PrimeField.inverseOf_number, if_neg hnot, heq]⟩
  case refusal =>
    intro hmultiple
    rw [hdvd] at hmultiple
    have hcommon : Int.gcd a.toInt n.toInt ≠ 1 := by
      rw [Ne, ← Int.isCoprime_iff_gcd_eq_one, hcoprime]
      exact not_not.mpr hmultiple
    obtain ⟨e, he, hreport⟩ := exists_modInverse_eq_refusal hn hcommon
    refine ⟨e, .zeroHasNoInverse, he, ?_, rfl, ?_⟩
    · rw [hp, PrimeField.inverseOf_number, if_pos hmultiple]
    · rw [hreport]
      split_ifs <;> rfl

end Modulus

/-- A number is refused for its modulus exactly if that is not positive, and as one without an inverse
    exactly if it has something in common with a positive modulus and the refusal can be written. All other
    numbers have one inverse modulo a positive modulus, which is found. Modulo a prime it is the reciprocal
    in the field. -/
theorem modInverse_total (a n : Number) :
    ((∃ e, modInverse a n = .error e ∧ e.report.1 = .invalidArgument) ↔ n.toInt ≤ 0) ∧
    ((∃ e, modInverse a n = .error e ∧ e.report.1 = .arithmeticDomain) ↔
      0 < n.toInt ∧ Int.gcd a.toInt n.toInt ≠ 1 ∧ (a.isLong || n.isLong) = false) ∧
    (0 < n.toInt → Int.gcd a.toInt n.toInt ≠ 1 → ∃ e, modInverse a n = .error e ∧
      e.report = if a.isLong || n.isLong then Error.decimalTooLong.report
        else (.arithmeticDomain, "No inverse: gcd(" ++ a.text ++ ", " ++ n.text ++ ") = " ++
          toString (Int.gcd a.toInt n.toInt))) ∧
    (0 < n.toInt → Int.gcd a.toInt n.toInt = 1 → ∃ b, modInverse a n = .ok b ∧
      Integer.IsInverse a.toInt n.toInt b.toInt ∧
      ∀ c, Integer.IsInverse a.toInt n.toInt c → c = b.toInt) ∧
    (n.toInt.toNat.Prime → AgreesWithField a n) := by
  refine ⟨exists_modInverse_invalid_iff, exists_modInverse_outside_iff, exists_modInverse_eq_refusal,
    ?_, agreesWithField_of_prime⟩
  intro hn hcoprime
  obtain ⟨b, hb, hinverse⟩ := exists_modInverse_eq_ok hn (Int.isCoprime_iff_gcd_eq_one.mpr hcoprime)
  exact ⟨b, hb, hinverse, fun c hc => hc.eq hinverse⟩

/-- Modulo seven minus three has an inverse, the one in the field, and modulo nine six has none. -/
theorem modInverse_total_seven :
    (0 < (7 : ℤ) ∧ Int.gcd (-3) 7 = 1 ∧ Nat.Prime 7) ∧
    (∃ b, modInverse (-3 : ℤ) (7 : ℤ) = .ok b ∧ Integer.IsInverse (-3) 7 b.toInt ∧
      ∀ c, Integer.IsInverse (-3) 7 c → c = b.toInt) ∧
    AgreesWithField (-3 : ℤ) (7 : ℤ) ∧
    (0 < (9 : ℤ) ∧ Int.gcd 6 9 ≠ 1) ∧
    (∃ e, modInverse (6 : ℤ) (9 : ℤ) = .error e ∧
      e.report = (.arithmeticDomain, "No inverse: gcd(6, 9) = 3")) ∧
    ∃ e, modInverse (5 : ℤ) (0 : ℤ) = .error e ∧ e.report.1 = .invalidArgument := by
  have hprime : Nat.Prime 7 := by norm_num
  refine ⟨⟨by decide, by decide, hprime⟩, ?_, ?_, ⟨by decide, by decide⟩, ?_, ?_⟩
  · exact (modInverse_total (-3 : ℤ) (7 : ℤ)).2.2.2.1 (by decide) (by decide)
  · exact (modInverse_total (-3 : ℤ) (7 : ℤ)).2.2.2.2 hprime
  · obtain ⟨e, he, hreport⟩ := (modInverse_total (6 : ℤ) (9 : ℤ)).2.2.1 (by decide) (by decide)
    exact ⟨e, he, hreport.trans (by decide)⟩
  · exact (modInverse_total (5 : ℤ) (0 : ℤ)).1.mpr le_rfl

/-- Two is the inverse of minus three modulo seven. -/
example : modInverse (-3 : ℤ) (7 : ℤ) = .ok (2 : ℤ) := by cbv

/-- A number that is too long to be written is not refused as one without an inverse. -/
theorem not_refused_without_inverse_ten_pow :
    Int.gcd (10 ^ 4300) 2 ≠ 1 ∧
      ¬∃ e, modInverse (10 ^ 4300 : ℤ) (2 : ℤ) = .error e ∧ e.report.1 = .arithmeticDomain := by
  have heven : (2 : ℤ) ∣ 10 ^ 4300 := dvd_pow (by norm_num) (by norm_num)
  have hlong : Text.Numeral.isLong (10 ^ 4300) = true := Text.Numeral.isLong_ten_pow
  -- the power is not to be computed
  generalize (10 ^ 4300 : ℤ) = a at heven hlong ⊢
  constructor
  · intro hcoprime
    have hcommon : (2 : ℤ) ∣ Int.gcd a 2 := Int.dvd_coe_gcd heven dvd_rfl
    rw [hcoprime] at hcommon
    exact absurd hcommon (by decide)
  · intro hrefused
    obtain ⟨-, -, hshort⟩ := exists_modInverse_outside_iff.mp hrefused
    rw [isLong, hlong] at hshort
    cases hshort

end Number

end PrimeOrder
