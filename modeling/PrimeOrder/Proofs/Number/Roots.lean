import Mathlib
import PrimeOrder.Number.Arithmetic
import PrimeOrder.Proofs.Integer.Primality
import PrimeOrder.Proofs.Integer.Residuosity
import PrimeOrder.Proofs.Outcome
import PrimeOrder.Proofs.Text.Numeral

namespace PrimeOrder

namespace Integer

/-- Whether two opposite residues modulo `p` are all the roots of `a` if it is a square, and otherwise
    roots of its negative. -/
structure AreRoots (a p r s : ℤ) : Prop where
  first_mem : 0 ≤ r ∧ r < p
  second_mem : 0 ≤ s ∧ s < p
  add_modEq : r + s ≡ 0 [ZMOD p]
  setOf_roots : (∃ x, x * x ≡ a [ZMOD p]) → {x | (0 ≤ x ∧ x < p) ∧ x * x ≡ a [ZMOD p]} = {r, s}
  of_nonsquare : (¬∃ x, x * x ≡ a [ZMOD p]) →
    (r * r ≡ -a [ZMOD p] ∧ s * s ≡ -a [ZMOD p]) ∧ ¬r * r ≡ a [ZMOD p] ∧ ¬s * s ≡ a [ZMOD p]

/-- The only failure of a power is that of a negative exponent. -/
theorem eq_of_residuePower_eq_error {base exponent modulus : ℤ} {e : Error}
    (he : residuePower base exponent modulus = .error e) : e = .baseNotInvertible := by
  unfold residuePower at he
  dsimp only at he
  split_ifs at he
  split at he
  · exact (Except.error.inj he).symm
  · cases he

section Prime

variable {p : ℕ}

theorem mul_self_modEq_iff {x a : ℤ} : x * x ≡ a [ZMOD p] ↔ (x : ZMod p) * x = a := by
  rw [← ZMod.intCast_eq_intCast_iff, Int.cast_mul]

theorem exists_mul_self_modEq_iff {a : ℤ} : (∃ x, x * x ≡ a [ZMOD p]) ↔ IsSquare (a : ZMod p) := by
  simp only [mul_self_modEq_iff]
  constructor
  · rintro ⟨x, hx⟩
    exact ⟨x, hx.symm⟩
  · rintro ⟨b, hb⟩
    obtain ⟨x, rfl⟩ := ZMod.intCast_surjective b
    exact ⟨x, hb.symm⟩

variable [NeZero p]

/-- A residue is the only one of its class. -/
theorem eq_val_iff {x : ℤ} (hx : 0 ≤ x ∧ x < p) {b : ZMod p} : x = b.val ↔ (x : ZMod p) = b := by
  have hval : ((x : ZMod p).val : ℤ) = x := by
    rw [ZMod.val_intCast, Int.emod_eq_of_lt hx.1 hx.2]
  constructor
  · intro h
    rw [h, Int.cast_natCast, ZMod.natCast_zmod_val]
  · intro h
    rw [← h, hval]

theorem val_mem (b : ZMod p) : (0 : ℤ) ≤ b.val ∧ (b.val : ℤ) < p :=
  ⟨Int.natCast_nonneg _, Int.ofNat_lt.mpr b.val_lt⟩

/-- A class and its negative that are roots of a square, or of the negative of what is none, are
    represented by its roots. -/
theorem areRoots_val [Fact p.Prime] {a : ℤ} {b : ZMod p}
    (hsquare : IsSquare (a : ZMod p) → b * b = a) (hnonsquare : ¬IsSquare (a : ZMod p) → b * b = -a)
    (htwo : (2 : ZMod p) ≠ 0) : AreRoots a p b.val (-b).val := by
  have hcast : ∀ c : ZMod p, ((c.val : ℤ) : ZMod p) = c := fun c => by
    rw [Int.cast_natCast, ZMod.natCast_zmod_val]
  constructor
  case first_mem => exact val_mem b
  case second_mem => exact val_mem (-b)
  case add_modEq =>
    rw [← ZMod.intCast_eq_intCast_iff, Int.cast_add, hcast, hcast, add_neg_cancel, Int.cast_zero]
  case setOf_roots =>
    intro ha
    rw [exists_mul_self_modEq_iff] at ha
    ext x
    simp only [Set.mem_ofPred_eq, Set.mem_insert_iff, Set.mem_singleton_iff, mul_self_modEq_iff]
    constructor
    · rintro ⟨hx, hroot⟩
      rw [eq_val_iff hx, eq_val_iff hx, ← mul_self_eq_mul_self_iff, hroot, hsquare ha]
    · rintro (rfl | rfl)
      · exact ⟨val_mem b, by rw [hcast, hsquare ha]⟩
      · exact ⟨val_mem (-b), by rw [hcast, neg_mul_neg, hsquare ha]⟩
  case of_nonsquare =>
    intro ha
    rw [exists_mul_self_modEq_iff] at ha
    have hne : -(a : ZMod p) ≠ a := by
      intro hself
      have hzero : (a : ZMod p) = 0 := by
        have hdouble : 2 * (a : ZMod p) = 0 := by linear_combination -hself
        exact (mul_eq_zero.mp hdouble).resolve_left htwo
      exact ha (hzero ▸ IsSquare.zero)
    simp only [mul_self_modEq_iff, hcast, neg_mul_neg, hnonsquare ha, Int.cast_neg, true_and, and_self]
    exact hne

/-- What is computed modulo a prime that is three modulo four are the roots. -/
theorem exists_sqrtModPrime_eq_ok [Fact p.Prime] (hthree : p % 4 = 3) (a : ℤ) :
    ∃ roots, sqrtModPrime a p = .ok roots ∧ AreRoots a p roots.first roots.second := by
  have htwo : (2 : ZMod p) ≠ 0 :=
    Ring.two_ne_zero (by rw [ZMod.ringChar_zmod_n]; omega)
  exact ⟨_, sqrtModPrime_eq hthree a,
    areRoots_val (pow_mul_pow_of_isSquare hthree) (pow_mul_pow_of_not_isSquare hthree) htwo⟩

end Prime

end Integer

namespace Number

variable {a p : Number}

/-- A modulus of another form is refused, unless it is too long to be written. -/
theorem exists_sqrtModPrime_eq_error (hform : p.toInt.fmod 4 ≠ 3) :
    ∃ e, sqrtModPrime a p = .error e ∧
      e.report = if p.isLong then Error.decimalTooLong.report
        else (.invalidArgument, p.text ++ " is not congruent to 3 mod 4") := by
  refine ⟨.notThreeModFour p, ?_, Error.report_of_numbers_eq rfl⟩
  rw [sqrtModPrime, Integer.sqrtModPrime, if_pos hform]

/-- A modulus of the right form is never refused as an argument. -/
theorem kind_of_sqrtModPrime_eq_error (hform : p.toInt.fmod 4 = 3) {e : Error}
    (he : sqrtModPrime a p = .error e) : e.report.1 = .value := by
  rw [sqrtModPrime, Integer.sqrtModPrime, if_neg (not_not.mpr hform)] at he
  cases hroot : Integer.residuePower a.toInt ((p.toInt + 1).fdiv 4) p.toInt with
  | ok root =>
    rw [hroot] at he
    cases he
  | error e' =>
    rw [hroot, Integer.eq_of_residuePower_eq_error hroot] at he
    cases he
    rfl

theorem exists_sqrtModPrime_invalid_iff :
    (∃ e, sqrtModPrime a p = .error e ∧ e.report.1 = .invalidArgument) ↔
      p.toInt.fmod 4 ≠ 3 ∧ p.isLong = false := by
  by_cases hform : p.toInt.fmod 4 = 3
  · refine iff_of_false ?_ fun h => h.1 hform
    rintro ⟨e, he, hkind⟩
    rw [kind_of_sqrtModPrime_eq_error hform he] at hkind
    cases hkind
  · rw [Outcome.exists_invalid_iff (exists_sqrtModPrime_eq_error hform)]
    exact (and_iff_right hform).symm

theorem exists_sqrtModPrime_eq_ok (hprime : p.toInt.toNat.Prime) (hform : p.toInt.fmod 4 = 3) :
    ∃ r s, sqrtModPrime a p = .ok (r, s) ∧ Integer.AreRoots a.toInt p.toInt r.toInt s.toInt := by
  obtain ⟨q, hprime, hq⟩ := Integer.exists_prime_eq hprime
  have : Fact q.Prime := ⟨hprime⟩
  have hthree : q % 4 = 3 := by
    rw [hq, Int.fmod_eq_emod_of_nonneg _ (by norm_num)] at hform
    omega
  obtain ⟨roots, hroots, hare⟩ := Integer.exists_sqrtModPrime_eq_ok hthree a.toInt
  refine ⟨roots.first, resultOf [p] roots.second, by rw [sqrtModPrime, hq, hroots], ?_⟩
  rw [toInt_resultOf, hq]
  exact hare

/-- A modulus is refused exactly if it is not three modulo four, unless it is too long for the refusal to
    be written. Modulo a prime of that form the roots of every square are found, and both at once, and
    what is found for a non-square are never roots of it but of its negative. -/
theorem sqrtModPrime_areRoots (a p : Number) :
    ((∃ e, sqrtModPrime a p = .error e ∧ e.report.1 = .invalidArgument) ↔
      p.toInt.fmod 4 ≠ 3 ∧ p.isLong = false) ∧
    (p.toInt.fmod 4 ≠ 3 → ∃ e, sqrtModPrime a p = .error e ∧
      e.report = if p.isLong then Error.decimalTooLong.report
        else (.invalidArgument, p.text ++ " is not congruent to 3 mod 4")) ∧
    (p.toInt.toNat.Prime → p.toInt.fmod 4 = 3 → ∃ r s, sqrtModPrime a p = .ok (r, s) ∧
      Integer.AreRoots a.toInt p.toInt r.toInt s.toInt) :=
  ⟨exists_sqrtModPrime_invalid_iff, exists_sqrtModPrime_eq_error, exists_sqrtModPrime_eq_ok⟩

/-- Four and three are the roots of sixteen modulo seven, and of the negative of minus sixteen. Thirteen is
    refused. -/
theorem sqrtModPrime_areRoots_seven :
    (Nat.Prime 7 ∧ Int.fmod 7 4 = 3) ∧
    (sqrtModPrime (16 : ℤ) (7 : ℤ) = .ok ((4 : ℤ), (3 : ℤ)) ∧ Integer.AreRoots 16 7 4 3) ∧
    (sqrtModPrime (-16 : ℤ) (7 : ℤ) = .ok ((4 : ℤ), (3 : ℤ)) ∧ Integer.AreRoots (-16) 7 4 3) ∧
    Int.fmod 13 4 ≠ 3 ∧
    ∃ e, sqrtModPrime (625 : ℤ) (13 : ℤ) = .error e ∧
      e.report = (.invalidArgument, "13 is not congruent to 3 mod 4") := by
  have hprime : Nat.Prime 7 := by norm_num
  have hsquare : sqrtModPrime (16 : ℤ) (7 : ℤ) = .ok ((4 : ℤ), (3 : ℤ)) := by cbv
  have hnonsquare : sqrtModPrime (-16 : ℤ) (7 : ℤ) = .ok ((4 : ℤ), (3 : ℤ)) := by cbv
  refine ⟨⟨hprime, rfl⟩, ⟨hsquare, ?_⟩, ⟨hnonsquare, ?_⟩, by decide, ?_⟩
  · obtain ⟨r, s, hroots, hare⟩ := (sqrtModPrime_areRoots (16 : ℤ) (7 : ℤ)).2.2 hprime rfl
    cases hsquare.symm.trans hroots
    exact hare
  · obtain ⟨r, s, hroots, hare⟩ := (sqrtModPrime_areRoots (-16 : ℤ) (7 : ℤ)).2.2 hprime rfl
    cases hnonsquare.symm.trans hroots
    exact hare
  · exact (sqrtModPrime_areRoots (625 : ℤ) (13 : ℤ)).2.1 (by decide)

/-- A modulus that is too long to be written is not refused as an argument, whatever its form. -/
theorem not_refused_for_form_ten_pow :
    (10 ^ 4300 : ℤ).fmod 4 ≠ 3 ∧
      ¬∃ e, sqrtModPrime (0 : ℤ) (10 ^ 4300 : ℤ) = .error e ∧ e.report.1 = .invalidArgument := by
  have hfour : (4 : ℤ) ∣ 10 ^ 4300 :=
    Dvd.dvd.trans (by norm_num) (pow_dvd_pow 10 (show 2 ≤ 4300 by norm_num))
  have hlong : Text.Numeral.isLong (10 ^ 4300) = true := Text.Numeral.isLong_ten_pow
  -- the power is not to be computed
  generalize (10 ^ 4300 : ℤ) = p at hfour hlong ⊢
  constructor
  · rw [Int.fmod_eq_zero_of_dvd hfour]
    decide
  · intro hrefused
    obtain ⟨-, hshort⟩ := exists_sqrtModPrime_invalid_iff.mp hrefused
    rw [isLong, hlong] at hshort
    cases hshort

end Number

end PrimeOrder
