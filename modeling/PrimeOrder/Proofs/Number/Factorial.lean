import Mathlib
import PrimeOrder.Number.Arithmetic
import PrimeOrder.Proofs.Integer.Bits
import PrimeOrder.Proofs.Outcome
import PrimeOrder.Proofs.Text.Numeral

namespace PrimeOrder

namespace Integer

open Nat (factorial_le factorial_succ)

theorem factorialNat_eq_factorial (n : ℕ) : factorialNat n = n.factorial := by
  induction n with
  | zero => rfl
  | succ n ih => rw [factorialNat, ih, factorial_succ]

theorem fitsMachineWord_natCast_iff {n : ℕ} : fitsMachineWord n = true ↔ n < 2 ^ 63 := by
  rw [fitsMachineWord_eq_true_iff]
  omega

/-- Twenty is the greatest number whose factorial is a signed word. -/
theorem factorial_lt_two_pow_iff {n : ℕ} : n.factorial < 2 ^ 63 ↔ n ≤ 20 := by
  constructor
  · intro hfits
    by_contra hbeyond
    have hgreater : Nat.factorial 21 ≤ n.factorial := factorial_le (by omega)
    have hover : 2 ^ 63 ≤ Nat.factorial 21 := by decide
    omega
  · intro hn
    exact (factorial_le hn).trans_lt (by decide)

/-- The product so far is the factorial of the number before the next factor. A factorial that does not
    fit is followed by none that does. -/
theorem boundedProduct_factorial {m : ℕ} (hm : m.factorial < 2 ^ 63) (count : ℕ) :
    boundedProduct m.factorial (m + 1) count =
      if (m + count).factorial < 2 ^ 63 then some (m + count).factorial else none := by
  induction count generalizing m with
  | zero => rw [boundedProduct, add_zero, if_pos hm]
  | succ count ih =>
    have hnext : m.factorial * (m + 1) = (m + 1).factorial := by
      rw [factorial_succ, mul_comm]
    simp only [boundedProduct, hnext, fitsMachineWord_natCast_iff]
    by_cases hfits : (m + 1).factorial < 2 ^ 63
    · rw [if_pos hfits, ih hfits, show m + 1 + count = m + (count + 1) by omega]
    · have hgrows : (m + 1).factorial ≤ (m + (count + 1)).factorial := factorial_le (by omega)
      rw [if_neg hfits, if_neg (by omega)]

theorem boundedProduct_eq_factorial (n : ℕ) :
    boundedProduct 1 2 (n - 1) = if n.factorial < 2 ^ 63 then some n.factorial else none := by
  have hone : Nat.factorial 1 < 2 ^ 63 := by decide
  have hproduct := boundedProduct_factorial hone (n - 1)
  cases n with
  | zero => exact hproduct
  | succ n => rwa [Nat.add_sub_cancel, add_comm 1 n] at hproduct

/-- Whether the factorial of an integer is a signed word. -/
def HasWordFactorial (n : ℤ) : Prop :=
  0 ≤ n ∧ (n.toNat.factorial : ℤ) < 2 ^ 63

variable {n : ℤ}

theorem hasWordFactorial_iff : HasWordFactorial n ↔ 0 ≤ n ∧ n ≤ 20 := by
  rw [HasWordFactorial]
  have hbound := factorial_lt_two_pow_iff (n := n.toNat)
  omega

theorem factorial_of_neg (hn : n < 0) : factorial n = .error .factorialOfNegative :=
  if_pos hn

theorem factorial_of_hasWordFactorial (hn : HasWordFactorial n) :
    factorial n = .ok n.toNat.factorial := by
  have hfits : n.toNat.factorial < 2 ^ 63 := by exact_mod_cast hn.2
  rw [factorial, if_neg hn.1.not_gt, boundedProduct_eq_factorial, if_pos hfits]

theorem factorial_of_not_hasWordFactorial (hn : 0 ≤ n) (hlarge : ¬HasWordFactorial n) :
    factorial n = .error (.factorialTooLarge (.integer n)) := by
  have hover : ¬n.toNat.factorial < 2 ^ 63 := fun hfits => hlarge ⟨hn, by exact_mod_cast hfits⟩
  rw [factorial, if_neg hn.not_gt, boundedProduct_eq_factorial, if_neg hover]

theorem factorialExact_of_neg (hn : n < 0) : factorialExact n = .error .factorialOfNegative :=
  if_pos hn

theorem factorialExact_of_lt (hn : 0 ≤ n) (hlt : n < 2 ^ 64) :
    factorialExact n = .ok n.toNat.factorial := by
  have hword : ¬unsignedWordBound ≤ n := not_le.mpr hlt
  rw [factorialExact, if_neg hn.not_gt, if_neg hword, factorialNat_eq_factorial]

theorem factorialExact_of_ge (hn : 2 ^ 64 ≤ n) : factorialExact n = .error .doesNotFitWord := by
  have hword : unsignedWordBound ≤ n := hn
  rw [factorialExact, if_neg (by omega), if_pos hword]

theorem exists_factorialExact_invalid_iff :
    (∃ e, factorialExact n = .error e ∧ e.report.1 = .invalidArgument) ↔ n < 0 := by
  rcases lt_or_ge n 0 with hneg | hnonneg
  · exact ⟨fun _ => hneg, fun _ => ⟨_, factorialExact_of_neg hneg, rfl⟩⟩
  · refine iff_of_false ?_ hnonneg.not_gt
    rintro ⟨e, he, hkind⟩
    rcases lt_or_ge n (2 ^ 64) with hlt | hge
    · rw [factorialExact_of_lt hnonneg hlt] at he
      cases he
    · rw [factorialExact_of_ge hge] at he
      cases he
      cases hkind

end Integer

namespace Number

open Integer (HasWordFactorial)

variable {n : Number}

theorem factorial_of_hasWordFactorial (hn : HasWordFactorial n.toInt) :
    factorial n = .ok n.toInt.toNat.factorial := by
  rw [factorial, Integer.factorial_of_hasWordFactorial hn]

theorem factorial_of_neg (hn : n.toInt < 0) : factorial n = .error .factorialOfNegative := by
  rw [factorial, Integer.factorial_of_neg hn]

/-- A number without a factorial that is a signed word is refused, unless it is too long to be written. -/
theorem exists_factorial_eq_error (hn : 0 ≤ n.toInt) (hlarge : ¬HasWordFactorial n.toInt) :
    ∃ e, factorial n = .error e ∧
      e.report = if n.isLong then Error.decimalTooLong.report
        else (.invalidArgument, n.text ++ "! does not fit in a machine word") := by
  refine ⟨.factorialTooLarge n, ?_, Error.report_of_numbers_eq rfl⟩
  rw [factorial, Integer.factorial_of_not_hasWordFactorial hn hlarge]

theorem exists_factorial_invalid_iff :
    (∃ e, factorial n = .error e ∧ e.report.1 = .invalidArgument) ↔
      n.toInt < 0 ∨ ¬HasWordFactorial n.toInt ∧ n.isLong = false := by
  rcases lt_or_ge n.toInt 0 with hneg | hnonneg
  · exact iff_of_true ⟨_, factorial_of_neg hneg, rfl⟩ (.inl hneg)
  · rw [or_iff_right hnonneg.not_gt]
    by_cases hword : HasWordFactorial n.toInt
    · simp [factorial_of_hasWordFactorial hword, hword]
    · rw [Outcome.exists_invalid_iff (exists_factorial_eq_error hnonneg hword)]
      exact (and_iff_right hword).symm

/-- Whether the bounded factorial answers for a number exactly if the factorial is a signed word, and then
    as the exact one does, and refuses it otherwise. The exact one refuses negative numbers only. -/
structure HasBoundedFactorial (n : Number) : Prop where
  agrees_iff : (∃ m, factorial n = .ok m ∧ Integer.factorialExact n.toInt = .ok m) ↔
    HasWordFactorial n.toInt
  eq_factorial : ∀ m, factorial n = .ok m → HasWordFactorial n.toInt ∧ m = n.toInt.toNat.factorial
  refusal_of_neg : n.toInt < 0 → ∃ e, factorial n = .error e ∧
    e.report = (.invalidArgument, "factorial of a negative number")
  refusal : 0 ≤ n.toInt → ¬HasWordFactorial n.toInt → ∃ e, factorial n = .error e ∧
    e.report = if n.isLong then Error.decimalTooLong.report
      else (.invalidArgument, n.text ++ "! does not fit in a machine word")
  refused_iff : (∃ e, factorial n = .error e ∧ e.report.1 = .invalidArgument) ↔
    n.toInt < 0 ∨ ¬HasWordFactorial n.toInt ∧ n.isLong = false
  exact_eq_factorial : 0 ≤ n.toInt → n.toInt < 2 ^ 64 →
    Integer.factorialExact n.toInt = .ok n.toInt.toNat.factorial
  exact_refused_iff : (∃ e, Integer.factorialExact n.toInt = .error e ∧
    e.report.1 = .invalidArgument) ↔ n.toInt < 0

/-- What is answered is the factorial, and no factorial beyond the signed words is. -/
theorem eq_factorial_of_factorial_eq_ok {m : ℕ} (hm : factorial n = .ok m) :
    HasWordFactorial n.toInt ∧ m = n.toInt.toNat.factorial := by
  rcases lt_or_ge n.toInt 0 with hneg | hnonneg
  · rw [factorial_of_neg hneg] at hm
    cases hm
  · by_cases hword : HasWordFactorial n.toInt
    · rw [factorial_of_hasWordFactorial hword, Except.ok.injEq] at hm
      exact ⟨hword, hm.symm⟩
    · obtain ⟨e, he, -⟩ := exists_factorial_eq_error hnonneg hword
      rw [he] at hm
      cases hm

/-- The bounded factorial answers for exactly the numbers from zero to twenty, as the exact one does, and
    refuses all others, unless they are too long for the refusal to be written. -/
theorem factorial_agrees_with_exact (n : Number) :
    n.HasBoundedFactorial ∧ (HasWordFactorial n.toInt ↔ 0 ≤ n.toInt ∧ n.toInt ≤ 20) := by
  refine ⟨?_, Integer.hasWordFactorial_iff⟩
  constructor
  case agrees_iff =>
    constructor
    · rintro ⟨m, hm, -⟩
      exact (eq_factorial_of_factorial_eq_ok hm).1
    · intro hword
      have hsmall := (Integer.hasWordFactorial_iff.mp hword).2
      have hlt : n.toInt < 2 ^ 64 := hsmall.trans_lt (by norm_num)
      exact ⟨_, factorial_of_hasWordFactorial hword, Integer.factorialExact_of_lt hword.1 hlt⟩
  case eq_factorial => exact fun _ => eq_factorial_of_factorial_eq_ok
  case refusal_of_neg => exact fun hneg => ⟨_, factorial_of_neg hneg, rfl⟩
  case refusal => exact exists_factorial_eq_error
  case refused_iff => exact exists_factorial_invalid_iff
  case exact_eq_factorial => exact Integer.factorialExact_of_lt
  case exact_refused_iff => exact Integer.exists_factorialExact_invalid_iff

/-- The factorial of twenty is answered; those of twenty-one and of minus one are refused. -/
theorem factorial_agrees_with_exact_twenty :
    factorial (20 : ℤ) = .ok 2432902008176640000 ∧
    Integer.factorialExact 20 = .ok 2432902008176640000 ∧
    (∃ e, factorial (21 : ℤ) = .error e ∧
      e.report = (.invalidArgument, "21! does not fit in a machine word")) ∧
    ∃ e, factorial (-1 : ℤ) = .error e ∧
      e.report = (.invalidArgument, "factorial of a negative number") := by
  obtain ⟨htwenty, hword⟩ := factorial_agrees_with_exact (20 : ℤ)
  obtain ⟨m, hm, hexact⟩ := htwenty.agrees_iff.mpr (hword.mpr (by decide))
  have hvalue : m = 2432902008176640000 := (htwenty.eq_factorial m hm).2.trans (by decide +kernel)
  subst hvalue
  obtain ⟨htwentyone, hbeyond⟩ := factorial_agrees_with_exact (21 : ℤ)
  refine ⟨hm, hexact, ?_, (factorial_agrees_with_exact (-1 : ℤ)).1.refusal_of_neg (by decide)⟩
  exact htwentyone.refusal (by decide) fun h => absurd (hbeyond.mp h) (by decide)

/-- A number that is too long to be written is not refused as an argument, though its factorial is no
    signed word. -/
theorem not_refused_for_size_ten_pow :
    ¬HasWordFactorial (10 ^ 4300) ∧
      ¬∃ e, factorial (10 ^ 4300 : ℤ) = .error e ∧ e.report.1 = .invalidArgument := by
  have hlarge : (20 : ℤ) < 10 ^ 4300 :=
    (by norm_num : (20 : ℤ) < 10 ^ 2).trans_le (pow_le_pow_right₀ (by norm_num) (by norm_num))
  have hlong : Text.Numeral.isLong (10 ^ 4300) = true := Text.Numeral.isLong_ten_pow
  -- the power is not to be computed
  generalize (10 ^ 4300 : ℤ) = n at hlarge hlong ⊢
  constructor
  · rw [Integer.hasWordFactorial_iff]
    omega
  · intro hrefused
    rcases exists_factorial_invalid_iff.mp hrefused with hneg | ⟨-, hshort⟩
    · rw [toInt_integer] at hneg
      omega
    · rw [isLong, hlong] at hshort
      cases hshort

end Number

end PrimeOrder
