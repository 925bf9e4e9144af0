import Mathlib
import PrimeOrder.Number.Arithmetic
import PrimeOrder.Proofs.Integer.Congruences
import PrimeOrder.Proofs.Text.Numeral

namespace PrimeOrder.Number

/-- What a positive number has in common with another is no longer than it. -/
theorem isLong_of_isLong_divisor {a b : Number} (hb : 0 < b.toInt)
    (hlong : (xgcd a b).divisor.isLong = true) : b.isLong = true := by
  unfold xgcd at hlong
  rw [if_neg hb.ne'] at hlong
  split_ifs at hlong with hdivides
  · exact hlong
  · cases b with
    | truth b =>
      cases b with
      | false => cases hb
      | true => exact absurd (Int.fmod_one _) hdivides
    | native n => simp [resultOf, isNative, isLong] at hlong
    | integer n =>
      rw [toInt_integer] at hb hlong
      have hgcd : Text.Numeral.isLong (Integer.xgcd a.toInt n).divisor = true := by
        unfold resultOf at hlong
        split at hlong
        · cases hlong
        · exact hlong
      rw [Integer.divisor_xgcd_eq_gcd hb, Text.Numeral.isLong_eq_true_iff, Int.natAbs_natCast] at hgcd
      have hle : Int.gcd a.toInt n ≤ n.natAbs :=
        Nat.le_of_dvd (Int.natAbs_pos.mpr hb.ne') (Int.gcd_dvd_natAbs_right _ _)
      exact Text.Numeral.isLong_eq_true_iff.mpr (hgcd.trans hle)

/-- What two numbers have in common is written in digits unless it is one. -/
theorem text_divisor {a b : Number} (hb : 0 < b.toInt) (hcommon : Int.gcd a.toInt b.toInt ≠ 1) :
    (xgcd a b).divisor.text = toString (Int.gcd a.toInt b.toInt) := by
  have hdivisor := Integer.divisor_xgcd_eq_gcd (a := a.toInt) hb
  unfold xgcd
  rw [if_neg hb.ne']
  split_ifs with hdivides
  · have hgcd : b.toInt = Int.gcd a.toInt b.toInt := by
      rw [← hdivisor, Integer.xgcd, Integer.xgcdFrom, if_neg hb.ne', Integer.xgcdFrom, if_pos hdivides]
    cases b with
    | truth b =>
      cases b with
      | false => cases hb
      | true => exact absurd (Int.gcd_one_right _) hcommon
    | integer n => exact congrArg toString hgcd
    | native n => exact congrArg toString hgcd
  · rw [hdivisor]
    unfold resultOf
    split <;> rfl

variable {a n : Number}

/-- What is coprime to a positive modulus has an inverse. -/
theorem exists_modInverse_eq_ok (hn : 0 < n.toInt) (hcoprime : IsCoprime a.toInt n.toInt) :
    ∃ inverse, modInverse a n = .ok inverse ∧
      Integer.IsInverse a.toInt n.toInt inverse.toInt := by
  rw [modInverse, Integer.modInverse_eq hn, if_pos (Int.isCoprime_iff_gcd_eq_one.mp hcoprime)]
  refine ⟨_, rfl, ?_⟩
  rw [toInt_resultOf]
  exact Integer.isInverse_inverseResidue hn hcoprime

/-- What is not is refused with the common divisor, unless a part of the refusal is too long. -/
theorem exists_modInverse_eq_error (hn : 0 < n.toInt) (hcommon : ¬IsCoprime a.toInt n.toInt) :
    ∃ divisor, modInverse a n = .error (.noInverse a n divisor) ∧
      divisor.text = toString (Int.gcd a.toInt n.toInt) ∧
      (Error.noInverse a n divisor).shown =
        if a.isLong || n.isLong then .decimalTooLong else .noInverse a n divisor := by
  rw [Int.isCoprime_iff_gcd_eq_one] at hcommon
  refine ⟨_, by rw [modInverse, Integer.modInverse_eq hn, if_neg hcommon], ?_, ?_⟩
  · have hgcd : Int.gcd (resultOf [a, n] (a.toInt.fmod n.toInt)).toInt n.toInt =
        Int.gcd a.toInt n.toInt := by
      rw [toInt_resultOf, Integer.gcd_fmod hn]
    rw [text_divisor hn (by rwa [hgcd]), hgcd]
  · have hdivisor : (xgcd (resultOf [a, n] (a.toInt.fmod n.toInt)) n).divisor.isLong = true →
        n.isLong = true := isLong_of_isLong_divisor hn
    have hany : (Error.noInverse a n
        (xgcd (resultOf [a, n] (a.toInt.fmod n.toInt)) n).divisor).numbers.any isLong =
          (a.isLong || n.isLong) := by
      simp only [Error.numbers, List.any_cons, List.any_nil, Bool.or_false]
      rw [Bool.eq_iff_iff]
      simp only [Bool.or_eq_true]
      exact ⟨fun h => h.imp_right fun h => h.elim id hdivisor, fun h => h.imp_right .inl⟩
    rw [Error.shown, hany]

end PrimeOrder.Number
