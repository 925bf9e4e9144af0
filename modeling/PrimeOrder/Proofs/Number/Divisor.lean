import Mathlib
import PrimeOrder.Number.Arithmetic
import PrimeOrder.Proofs.Integer.Turns

namespace PrimeOrder.Number

open Integer (Remainders)

/-- The integers of a combination. -/
def Combination.toBezout (c : Combination) : Integer.Bezout :=
  ⟨c.divisor.toInt, c.x.toInt, c.y.toInt⟩

/-- Whether a combination of two numbers leads to a greatest common divisor of them: in magnitude it is
    the gcd, and it has the sign of the second number or, where that is zero, is the first number as it
    came. -/
structure Combination.IsGreatest (c : Combination) (a b : Number) : Prop where
  combines : a.toInt * c.x.toInt + b.toInt * c.y.toInt = c.divisor.toInt
  natAbs_divisor : c.divisor.toInt.natAbs = Int.gcd a.toInt b.toInt
  sign_divisor : b.toInt ≠ 0 → c.divisor.toInt.sign = b.toInt.sign
  divisor_eq : b.toInt = 0 → c.divisor = a
  divisor_eq_gcd : 0 ≤ a.toInt → 0 ≤ b.toInt → c.divisor.toInt = Int.gcd a.toInt b.toInt

/-- The form changes nothing about the integers of a combination. -/
theorem toBezout_xgcd (a b : Number) : (xgcd a b).toBezout = Integer.xgcd a.toInt b.toInt := by
  have hcoefficients : (xgcd a b).x.toInt = (Integer.xgcd a.toInt b.toInt).x ∧
      (xgcd a b).y.toInt = (Integer.xgcd a.toInt b.toInt).y := by
    unfold xgcd
    split_ifs <;> simp
  rw [Combination.toBezout, toInt_xgcd_divisor, hcoefficients.1, hcoefficients.2]

/-- The algorithm ends after at most as many turns as the magnitude of the second number says, and what
    it ends with combines the numbers to a greatest common divisor of them. -/
theorem xgcd_isGreatest (a b : Number) :
    (xgcd a b).IsGreatest a b ∧
      ∃ turns ≤ b.toInt.natAbs, (Remainders.start a.toInt b.toInt).StopsAfter turns ∧
        (Remainders.turn^[turns] (Remainders.start a.toInt b.toInt)).first = (xgcd a b).toBezout := by
  have hbezout := toBezout_xgcd a b
  obtain ⟨hdivisor, hx, hy⟩ := Integer.Bezout.mk.inj hbezout
  have hnatAbs : (xgcd a b).divisor.toInt.natAbs = Int.gcd a.toInt b.toInt := by
    rw [hdivisor]
    exact Integer.natAbs_divisor_xgcdFrom _ _ 1 0 0 1
  have hsign : b.toInt ≠ 0 → (xgcd a b).divisor.toInt.sign = b.toInt.sign := by
    intro hb
    rw [hdivisor]
    exact Integer.sign_divisor_xgcdFrom 1 0 0 1 hb
  have hzero : b.toInt = 0 → (xgcd a b).divisor = a := by
    intro hb
    rw [xgcd, if_pos hb]
  constructor
  · constructor
    case combines =>
      rw [hdivisor, hx, hy]
      exact Integer.xgcd_combines _ _
    case natAbs_divisor => exact hnatAbs
    case sign_divisor => exact hsign
    case divisor_eq => exact hzero
    case divisor_eq_gcd =>
      intro ha hb
      rcases hb.eq_or_lt with hb | hb
      · rw [← hnatAbs, hzero hb.symm, Int.natAbs_of_nonneg ha]
      · have hpos : 0 < (xgcd a b).divisor.toInt := by
          rw [← Int.sign_eq_one_iff_pos, hsign hb.ne', Int.sign_eq_one_of_pos hb]
        rw [← hnatAbs, Int.natAbs_of_nonneg hpos.le]
  · rw [hbezout]
    exact Remainders.exists_stopsAfter (Remainders.start a.toInt b.toInt)

/-- Four and minus six have the divisor minus two. -/
example : xgcd (4 : ℤ) (-6 : ℤ) = ⟨(-2 : ℤ), (1 : ℤ), (1 : ℤ)⟩ := by cbv

end PrimeOrder.Number
