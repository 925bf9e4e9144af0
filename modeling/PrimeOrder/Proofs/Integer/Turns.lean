import Mathlib
import PrimeOrder.Proofs.Integer.Euclid

namespace PrimeOrder.Integer

/-- What the algorithm keeps between two turns: two remainders, each with the coefficients that combine
    the arguments to it. -/
structure Remainders where
  first : Bezout
  second : Bezout

namespace Remainders

/-- The arguments are the first remainders. -/
def start (a b : ℤ) : Remainders :=
  ⟨⟨a, 1, 0⟩, ⟨b, 0, 1⟩⟩

/-- The remainders one turn later. -/
def turn (r : Remainders) : Remainders :=
  let quotient := r.first.divisor.fdiv r.second.divisor
  ⟨r.second, ⟨r.first.divisor.fmod r.second.divisor, r.first.x - quotient * r.second.x,
    r.first.y - quotient * r.second.y⟩⟩

/-- The result of the algorithm from given remainders on. -/
def result (r : Remainders) : Bezout :=
  xgcdFrom r.first.divisor r.second.divisor r.first.x r.first.y r.second.x r.second.y

/-- Whether the algorithm stops after so many turns and no earlier. -/
def StopsAfter (r : Remainders) (turns : ℕ) : Prop :=
  (turn^[turns] r).second.divisor = 0 ∧ ∀ earlier < turns, (turn^[earlier] r).second.divisor ≠ 0

theorem result_of_eq_zero {r : Remainders} (hzero : r.second.divisor = 0) : r.result = r.first := by
  rw [result, xgcdFrom, if_pos hzero]

theorem result_eq_turn {r : Remainders} (hne : r.second.divisor ≠ 0) : r.result = r.turn.result := by
  rw [result, xgcdFrom, if_neg hne]
  rfl

/-- The second remainder falls in every turn. -/
theorem exists_stopsAfter (r : Remainders) :
    ∃ turns ≤ r.second.divisor.natAbs, r.StopsAfter turns ∧ (turn^[turns] r).first = r.result := by
  induction hsize : r.second.divisor.natAbs using Nat.strong_induction_on generalizing r with
  | _ size ih =>
    by_cases hzero : r.second.divisor = 0
    · refine ⟨0, Nat.zero_le _, ⟨hzero, fun _ hearlier => absurd hearlier (Nat.not_lt_zero _)⟩, ?_⟩
      exact (result_of_eq_zero hzero).symm
    · have hfalls : r.turn.second.divisor.natAbs < size := hsize ▸ natAbs_fmod_lt _ hzero
      obtain ⟨turns, hle, ⟨hstop, hearlier⟩, hresult⟩ := ih _ hfalls r.turn rfl
      refine ⟨turns + 1, by omega, ⟨hstop, fun earlier hlt => ?_⟩, ?_⟩
      · cases earlier with
        | zero => exact hzero
        | succ earlier => exact hearlier earlier (by omega)
      · rw [Function.iterate_succ_apply, hresult, result_eq_turn hzero]

end Remainders

/-- A floor remainder that is not zero has the sign of the divisor. -/
theorem sign_fmod {a b : ℤ} (hb : b ≠ 0) (hne : a.fmod b ≠ 0) : (a.fmod b).sign = b.sign := by
  rcases Int.lt_or_gt_of_ne hb with hneg | hpos
  · have hopposite := Int.fmod_nonneg_of_pos (-a) (Int.neg_pos_of_neg hneg)
    rw [Int.neg_fmod_neg] at hopposite
    rw [Int.sign_eq_neg_one_of_neg hneg, Int.sign_eq_neg_one_of_neg (by omega)]
  · have hnonneg := Int.fmod_nonneg_of_pos a hpos
    rw [Int.sign_eq_one_of_pos hpos, Int.sign_eq_one_of_pos (by omega)]

/-- The last remainder before zero has the sign of the second argument. -/
theorem sign_divisor_xgcdFrom {a b : ℤ} (x₀ y₀ x₁ y₁ : ℤ) (hb : b ≠ 0) :
    (xgcdFrom a b x₀ y₀ x₁ y₁).divisor.sign = b.sign := by
  fun_induction xgcdFrom a b x₀ y₀ x₁ y₁ with
  | case1 => exact absurd rfl hb
  | case2 a b x₀ y₀ x₁ y₁ hne quotient ih =>
    by_cases hlast : a.fmod b = 0
    · rw [hlast, xgcdFrom, if_pos rfl]
    · rw [ih hlast, sign_fmod hne hlast]

end PrimeOrder.Integer
