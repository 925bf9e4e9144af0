import Mathlib
import PrimeOrder.Integer.Residuosity
import PrimeOrder.Proofs.Integer.Power

namespace PrimeOrder.Integer

/-- Every step of the recursion keeps the sign times the Jacobi symbol. -/
theorem symbolFrom_eq_jacobiSym (a b : ℕ) (sign : ℤ) (hodd : b % 2 = 1) :
    symbolFrom a b sign = sign * jacobiSym a b := by
  fun_induction symbolFrom a b sign with
  | case1 sign => rw [Nat.cast_zero, jacobiSym.one_right, mul_one]
  | case2 b sign hone =>
    have hlarge : 1 < b := by omega
    rw [Nat.cast_zero, jacobiSym.zero_left hlarge, mul_zero]
  | case3 a b sign hzero heven ih =>
    have hsplit := jacobiSym.even_odd (a := a) (by exact_mod_cast heven) hodd
    rw [dite_eq_ite] at ih
    rw [ih hodd, ← hsplit, Int.natCast_ediv, Nat.cast_ofNat]
    split <;> ring
  | case4 a b sign hzero hone ih =>
    have ha : a % 2 = 1 := by omega
    rw [dite_eq_ite] at ih
    rw [ih ha, Int.natCast_mod, ← jacobiSym.mod_left, ← jacobiSym.quadratic_reciprocity_if ha hodd]
    split <;> ring

/-- The symbol is the Jacobi symbol. -/
theorem jacobi_eq_jacobiSym {m : ℕ} (hodd : m % 2 = 1) (n : ℤ) :
    jacobi n m = .ok (jacobiSym n m) := by
  have hpos : (0 : ℤ) < m := by omega
  have hmodulus : ¬ ((m : ℤ) ≤ 0 ∨ (m : ℤ) % 2 = 0) := by omega
  have hresidue : ((n % m).toNat : ℤ) = n % m := Int.toNat_of_nonneg (Int.emod_nonneg n hpos.ne')
  rw [jacobi, if_neg hmodulus, Int.toNat_natCast, symbolFrom_eq_jacobiSym _ _ _ hodd, one_mul,
    hresidue, ← jacobiSym.mod_left]

variable {p : ℕ}

/-- The roots modulo a number that is three modulo four are a power and its negative. -/
theorem sqrtModPrime_eq (hthree : p % 4 = 3) (n : ℤ) :
    sqrtModPrime n p = .ok ⟨((n : ZMod p) ^ ((p + 1) / 4)).val, (-(n : ZMod p) ^ ((p + 1) / 4)).val⟩ := by
  have : NeZero p := ⟨by omega⟩
  have hpos : (p : ℤ) ≠ 0 := by omega
  have hform : (p : ℤ).fmod 4 = 3 := by
    rw [Int.fmod_eq_emod_of_nonneg _ (by norm_num)]
    omega
  have hexponent : ((p : ℤ) + 1).fdiv 4 = ((p + 1) / 4 : ℕ) := by
    rw [Int.fdiv_eq_ediv_of_nonneg _ (by norm_num)]
    omega
  have hcast : (((n % p).toNat : ℕ) : ZMod p) = n := by
    rw [← Int.cast_natCast, Int.toNat_of_nonneg (Int.emod_nonneg n hpos), ZMod.intCast_mod]
  have hreduced : ∀ a : ZMod p, ((a.val : ℕ) : ℤ).fmod p = a.val := fun a =>
    Int.fmod_eq_of_lt (Int.natCast_nonneg _) (Int.ofNat_lt.mpr a.val_lt)
  have hroot : residuePower n (((p : ℤ) + 1).fdiv 4) p =
      .ok ((n : ZMod p) ^ ((p + 1) / 4)).val := by
    rw [residuePower, hexponent, if_pos (Int.natCast_nonneg _), Int.natAbs_natCast,
      Int.toNat_natCast, powModNat_eq_val, hcast, hreduced]
  have hnegative : ∀ a : ZMod p, ((p : ℤ) - a.val).fmod p = ((-a).val : ℤ) := by
    intro a
    rw [Int.fmod_eq_emod_of_nonneg _ (Int.natCast_nonneg p), ← ZMod.val_intCast]
    simp
  rw [sqrtModPrime, if_neg (not_not.mpr hform), hroot]
  exact congrArg (fun second => Except.ok (SquareRoots.mk _ second)) (hnegative _)

variable [Fact p.Prime]

/-- Over an odd prime the symbol is one exactly at the squares other than zero. -/
theorem jacobi_eq_one_iff (hodd : p ≠ 2) {n : ℤ} (hn : (n : ZMod p) ≠ 0) :
    jacobi n p = .ok 1 ↔ IsSquare (n : ZMod p) := by
  have hmod : p % 2 = 1 := (Fact.out : p.Prime).eq_two_or_odd.resolve_left hodd
  rw [jacobi_eq_jacobiSym hmod, ← jacobiSym.legendreSym.to_jacobiSym, Except.ok.injEq,
    legendreSym.eq_one_iff p hn]

/-- Modulo a prime that is three modulo four one power of a square is a root of it. -/
theorem pow_mul_pow_of_isSquare (hthree : p % 4 = 3) {a : ZMod p} (ha : IsSquare a) :
    a ^ ((p + 1) / 4) * a ^ ((p + 1) / 4) = a := by
  obtain ⟨b, rfl⟩ := ha
  have hexponent : (p + 1) / 4 + (p + 1) / 4 + ((p + 1) / 4 + (p + 1) / 4) = p + 1 := by omega
  rw [mul_pow, ← pow_add, ← pow_add, hexponent, pow_succ, ZMod.pow_card]

/-- The same power of what is not a square is a root of its negative. -/
theorem pow_mul_pow_of_not_isSquare (hthree : p % 4 = 3) {a : ZMod p} (ha : ¬IsSquare a) :
    a ^ ((p + 1) / 4) * a ^ ((p + 1) / 4) = -a := by
  have hzero : a ≠ 0 := fun h => ha (h ▸ IsSquare.zero)
  have hhalf : a ^ (p / 2) = -1 :=
    (ZMod.pow_div_two_eq_neg_one_or_one p hzero).resolve_left (mt (ZMod.euler_criterion p hzero).mpr ha)
  have hexponent : (p + 1) / 4 + (p + 1) / 4 = p / 2 + 1 := by omega
  rw [← pow_add, hexponent, pow_succ, hhalf, neg_one_mul]

end PrimeOrder.Integer
