import Mathlib
import PrimeOrder.Proofs.Curve.Weierstrass

namespace PrimeOrder.ShortWeierstrass

/-- Weighted coordinates modulo `p` of a point. -/
structure Weighted where
  x : ℕ
  y : ℕ
  z : ℕ

namespace Weighted

/-- The difference modulo `p`. -/
def sub (p m n : ℕ) : ℕ :=
  (m + (p - n % p)) % p

/-- Twice a point. -/
def double (p a : ℕ) (P : Weighted) : Weighted :=
  let s := 4 * P.x * P.y ^ 2 % p
  let m := (3 * P.x ^ 2 + a * P.z ^ 4) % p
  let x := sub p (m ^ 2) (2 * s)
  ⟨x, sub p (m * sub p s x) (8 * P.y ^ 4), 2 * P.y * P.z % p⟩

/-- The sum of a point and the base point `(x, y)`. -/
def addBase (p a x y : ℕ) (P : Weighted) : Weighted :=
  if P.z % p = 0 then ⟨x, y, 1⟩
  else
    let h := sub p (x * P.z ^ 2) P.x
    let r := sub p (y * P.z ^ 3) P.y
    if h % p = 0 ∧ r % p = 0 then double p a P
    else
      let v := P.x * h ^ 2 % p
      let x₃ := sub p (r ^ 2) (h ^ 3 + 2 * v)
      ⟨x₃, sub p (r * sub p v x₃) (P.y * h ^ 3), h * P.z % p⟩

/-- The multiple of the base point by a number of so many bits. -/
def multiple (p a x y k : ℕ) : ℕ → Weighted
  | 0 => ⟨1, 1, 0⟩
  | bits + 1 =>
    let twice := double p a (multiple p a x y (k / 2) bits)
    if k % 2 = 0 then twice else addBase p a x y twice

theorem natCast_sub {p : ℕ} [NeZero p] (m n : ℕ) : (sub p m n : ZMod p) = m - n := by
  have hle : n % p ≤ p := (Nat.mod_lt n (NeZero.pos p)).le
  rw [sub, ZMod.natCast_mod, Nat.cast_add, Nat.cast_sub hle, ZMod.natCast_self, ZMod.natCast_mod]
  ring

/-- The coordinates modulo `p` that weighted coordinates stand for. -/
def read (p : ℕ) [Fact p.Prime] (P : Weighted) : Option (ZMod p × ZMod p) :=
  if (P.z : ZMod p) = 0 then none else some ((P.x : ZMod p) / P.z ^ 2, (P.y : ZMod p) / P.z ^ 3)

variable {p : ℕ} [Fact p.Prime]

theorem read_of_eq_zero {P : Weighted} (hz : (P.z : ZMod p) = 0) : P.read p = none :=
  if_pos hz

theorem read_of_ne_zero {P : Weighted} (hz : (P.z : ZMod p) ≠ 0) :
    P.read p = some ((P.x : ZMod p) / P.z ^ 2, (P.y : ZMod p) / P.z ^ 3) :=
  if_neg hz

/-- Doubling is the addition of a point to itself. -/
theorem read_double (htwo : (2 : ZMod p) ≠ 0) (a : ℕ) (P : Weighted) :
    (double p a P).read p = sum (a : ZMod p) (P.read p) (P.read p) := by
  have hz : ((double p a P).z : ZMod p) = 2 * P.y * P.z := by
    simp [double]
  by_cases hzero : (P.z : ZMod p) = 0
  · rw [read_of_eq_zero hzero, read_of_eq_zero (by rw [hz, hzero, mul_zero])]
    rfl
  rw [read_of_ne_zero hzero]
  by_cases hy : (P.y : ZMod p) = 0
  · rw [read_of_eq_zero (by rw [hz, hy, mul_zero, zero_mul])]
    simp [sum, hy]
  have hz' : ((double p a P).z : ZMod p) ≠ 0 := by
    rw [hz]
    exact mul_ne_zero (mul_ne_zero htwo hy) hzero
  have hquotient : (P.y : ZMod p) / P.z ^ 3 ≠ 0 := div_ne_zero hy (pow_ne_zero 3 hzero)
  rw [read_of_ne_zero hz', sum, if_pos rfl, if_pos rfl, if_neg hquotient, hz]
  simp only [double, natCast_sub, ZMod.natCast_mod, Nat.cast_mul, Nat.cast_add, Nat.cast_pow,
    Nat.cast_ofNat, reflectedThird, Option.some.injEq, Prod.mk.injEq]
  constructor
  · field_simp
    ring
  · field_simp
    ring

/-- The chord through a point in weighted coordinates and another point. -/
theorem chord_eq {F : Type*} [Field F] {X Y Z x y : F} (hZ : Z ≠ 0) (h : x * Z ^ 2 - X ≠ 0) :
    reflectedThird ((y - Y / Z ^ 3) / (x - X / Z ^ 2)) (X / Z ^ 2) (Y / Z ^ 3) x =
      (((y * Z ^ 3 - Y) ^ 2 - ((x * Z ^ 2 - X) ^ 3 + 2 * (X * (x * Z ^ 2 - X) ^ 2))) /
          ((x * Z ^ 2 - X) * Z) ^ 2,
        ((y * Z ^ 3 - Y) * (X * (x * Z ^ 2 - X) ^ 2 -
            ((y * Z ^ 3 - Y) ^ 2 - ((x * Z ^ 2 - X) ^ 3 + 2 * (X * (x * Z ^ 2 - X) ^ 2)))) -
          Y * (x * Z ^ 2 - X) ^ 3) / ((x * Z ^ 2 - X) * Z) ^ 3) := by
  obtain ⟨d, hd⟩ : ∃ d, d = x * Z ^ 2 - X := ⟨_, rfl⟩
  obtain rfl : X = x * Z ^ 2 - d := by rw [hd, sub_sub_cancel]
  rw [← hd] at h ⊢
  have hslope : (y - Y / Z ^ 3) / (x - (x * Z ^ 2 - d) / Z ^ 2) = (y * Z ^ 3 - Y) / (d * Z) := by
    have hrun : x - (x * Z ^ 2 - d) / Z ^ 2 = d / Z ^ 2 := by
      field_simp
      ring
    rw [hrun]
    field_simp
  rw [hslope, reflectedThird, Prod.mk.injEq]
  constructor
  · field_simp
    ring
  · field_simp
    ring

theorem natCast_eq_zero_iff_mod (n : ℕ) : (n : ZMod p) = 0 ↔ n % p = 0 := by
  rw [ZMod.natCast_eq_zero_iff, Nat.dvd_iff_mod_eq_zero]

/-- Adding the base point is the addition of the base point, whether the point is the base point, its
    reflection or neither. -/
theorem read_addBase (htwo : (2 : ZMod p) ≠ 0) (a x y : ℕ) (P : Weighted) :
    (addBase p a x y P).read p = sum (a : ZMod p) (P.read p) (some ((x : ZMod p), (y : ZMod p))) := by
  by_cases hzero : (P.z : ZMod p) = 0
  · have hone : ((1 : ℕ) : ZMod p) ≠ 0 := by
      rw [Nat.cast_one]
      exact one_ne_zero
    rw [addBase, if_pos ((natCast_eq_zero_iff_mod _).mp hzero), read_of_eq_zero hzero,
      read_of_ne_zero hone]
    simp [sum]
  rw [read_of_ne_zero hzero]
  have hx : (P.x : ZMod p) / P.z ^ 2 = x ↔ sub p (x * P.z ^ 2) P.x % p = 0 := by
    rw [← natCast_eq_zero_iff_mod, natCast_sub, sub_eq_zero, div_eq_iff (pow_ne_zero 2 hzero)]
    push_cast
    exact eq_comm
  have hy : (P.y : ZMod p) / P.z ^ 3 = y ↔ sub p (y * P.z ^ 3) P.y % p = 0 := by
    rw [← natCast_eq_zero_iff_mod, natCast_sub, sub_eq_zero, div_eq_iff (pow_ne_zero 3 hzero)]
    push_cast
    exact eq_comm
  rw [addBase, if_neg ((natCast_eq_zero_iff_mod _).not.mp hzero)]
  by_cases hsame : (P.x : ZMod p) / P.z ^ 2 = x
  · by_cases hequal : (P.y : ZMod p) / P.z ^ 3 = y
    · rw [if_pos ⟨hx.mp hsame, hy.mp hequal⟩, read_double htwo, read_of_ne_zero hzero, hsame, hequal]
    · have hopposite : ((sub p (x * P.z ^ 2) P.x * P.z % p : ℕ) : ZMod p) = 0 := by
        rw [ZMod.natCast_mod, Nat.cast_mul, (natCast_eq_zero_iff_mod _).mpr (hx.mp hsame), zero_mul]
      rw [if_neg fun h => hequal (hy.mpr h.2), read_of_eq_zero hopposite]
      simp [sum, hsame, hequal]
  · have hdistance : (x : ZMod p) * P.z ^ 2 - P.x ≠ 0 := by
      intro h
      exact hsame ((div_eq_iff (pow_ne_zero 2 hzero)).mpr (sub_eq_zero.mp h).symm)
    have hz : ((sub p (x * P.z ^ 2) P.x * P.z % p : ℕ) : ZMod p) ≠ 0 := by
      rw [ZMod.natCast_mod, Nat.cast_mul, natCast_sub]
      push_cast
      exact mul_ne_zero hdistance hzero
    rw [if_neg fun h => hsame (hx.mpr h.1), read_of_ne_zero hz, sum, if_neg hsame,
      chord_eq hzero hdistance]
    simp only [natCast_sub, ZMod.natCast_mod, Nat.cast_mul, Nat.cast_add, Nat.cast_pow,
      Nat.cast_ofNat]

/-- Doubling for every bit and adding for every bit that is set gives the multiple. -/
theorem read_multiple (htwo : (2 : ZMod p) ≠ 0) {a x y : ℕ} {a' b : ZMod p} (ha : (a : ZMod p) = a')
    {B : (shortWeierstrass a' b).Point} (hB : coordinates B = some ((x : ZMod p), (y : ZMod p)))
    {bits k : ℕ} (hk : k < 2 ^ bits) :
    (multiple p a x y k bits).read p = coordinates (k • B) := by
  subst ha
  induction bits generalizing k with
  | zero =>
    obtain rfl : k = 0 := by omega
    rw [zero_nsmul, coordinates_zero]
    exact read_of_eq_zero Nat.cast_zero
  | succ bits ih =>
    have htwice : (double p a (multiple p a x y (k / 2) bits)).read p =
        coordinates ((2 * (k / 2)) • B) := by
      rw [read_double htwo, ih (by omega), ← coordinates_add htwo, ← add_nsmul, two_mul]
    rw [multiple]
    split_ifs with hbit
    · rw [htwice, show 2 * (k / 2) = k by omega]
    · rw [read_addBase htwo, htwice, ← hB, ← coordinates_add htwo, ← succ_nsmul,
        show 2 * (k / 2) + 1 = k by omega]

/-- A multiple is at infinity where its last weighted coordinate is zero. -/
theorem nsmul_eq_zero_of_multiple (htwo : (2 : ZMod p) ≠ 0) {a x y : ℕ} {a' b : ZMod p}
    (ha : (a : ZMod p) = a') {B : (shortWeierstrass a' b).Point}
    (hB : coordinates B = some ((x : ZMod p), (y : ZMod p))) {bits k : ℕ} (hk : k < 2 ^ bits)
    (hz : (multiple p a x y k bits).z = 0) : k • B = 0 := by
  apply coordinates_injective
  rw [← read_multiple htwo ha hB hk, coordinates_zero]
  exact read_of_eq_zero (by rw [hz, Nat.cast_zero])

end Weighted

end PrimeOrder.ShortWeierstrass
