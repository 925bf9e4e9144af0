import Mathlib

namespace PrimeOrder

variable {R F : Type*} [CommRing R] [Field F]

/-- The curve `y² = x³ + a * x + b`. -/
def shortWeierstrass (a b : R) : WeierstrassCurve.Affine R :=
  ⟨0, 0, 0, a, b⟩

namespace ShortWeierstrass

open WeierstrassCurve

section Ring

variable {a b : R}

theorem equation_iff {x y : R} :
    (shortWeierstrass a b).Equation x y ↔ y ^ 2 = x ^ 3 + a * x + b := by
  rw [Affine.equation_iff]
  simp [shortWeierstrass]

theorem discriminant_eq :
    WeierstrassCurve.Δ (shortWeierstrass a b) = -16 * (4 * a ^ 3 + 27 * b ^ 2) := by
  simp only [WeierstrassCurve.Δ, WeierstrassCurve.b₂, WeierstrassCurve.b₄, WeierstrassCurve.b₆,
    WeierstrassCurve.b₈, shortWeierstrass]
  ring

/-- The coordinates of a point, none for the point at infinity. -/
def coordinates : (shortWeierstrass a b).Point → Option (R × R)
  | .zero => none
  | .some x y _ => some (x, y)

@[simp] theorem coordinates_zero : coordinates (0 : (shortWeierstrass a b).Point) = none := rfl

@[simp] theorem coordinates_some {x y : R} (h : (shortWeierstrass a b).Nonsingular x y) :
    coordinates (.some x y h) = some (x, y) := rfl

theorem coordinates_injective :
    Function.Injective (coordinates : (shortWeierstrass a b).Point → Option (R × R)) := by
  intro P Q hPQ
  cases P with
  | zero =>
    cases Q with
    | zero => rfl
    | some x y h => cases hPQ
  | some x y h =>
    cases Q with
    | zero => cases hPQ
    | some x' y' h' =>
      cases hPQ
      rfl

theorem negY_eq (x y : R) : (shortWeierstrass a b).negY x y = -y := by
  simp [shortWeierstrass]

theorem coordinates_neg (P : (shortWeierstrass a b).Point) :
    coordinates (-P) = (coordinates P).map fun c => (c.1, -c.2) := by
  cases P with
  | zero => rfl
  | some x y h => rw [Affine.Point.neg_some, coordinates_some, negY_eq, coordinates_some, Option.map_some]

/-- The reflection of the third point on the line with a slope through `(x₁, y₁)` and a point with
    abscissa `x₂`. -/
def reflectedThird (slope x₁ y₁ x₂ : R) : R × R :=
  (slope * slope - x₁ - x₂, slope * (x₁ - (slope * slope - x₁ - x₂)) - y₁)

end Ring

section Field

variable {a b : F}

/-- On a curve with a discriminant other than zero every point is nonsingular. -/
theorem nonsingular_iff (htwo : (2 : F) ≠ 0) (hdisc : 4 * a ^ 3 + 27 * b ^ 2 ≠ 0) {x y : F} :
    (shortWeierstrass a b).Nonsingular x y ↔ y ^ 2 = x ^ 3 + a * x + b := by
  have hΔ : WeierstrassCurve.Δ (shortWeierstrass a b) ≠ 0 := by
    rw [discriminant_eq, show (-16 : F) = -2 ^ 4 by norm_num]
    exact mul_ne_zero (neg_ne_zero.mpr (pow_ne_zero 4 htwo)) hdisc
  rw [← Affine.equation_iff_nonsingular_of_Δ_ne_zero hΔ, equation_iff]

variable [DecidableEq F]

/-- Chord and tangent addition. It computes with whatever coordinates it is given, also off the
    curve. -/
def sum (a : F) : Option (F × F) → Option (F × F) → Option (F × F)
  | none, Q => Q
  | some P, none => some P
  | some (x₁, y₁), some (x₂, y₂) =>
    if x₁ = x₂ then
      if y₁ = y₂ then
        if y₁ = 0 then none
        else some (reflectedThird ((x₁ * 3 * x₁ + a) / (y₁ * 2)) x₁ y₁ x₁)
      else none
    else some (reflectedThird ((y₂ - y₁) / (x₂ - x₁)) x₁ y₁ x₂)

omit [DecidableEq F] in
/-- Only a point and its reflection have an abscissa in common. -/
theorem eq_or_eq_neg_of_equation {x y₁ y₂ : F} (h₁ : (shortWeierstrass a b).Equation x y₁)
    (h₂ : (shortWeierstrass a b).Equation x y₂) : y₁ = y₂ ∨ y₁ = -y₂ := by
  rw [equation_iff] at h₁ h₂
  exact sq_eq_sq_iff_eq_or_eq_neg.mp (h₁.trans h₂.symm)

/-- The sum of two points that are not opposite is the reflected third point on the line through
    them. -/
theorem coordinates_add_of_ne {x₁ y₁ x₂ y₂ : F} {h₁ : (shortWeierstrass a b).Nonsingular x₁ y₁}
    {h₂ : (shortWeierstrass a b).Nonsingular x₂ y₂} (hne : ¬ (x₁ = x₂ ∧ y₁ = -y₂)) :
    coordinates (.some x₁ y₁ h₁ + .some x₂ y₂ h₂) =
      some (reflectedThird ((shortWeierstrass a b).slope x₁ x₂ y₁ y₂) x₁ y₁ x₂) := by
  rw [Affine.Point.add_some (by rwa [negY_eq]), coordinates_some, Option.some.injEq]
  simp only [reflectedThird, Affine.addY, Affine.negAddY, negY_eq]
  simp only [Affine.addX, shortWeierstrass]
  ext <;> ring

/-- Chord and tangent addition is the group law. -/
theorem coordinates_add (htwo : (2 : F) ≠ 0) (P Q : (shortWeierstrass a b).Point) :
    coordinates (P + Q) = sum a (coordinates P) (coordinates Q) := by
  cases P with
  | zero => rw [← Affine.Point.zero_def, zero_add]; rfl
  | some x₁ y₁ h₁ =>
    cases Q with
    | zero => rw [← Affine.Point.zero_def, add_zero]; rfl
    | some x₂ y₂ h₂ =>
      simp only [coordinates_some, sum]
      by_cases hx : x₁ = x₂
      · subst hx
        rw [if_pos rfl]
        by_cases hy : y₁ = y₂
        · subst hy
          rw [if_pos rfl]
          by_cases hzero : y₁ = 0
          · rw [if_pos hzero, Affine.Point.add_of_Y_eq rfl (by rw [negY_eq, hzero, neg_zero])]
            rfl
          · rw [if_neg hzero]
            have hne : y₁ ≠ -y₁ := fun h => hzero
              ((mul_eq_zero.mp (by linear_combination h : 2 * y₁ = 0)).resolve_left htwo)
            rw [coordinates_add_of_ne fun h => hne h.2,
              Affine.slope_of_Y_ne rfl (by rwa [negY_eq]), negY_eq]
            congr 2
            simp only [shortWeierstrass]
            congr 1 <;> ring
        · have hopposite : y₁ = -y₂ := (eq_or_eq_neg_of_equation h₁.left h₂.left).resolve_left hy
          rw [if_neg hy, Affine.Point.add_of_Y_eq rfl (by rwa [negY_eq])]
          rfl
      · rw [if_neg hx, coordinates_add_of_ne fun h => hx h.1, Affine.slope_of_X_ne hx,
          ← neg_sub y₂ y₁, ← neg_sub x₂ x₁, neg_div_neg_eq]

end Field

end ShortWeierstrass

end PrimeOrder
