import Mathlib
import PrimeOrder.Curve.Point
import PrimeOrder.Proofs.Curve.Weierstrass
import PrimeOrder.Proofs.Field
import PrimeOrder.Proofs.Outcome

namespace PrimeOrder

variable {p : ℕ}

/-- A curve over the integers modulo `p` that has the given coefficients. -/
structure Curve.Reads (C : Curve) (a b : ZMod p) : Prop where
  field_eq : C.field = ⟨p⟩
  a_eq : C.a = .ofZMod a
  b_eq : C.b = .ofZMod b

/-- The point of a curve that has the given coordinates. -/
def Curve.ofCoordinates (C : Curve) (c : Option (ZMod p × ZMod p)) : Point :=
  ⟨C, c.map fun xy => (.ofZMod xy.1, .ofZMod xy.2)⟩

/-- Whether a point was made on a curve from residues of its field, on the curve or not. -/
structure Curve.Holds (C : Curve) (P : Point) : Prop where
  curve_eq : P.curve = C
  residues : ∀ x y, P.coordinates = some (x, y) → C.field.Holds x ∧ C.field.Holds y

/-- The point of a curve that stands for a point of the group over the integers modulo `p`. -/
def Curve.ofAffine (C : Curve) {a b : ZMod p} (P : (shortWeierstrass a b).Point) : Point :=
  C.ofCoordinates (ShortWeierstrass.coordinates P)

namespace Curve

open ShortWeierstrass

variable {C : Curve} {a b : ZMod p}

@[simp] theorem ofCoordinates_none : C.ofCoordinates (none : Option (ZMod p × ZMod p)) = C.infinity :=
  rfl

@[simp] theorem ofCoordinates_some (x y : ZMod p) :
    C.ofCoordinates (some (x, y)) = C.point (.ofZMod x) (.ofZMod y) := rfl

theorem ofCoordinates_injective [NeZero p] :
    Function.Injective (C.ofCoordinates : Option (ZMod p × ZMod p) → Point) := by
  intro c d hcd
  have hcoordinates := congrArg Point.coordinates hcd
  apply Option.map_injective _ hcoordinates
  rintro ⟨x, y⟩ ⟨x', y'⟩ h
  simpa using h

theorem ofAffine_injective [NeZero p] :
    Function.Injective (C.ofAffine : (shortWeierstrass a b).Point → Point) :=
  ofCoordinates_injective.comp coordinates_injective

theorem holds_iff [NeZero p] (hfield : C.field = ⟨p⟩) {P : Point} :
    C.Holds P ↔ ∃ c : Option (ZMod p × ZMod p), P = C.ofCoordinates c := by
  constructor
  · rintro ⟨rfl, hresidues⟩
    rw [hfield] at hresidues
    obtain ⟨curve, coordinates⟩ := P
    cases coordinates with
    | none => exact ⟨none, rfl⟩
    | some xy =>
      obtain ⟨hx, hy⟩ := hresidues xy.1 xy.2 rfl
      obtain ⟨x, hx⟩ := FieldElement.holds_iff.mp hx
      obtain ⟨y, hy⟩ := FieldElement.holds_iff.mp hy
      exact ⟨some (x, y), by simp [Curve.point, ← hx, ← hy]⟩
  · rintro ⟨c, rfl⟩
    refine ⟨rfl, fun x y hxy => ?_⟩
    rw [hfield]
    obtain ⟨⟨x', y'⟩, -, hxy⟩ := Option.map_eq_some_iff.mp hxy
    obtain ⟨rfl, rfl⟩ := Prod.mk.inj hxy
    exact ⟨FieldElement.holds_iff.mpr ⟨x', rfl⟩, FieldElement.holds_iff.mpr ⟨y', rfl⟩⟩

theorem isSingular_eq [NeZero p] (hC : C.Reads a b) :
    C.isSingular = decide (4 * a ^ 3 + 27 * b ^ 2 = 0) := by
  simp only [isSingular, hC.a_eq, hC.b_eq, FieldElement.mulInt_ofZMod, FieldElement.ofZMod_mul,
    FieldElement.ofZMod_add, FieldElement.isZero_ofZMod, decide_eq_decide]
  push_cast
  ring_nf

theorem contains_eq [NeZero p] (hC : C.Reads a b) (x y : ZMod p) :
    C.contains (.ofZMod x) (.ofZMod y) = decide (y ^ 2 = x ^ 3 + a * x + b) := by
  simp only [contains, rhs, hC.a_eq, hC.b_eq, FieldElement.ofZMod_mul, FieldElement.ofZMod_add]
  rw [Bool.eq_iff_iff, beq_iff_eq, FieldElement.ofZMod_inj, decide_eq_true_eq]
  ring_nf

/-- Over a prime that is three modulo four a point is made for an abscissa exactly if the right-hand
    side of the equation is a square there. -/
theorem liftX_eq [Fact p.Prime] (hC : C.Reads a b) (hthree : p % 4 = 3) (n : ℤ)
    [Decidable (IsSquare ((n : ZMod p) ^ 3 + a * n + b))] :
    C.liftX n = .ok (if IsSquare ((n : ZMod p) ^ 3 + a * n + b) then
      some (C.ofCoordinates (some ((n : ZMod p),
        ((n : ZMod p) ^ 3 + a * (n : ZMod p) + b) ^ ((p + 1) / 4)))) else none) := by
  have hmodulus : ((p : ℕ) : ℤ) ≠ 0 := by omega
  have helement : C.field.element n = .ok (.ofZMod (n : ZMod p)) := by
    rw [hC.field_eq, PrimeField.element, if_neg hmodulus, FieldElement.reduce_eq_ofZMod]
  have hrhs : C.rhs (.ofZMod (n : ZMod p)) =
      .ofZMod ((n : ZMod p) ^ 3 + a * (n : ZMod p) + b) := by
    simp only [rhs, hC.a_eq, hC.b_eq, FieldElement.ofZMod_mul, FieldElement.ofZMod_add]
    ring_nf
  rw [liftX, helement, Outcome.ok_bind, hrhs, FieldElement.sqrt_ofZMod hthree, Outcome.ok_bind]
  split_ifs <;> rfl

theorem liftX_eq_ok_some [Fact p.Prime] (hC : C.Reads a b) (hthree : p % 4 = 3) {n : ℤ} {P : Point}
    (hP : C.liftX n = .ok (some P)) :
    ∃ y : ZMod p, P = C.ofCoordinates (some ((n : ZMod p), y)) ∧
      y ^ 2 = (n : ZMod p) ^ 3 + a * (n : ZMod p) + b := by
  classical
  rw [liftX_eq hC hthree] at hP
  split_ifs at hP with hsquare
  · cases hP
    exact ⟨_, rfl, (sq _).trans (Integer.pow_mul_pow_of_isSquare hthree hsquare)⟩
  · cases hP

end Curve

namespace Point

open ShortWeierstrass

variable {C : Curve} {a b : ZMod p}

theorem neg_ofCoordinates [NeZero p] (c : Option (ZMod p × ZMod p)) :
    (C.ofCoordinates c).neg = C.ofCoordinates (c.map fun xy => (xy.1, -xy.2)) := by
  cases c with
  | none => rfl
  | some xy => simp [neg, Curve.ofCoordinates, Curve.point]

theorem reflectedThird_ofZMod [NeZero p] (slope x₁ y₁ x₂ : ZMod p) :
    reflectedThird C (.ofZMod slope) (.ofZMod x₁) (.ofZMod y₁) (.ofZMod x₂) =
      C.ofCoordinates (some (ShortWeierstrass.reflectedThird slope x₁ y₁ x₂)) := by
  simp [reflectedThird, ShortWeierstrass.reflectedThird, Curve.point, Curve.ofCoordinates]

variable [Fact p.Prime]

/-- Points with residues as coordinates can always be added, on the curve or not. -/
theorem add_ofCoordinates (htwo : (2 : ZMod p) ≠ 0) (ha : C.a = .ofZMod a)
    (c d : Option (ZMod p × ZMod p)) :
    (C.ofCoordinates c).add (C.ofCoordinates d) = .ok (C.ofCoordinates (sum a c d)) := by
  match c, d with
  | none, _ => rfl
  | some _, none => rfl
  | some (x₁, y₁), some (x₂, y₂) =>
    simp only [add, Curve.ofCoordinates_some, Curve.point, sum, FieldElement.ofZMod_inj]
    by_cases hx : x₁ = x₂
    · rw [if_pos hx, if_pos hx]
      by_cases hy : y₁ = y₂
      · rw [if_pos hy, if_pos hy, FieldElement.isZero_ofZMod]
        by_cases hzero : y₁ = 0
        · simp [hzero]
        · have hdouble : y₁ * 2 ≠ 0 := mul_ne_zero hzero htwo
          rw [decide_eq_false hzero, if_neg Bool.false_ne_true, if_neg hzero, ha]
          simp only [FieldElement.mulInt_ofZMod, FieldElement.ofZMod_mul, FieldElement.ofZMod_add,
            FieldElement.div_ofZMod _ hdouble, Outcome.ok_bind, reflectedThird_ofZMod, Int.cast_ofNat]
          rfl
      · rw [if_neg hy, if_neg hy]
        rfl
    · rw [if_neg hx, if_neg hx]
      simp only [FieldElement.ofZMod_sub, FieldElement.div_ofZMod _ (sub_ne_zero.mpr (Ne.symm hx)),
        Outcome.ok_bind, reflectedThird_ofZMod]
      rfl

/-- On the points of a curve the addition is that of the group of the curve. -/
theorem add_ofAffine (htwo : (2 : ZMod p) ≠ 0) (ha : C.a = .ofZMod a)
    (P Q : (shortWeierstrass a b).Point) :
    (C.ofAffine P).add (C.ofAffine Q) = .ok (C.ofAffine (P + Q)) := by
  rw [Curve.ofAffine, Curve.ofAffine, add_ofCoordinates htwo ha, Curve.ofAffine,
    coordinates_add htwo]

end Point

end PrimeOrder
