import Mathlib
import PrimeOrder.Proofs.Curve.OnCurve

namespace PrimeOrder

variable {p : ℕ}

/-- Whether an element of a field is a root of another. -/
def PrimeField.IsRoot (F : PrimeField) (x y : FieldElement) : Prop :=
  F.Holds y ∧ y * y = x

/-- Whether an element is told to be a square exactly if it has a root, and is given one then and none
    otherwise. -/
structure PrimeField.FindsRoot (F : PrimeField) (x : FieldElement) : Prop where
  isSquare : ∃ square, x.isSquare = .ok square ∧ (square = true ↔ ∃ y, F.IsRoot x y)
  root : (∃ y, F.IsRoot x y) → ∃ y, x.sqrt = .ok (some y) ∧ F.IsRoot x y
  no_root : (¬∃ y, F.IsRoot x y) → x.sqrt = .ok none

/-- Whether a curve has a point with a given ordinate over the residue of an integer. -/
def Curve.IsOrdinate (C : Curve) (n : ℤ) (y : FieldElement) : Prop :=
  C.field.Holds y ∧ C.contains ⟨C.field, n % C.field.modulus⟩ y = true

/-- Whether an integer is lifted to a point of a curve over its residue exactly if the curve has such a
    point. -/
structure Curve.Lifts (C : Curve) (n : ℤ) : Prop where
  point : (∃ y, C.IsOrdinate n y) →
    ∃ y, C.liftX n = .ok (some (C.point ⟨C.field, n % C.field.modulus⟩ y)) ∧ C.IsOrdinate n y
  no_point : (¬∃ y, C.IsOrdinate n y) → C.liftX n = .ok none

namespace FieldElement

theorem isRoot_ofZMod_iff [NeZero p] {a : ZMod p} {y : FieldElement} :
    PrimeField.IsRoot ⟨p⟩ (ofZMod a) y ↔ ∃ b : ZMod p, y = ofZMod b ∧ b * b = a := by
  constructor
  · rintro ⟨hy, hroot⟩
    obtain ⟨b, rfl⟩ := holds_iff.mp hy
    rw [ofZMod_mul, ofZMod_inj] at hroot
    exact ⟨b, rfl, hroot⟩
  · rintro ⟨b, rfl, hroot⟩
    exact ⟨holds_iff.mpr ⟨b, rfl⟩, by rw [ofZMod_mul, hroot]⟩

theorem exists_isRoot_ofZMod_iff [NeZero p] {a : ZMod p} :
    (∃ y, PrimeField.IsRoot ⟨p⟩ (ofZMod a) y) ↔ IsSquare a := by
  simp only [isRoot_ofZMod_iff]
  constructor
  · rintro ⟨-, b, -, hb⟩
    exact ⟨b, hb.symm⟩
  · rintro ⟨b, hb⟩
    exact ⟨ofZMod b, b, rfl, hb.symm⟩

/-- The square test and the root agree with the squares among the residue classes. -/
theorem findsRoot_of_holds [Fact p.Prime] (hthree : p % 4 = 3) {x : FieldElement}
    (hx : PrimeField.Holds ⟨p⟩ x) : PrimeField.FindsRoot ⟨p⟩ x := by
  classical
  obtain ⟨a, rfl⟩ := holds_iff.mp hx
  constructor
  case isSquare =>
    refine ⟨_, isSquare_ofZMod (by omega), ?_⟩
    rw [decide_eq_true_eq, exists_isRoot_ofZMod_iff]
  case root =>
    intro hroot
    rw [exists_isRoot_ofZMod_iff] at hroot
    refine ⟨_, by rw [sqrt_ofZMod hthree, if_pos hroot], ?_⟩
    exact isRoot_ofZMod_iff.mpr ⟨_, rfl, Integer.pow_mul_pow_of_isSquare hthree hroot⟩
  case no_root =>
    intro hroot
    rw [exists_isRoot_ofZMod_iff] at hroot
    rw [sqrt_ofZMod hthree, if_neg hroot]

end FieldElement

namespace Curve

section Reads

variable {C : Curve} {a b : ZMod p}

/-- The ordinates over an abscissa are the roots of the right-hand side of the equation there. -/
theorem Reads.isOrdinate_iff [NeZero p] (hC : C.Reads a b) {n : ℤ} {y : FieldElement} :
    C.IsOrdinate n y ↔
      ∃ c : ZMod p, y = .ofZMod c ∧ c ^ 2 = (n : ZMod p) ^ 3 + a * (n : ZMod p) + b := by
  have habscissa : (⟨C.field, n % C.field.modulus⟩ : FieldElement) = .ofZMod (n : ZMod p) := by
    rw [hC.field_eq, FieldElement.ofZMod, ZMod.val_intCast]
  rw [IsOrdinate, habscissa, hC.field_eq]
  constructor
  · rintro ⟨hy, hcontains⟩
    obtain ⟨c, rfl⟩ := FieldElement.holds_iff.mp hy
    rw [contains_eq hC, decide_eq_true_eq] at hcontains
    exact ⟨c, rfl, hcontains⟩
  · rintro ⟨c, rfl, hequation⟩
    refine ⟨FieldElement.holds_iff.mpr ⟨c, rfl⟩, ?_⟩
    rw [contains_eq hC, decide_eq_true_eq]
    exact hequation

theorem Reads.exists_isOrdinate_iff [NeZero p] (hC : C.Reads a b) {n : ℤ} :
    (∃ y, C.IsOrdinate n y) ↔ IsSquare ((n : ZMod p) ^ 3 + a * (n : ZMod p) + b) := by
  simp only [hC.isOrdinate_iff]
  constructor
  · rintro ⟨-, c, -, hc⟩
    exact ⟨c, by rw [← sq, hc]⟩
  · rintro ⟨c, hc⟩
    exact ⟨.ofZMod c, c, rfl, by rw [sq, hc]⟩

theorem Reads.lifts [Fact p.Prime] (hC : C.Reads a b) (hthree : p % 4 = 3) (n : ℤ) : C.Lifts n := by
  classical
  constructor
  case point =>
    intro hordinate
    rw [hC.exists_isOrdinate_iff] at hordinate
    have hroot := Integer.pow_mul_pow_of_isSquare hthree hordinate
    refine ⟨_, ?_, hC.isOrdinate_iff.mpr ⟨_, rfl, (sq _).trans hroot⟩⟩
    rw [liftX_eq hC hthree, if_pos hordinate, ofCoordinates_some, hC.field_eq, FieldElement.ofZMod,
      ZMod.val_intCast]
  case no_point =>
    intro hordinate
    rw [hC.exists_isOrdinate_iff] at hordinate
    rw [liftX_eq hC hthree, if_neg hordinate]

end Reads

/-- Over a prime that is three modulo four squares are told and roots found, and points are found over all
    abscissas that have one, on every curve. -/
theorem findsRoot_and_lifts (hp : p.Prime) (hthree : p % 4 = 3) :
    (∀ x, PrimeField.Holds ⟨p⟩ x → PrimeField.FindsRoot ⟨p⟩ x) ∧
      ∀ C : Curve, C.IsOver p → ∀ n, C.Lifts n := by
  have : Fact p.Prime := ⟨hp⟩
  refine ⟨fun x hx => FieldElement.findsRoot_of_holds hthree hx, fun C hC n => ?_⟩
  obtain ⟨a, b, hreads⟩ := hC.exists_reads
  exact hreads.lifts hthree n

/-- Zero has a root, and the singular point of a curve is found from an integer of its class. -/
theorem findsRoot_and_lifts_nodal :
    (Nat.Prime 23 ∧ 23 % 4 = 3) ∧
    (PrimeField.Holds ⟨23⟩ ⟨⟨23⟩, 0⟩ ∧ PrimeField.FindsRoot ⟨23⟩ ⟨⟨23⟩, 0⟩) ∧
    nodal.IsOver 23 ∧ nodal.IsOrdinate (-22) ⟨⟨23⟩, 0⟩ ∧ nodal.Lifts (-22) := by
  have hprime : Nat.Prime 23 := by norm_num
  have hzero : PrimeField.Holds ⟨23⟩ ⟨⟨23⟩, 0⟩ := ⟨rfl, by decide, by decide⟩
  have hmade : ofCoefficients ⟨23⟩ [.number (.native (-3)), .number (.native 2)] = .ok nodal := rfl
  have hover : nodal.IsOver 23 := isOver_of_ofCoefficients hmade
  obtain ⟨hroots, hlifts⟩ := findsRoot_and_lifts hprime rfl
  exact ⟨⟨hprime, rfl⟩, ⟨hzero, hroots _ hzero⟩, hover, ⟨hzero, rfl⟩, hlifts nodal hover (-22)⟩

/-- The singular point has the abscissa one. -/
example : nodal.liftX (-22) = .ok (some (nodal.point ⟨⟨23⟩, 1⟩ ⟨⟨23⟩, 0⟩)) := by cbv

end Curve

end PrimeOrder
