import Mathlib
import PrimeOrder.Proofs.Curve.Multiple
import PrimeOrder.Value.Operand

namespace PrimeOrder

open ShortWeierstrass

variable {p : ℕ} {C : Curve} {P : Point}

/-- Whether a curve is one over the integers modulo `p`: its coefficients are residues. -/
structure Curve.IsOver (C : Curve) (p : ℕ) : Prop where
  field_eq : C.field = ⟨p⟩
  holds_a : C.field.Holds C.a
  holds_b : C.field.Holds C.b

/-- Whether a point was made on a curve and satisfies its equation, unless it is at infinity. -/
structure Curve.HasPoint (C : Curve) (P : Point) : Prop extends C.Holds P where
  contains : ∀ x y, P.coordinates = some (x, y) → C.contains x y = true

/-- Whether multiples of a point by integers are sums of its copies, or of copies of its reflection
    for integers below zero, and add up and multiply as the integers do. All of them are on the curve,
    and a field element stands for its residue. -/
structure Curve.MultipliesPoint (C : Curve) (P : Point) : Prop where
  total : ∀ k, ∃ Q, P.mul k = .ok Q ∧ C.HasPoint Q
  mul_natCast : ∀ n : ℕ, P.mul n = P.copies n
  mul_neg_natCast : ∀ n : ℕ, P.mul (-n) = P.neg.copies n
  mul_add : ∀ j k, P.mul (j + k) = do (← P.mul j).add (← P.mul k)
  mul_mul : ∀ j k, P.mul (j * k) = do (← P.mul j).mul k
  mul_element : ∀ (F : PrimeField) n, 0 < F.modulus →
    ∃ x, F.element n = .ok x ∧ P.mulValue (.fieldElement x) = P.mul (n % F.modulus)

namespace ShortWeierstrass

variable {F : Type*} [Field F] {a b : F}

/-- A point with an ordinate other than zero is nonsingular on any curve. -/
theorem nonsingular_of_ne_zero (htwo : (2 : F) ≠ 0) {x y : F} (hy : y ≠ 0)
    (hequation : y ^ 2 = x ^ 3 + a * x + b) : (shortWeierstrass a b).Nonsingular x y := by
  rw [WeierstrassCurve.Affine.nonsingular_iff, equation_iff]
  refine ⟨hequation, .inr fun hreflected => hy ?_⟩
  have hdouble : 2 * y = 0 := by
    simp only [shortWeierstrass, zero_mul, sub_zero] at hreflected
    linear_combination hreflected
  exact (mul_eq_zero.mp hdouble).resolve_left htwo

end ShortWeierstrass

namespace Curve

/-- A curve that is made of its coefficients is over the field it is made over. -/
theorem isOver_of_ofCoefficients [NeZero p] {values : List Value}
    (hC : ofCoefficients ⟨p⟩ values = .ok C) : C.IsOver p := by
  have hreduced : ∀ v x, PrimeField.elementOf ⟨p⟩ v = .ok x → PrimeField.Holds ⟨p⟩ x := by
    intro v x hx
    obtain ⟨n, -, hn⟩ := Outcome.bind_eq_ok_iff.mp hx
    rw [PrimeField.element, if_neg (NeZero.ne (p : ℤ)), FieldElement.reduce_eq_ofZMod] at hn
    exact FieldElement.holds_iff.mpr ⟨_, (Except.ok.inj hn).symm⟩
  unfold ofCoefficients at hC
  split at hC
  case h_1 v w =>
    obtain ⟨a, ha, hrest⟩ := Outcome.bind_eq_ok_iff.mp hC
    obtain ⟨b, hb, hcurve⟩ := Outcome.bind_eq_ok_iff.mp hrest
    cases hcurve
    exact ⟨rfl, hreduced v a ha, hreduced w b hb⟩
  case h_2 => cases hC

theorem IsOver.exists_reads [NeZero p] (hC : C.IsOver p) : ∃ a b : ZMod p, C.Reads a b := by
  obtain ⟨hfield, ha, hb⟩ := hC
  rw [hfield] at ha hb
  obtain ⟨a, ha⟩ := FieldElement.holds_iff.mp ha
  obtain ⟨b, hb⟩ := FieldElement.holds_iff.mp hb
  exact ⟨a, b, hfield, ha, hb⟩

section Reads

variable {a b : ZMod p}

theorem Reads.hasPoint_iff [NeZero p] (hC : C.Reads a b) :
    C.HasPoint P ↔ ∃ c : Option (ZMod p × ZMod p), P = C.ofCoordinates c ∧
      ∀ x y, c = some (x, y) → y ^ 2 = x ^ 3 + a * x + b := by
  constructor
  · rintro ⟨hholds, hcontains⟩
    obtain ⟨c, rfl⟩ := (holds_iff hC.field_eq).mp hholds
    refine ⟨c, rfl, ?_⟩
    rintro x y rfl
    have hequation := hcontains (.ofZMod x) (.ofZMod y) rfl
    rwa [contains_eq hC, decide_eq_true_eq] at hequation
  · rintro ⟨c, rfl, hequation⟩
    refine ⟨(holds_iff hC.field_eq).mpr ⟨c, rfl⟩, fun x y hxy => ?_⟩
    cases c with
    | none => cases hxy
    | some xy =>
      cases hxy
      rw [contains_eq hC, decide_eq_true_eq]
      exact hequation xy.1 xy.2 rfl

variable [Fact p.Prime]

theorem Reads.hasPoint_ofAffine (hC : C.Reads a b) (S : (shortWeierstrass a b).Point) :
    C.HasPoint (C.ofAffine S) := by
  refine hC.hasPoint_iff.mpr ⟨_, rfl, fun x y hxy => ?_⟩
  cases S with
  | zero => cases hxy
  | some x' y' h =>
    cases hxy
    exact equation_iff.mp h.left

/-- The two multiples of a point with ordinate zero. -/
def orderTwo (C : Curve) (x : ZMod p) (S : ZMod 2) : Point :=
  C.ofCoordinates (if S = 0 then none else some (x, 0))

/-- Whether it is singular or not, a point with ordinate zero doubles to infinity. -/
theorem Reads.represents_orderTwo (hC : C.Reads a b) (htwo : (2 : ZMod p) ≠ 0) (x : ZMod p) :
    C.Represents (C.orderTwo x) := by
  have hcases : ∀ S : ZMod 2, S = 0 ∨ S = 1 := by decide
  constructor
  case curve_eq => exact fun _ => rfl
  case zero_eq => rfl
  case neg_eq =>
    intro S
    rw [orderTwo, Point.neg_ofCoordinates, orderTwo, ZMod.neg_eq_self_mod_two]
    rcases hcases S with rfl | rfl <;> simp
  case add_eq =>
    intro S T
    rw [orderTwo, orderTwo, Point.add_ofCoordinates htwo hC.a_eq, orderTwo]
    rcases hcases S with rfl | rfl <;> rcases hcases T with rfl | rfl <;>
      simp [sum, CharTwo.add_self_eq_zero]

/-- Every point on a curve is in a group of points on that curve, a singular one or not. -/
theorem Reads.exists_represents (hC : C.Reads a b) (htwo : (2 : ZMod p) ≠ 0) (hP : C.HasPoint P) :
    ∃ (A : Type) (_ : AddCommGroup A) (write : A → Point),
      C.Represents write ∧ (∀ S, C.HasPoint (write S)) ∧ ∃ S, write S = P := by
  obtain ⟨c, rfl, hequation⟩ := hC.hasPoint_iff.mp hP
  have haffine : C.Represents (C.ofAffine : (shortWeierstrass a b).Point → Point) :=
    Point.represents_ofAffine htwo hC.a_eq
  match c with
  | none => exact ⟨_, _, _, haffine, hC.hasPoint_ofAffine, 0, rfl⟩
  | some (x, y) =>
    by_cases hzero : y = 0
    · subst hzero
      refine ⟨_, _, _, hC.represents_orderTwo htwo x, fun S => ?_, 1, rfl⟩
      refine hC.hasPoint_iff.mpr ⟨_, rfl, fun x' y' hxy => ?_⟩
      split at hxy
      · cases hxy
      · exact hequation x' y' hxy
    · have hnonsingular : (shortWeierstrass a b).Nonsingular x y :=
        nonsingular_of_ne_zero htwo hzero (hequation x y rfl)
      exact ⟨_, _, _, haffine, hC.hasPoint_ofAffine, .some x y hnonsingular, rfl⟩

end Reads

theorem Represents.multipliesPoint {A : Type} [AddCommGroup A] {write : A → Point}
    (h : C.Represents write) (hpoints : ∀ S, C.HasPoint (write S)) (S : A) :
    C.MultipliesPoint (write S) := by
  constructor
  case total => exact fun k => ⟨_, h.mul_eq S k, hpoints _⟩
  case mul_natCast =>
    intro n
    rw [h.mul_eq, h.copies_eq, natCast_zsmul]
  case mul_neg_natCast =>
    intro n
    rw [h.mul_eq, h.neg_eq, h.copies_eq, neg_zsmul, natCast_zsmul, ← neg_nsmul]
  case mul_add =>
    intro j k
    simp only [h.mul_eq, Outcome.ok_bind, h.add_eq, add_zsmul]
  case mul_mul =>
    intro j k
    simp only [h.mul_eq, Outcome.ok_bind, mul_zsmul']
  case mul_element =>
    intro F n hpos
    refine ⟨_, if_neg hpos.ne', ?_⟩
    exact congrArg (write S).mul (Int.fmod_eq_emod_of_nonneg n hpos.le)

/-- Doubling and adding computes the multiples of every point on a curve over an odd prime field,
    also of infinity and of singular points. -/
theorem multipliesPoint_of_hasPoint (hp : p.Prime) (hodd : p ≠ 2) (hC : C.IsOver p)
    (hP : C.HasPoint P) : C.MultipliesPoint P := by
  have : Fact p.Prime := ⟨hp⟩
  have htwo : (2 : ZMod p) ≠ 0 := Ring.two_ne_zero (by rwa [ZMod.ringChar_zmod_n])
  obtain ⟨a, b, hreads⟩ := hC.exists_reads
  obtain ⟨A, _, write, hwrite, hpoints, S, rfl⟩ := hreads.exists_represents htwo hP
  exact hwrite.multipliesPoint hpoints S

/-- The curve `y² = (x - 1)² * (x + 2)` over the integers modulo 23, with a node at `(1, 0)`. -/
def nodal : Curve :=
  ⟨⟨23⟩, ⟨⟨23⟩, 20⟩, ⟨⟨23⟩, 2⟩, none⟩

/-- A curve with a singular point has other points too. -/
theorem multipliesPoint_nodal :
    ofCoefficients ⟨23⟩ [.number (.native (-3)), .number (.native 2)] = .ok nodal ∧
      nodal.isSingular = true ∧
      nodal.MultipliesPoint (nodal.point ⟨⟨23⟩, 2⟩ ⟨⟨23⟩, 2⟩) := by
  have hmade : ofCoefficients ⟨23⟩ [.number (.native (-3)), .number (.native 2)] = .ok nodal := rfl
  have hpoint : nodal.HasPoint (nodal.point ⟨⟨23⟩, 2⟩ ⟨⟨23⟩, 2⟩) := by
    refine ⟨⟨rfl, fun x y hxy => ?_⟩, fun x y hxy => ?_⟩
    · cases hxy
      exact ⟨⟨rfl, by decide, by decide⟩, ⟨rfl, by decide, by decide⟩⟩
    · cases hxy
      rfl
  exact ⟨hmade, rfl, multipliesPoint_of_hasPoint (p := 23) (by norm_num) (by decide)
    (isOver_of_ofCoefficients hmade) hpoint⟩

end Curve

end PrimeOrder
