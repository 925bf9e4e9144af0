import Mathlib
import PrimeOrder.Group.Construction
import PrimeOrder.Proofs.Group.Equality
import PrimeOrder.Proofs.Group.Exponents
import PrimeOrder.Proofs.Integer.Primality
import PrimeOrder.Proofs.Integer.Root

namespace PrimeOrder

namespace CurveGroup

variable {p n : ℕ}

/-- A group of points computes as the group of its curve. -/
theorem computes [Fact p.Prime] {G : CurveGroup} (hG : G.IsSmooth p) :
    (Group.points G).Computes fun P : Multiplicative (G.affine p).Point => G.ofAffine P.toAdd := by
  constructor
  case identity_eq => exact (G.ofAffine_zero (p := p)).symm
  case multiply_eq => exact fun P Q => hG.multiply_ofAffine P.toAdd Q.toAdd
  case inverse_eq => exact fun P => IsSmooth.inverse_ofAffine P.toAdd
  case power_eq =>
    intro P k
    rw [hG.power_ofAffine, toAdd_zpow]
    rfl

/-- Whether a group has the properties that its validation is to establish: a smooth curve over a
    prime that is three modulo four, an order that is a prime not too far from the modulus, and a
    base point on the curve whose multiple by the order is at infinity. -/
structure IsSound [Fact p.Prime] (G : CurveGroup) (n : ℕ) : Prop where
  smooth : G.IsSmooth p
  three_mod_four : p % 4 = 3
  order_eq : G.params.order = n
  order_prime : n.Prime
  order_near : (p + 1 - n : ℤ).natAbs ≤ 2 * p.sqrt + 1
  base_point : ∃ B : (G.affine p).Point, (Group.points G).generator = G.ofAffine B ∧ B ≠ 0 ∧ n • B = 0

/-- Given parameters are accepted exactly if they have the form that every group of points needs and
    pass the validation. -/
theorem ofRequest_parameters_eq_ok_iff {isPrime : PrimalityTest} {id : ℕ} {record : CurveRecord}
    {G : CurveGroup} :
    ofRequest isPrime id ⟨none, some (.parameters (.curve record))⟩ = .ok G ↔
      G = ⟨id, record⟩ ∧ hasForm G.params = true ∧ G.validate isPrime = .ok true := by
  change ofRecord isPrime id record = .ok G ↔ _
  rw [ofRecord, Outcome.bind_eq_ok_iff]
  constructor
  · rintro ⟨H, hform, hvalid⟩
    rw [ofForm] at hform
    split at hform
    · rename_i hshape
      cases hform
      obtain ⟨valid, hvalidate, hpure⟩ := Outcome.bind_eq_ok_iff.mp hvalid
      cases valid with
      | false => cases hpure
      | true =>
        cases hpure
        exact ⟨rfl, hshape, hvalidate⟩
    · cases hform
  · rintro ⟨rfl, hshape, hvalidate⟩
    refine ⟨_, if_pos hshape, ?_⟩
    rw [hvalidate]
    rfl

theorem validate_eq_ok_true_iff {isPrime : PrimalityTest} {G : CurveGroup} :
    G.validate isPrime = .ok true ↔
      isPrime G.params.modulus = true ∧ isPrime G.params.order = true ∧
        G.curve.isSingular = false ∧ inOrderInterval G.params = true ∧
        G.isOnCurve G.generator = true ∧
        ∃ P, G.generator.mul G.params.order = .ok P ∧ P.isInfinity = true := by
  rw [← Outcome.map_eq_ok_iff, validate]
  cases isPrime G.params.modulus <;> cases isPrime G.params.order <;> cases G.curve.isSingular <;>
    cases inOrderInterval G.params <;> cases G.isOnCurve G.generator <;> simp

theorem inOrderInterval_eq_true_iff {s : CurveParams} (hmodulus : s.modulus = p) :
    inOrderInterval s = true ↔ (p + 1 - s.order : ℤ).natAbs ≤ 2 * p.sqrt + 1 := by
  rw [inOrderInterval, decide_eq_true_eq, hmodulus, Int.toNat_natCast,
    Integer.floorRoot_root_eq_sqrt]

/-- The generator of a smooth group stands for a point of the curve if it satisfies the equation. -/
theorem IsSmooth.exists_ofAffine_eq_generator [Fact p.Prime] {G : CurveGroup} (hG : G.IsSmooth p)
    (hcurve : G.isOnCurve G.generator = true) :
    ∃ B : (G.affine p).Point, G.generator = G.curve.ofAffine B ∧ B ≠ 0 := by
  have hgenerator := generator_eq_ofCoordinates hG.modulus_eq
  have hequation : G.curve.contains (.ofZMod (G.params.baseX : ZMod p))
      (.ofZMod (G.params.baseY : ZMod p)) = true := by
    rw [hgenerator] at hcurve
    exact hcurve
  rw [Curve.contains_eq (reads hG.modulus_eq), decide_eq_true_eq] at hequation
  have hpoint :=
    (ShortWeierstrass.nonsingular_iff hG.two_ne_zero hG.discriminant_ne_zero).mpr hequation
  exact ⟨.some _ _ hpoint, hgenerator, WeierstrassCurve.Affine.Point.some_ne_zero hpoint⟩

theorem isIdentity_ofAffine {G : CurveGroup} (P : (G.affine p).Point) :
    (G.ofAffine P).isIdentity = decide (P = 0) := by
  cases P with
  | zero => rfl
  | some x y h => exact (decide_eq_false (WeierstrassCurve.Affine.Point.some_ne_zero h)).symm

/-- A multiple of a point comes out at infinity exactly if it is zero in the group of the curve. -/
theorem IsSmooth.exists_mul_isInfinity_iff [Fact p.Prime] {G : CurveGroup} (hG : G.IsSmooth p)
    {P : (G.affine p).Point} :
    (∃ Q, (G.curve.ofAffine P).mul n = .ok Q ∧ Q.isInfinity = true) ↔ n • P = 0 := by
  have hinfinity : (G.curve.ofAffine (n • P)).isInfinity = decide (n • P = 0) :=
    isIdentity_ofAffine (n • P)
  rw [Point.mul_ofAffine hG.two_ne_zero (reads hG.modulus_eq).a_eq, natCast_zsmul]
  simp [hinfinity]

/-- Accepted parameters establish what they are validated for. -/
theorem exists_isSound_of_ofRequest {isPrime : PrimalityTest} (hprime : isPrime.IsSound) {id : ℕ}
    {record : CurveRecord} {G : CurveGroup}
    (hG : ofRequest isPrime id ⟨none, some (.parameters (.curve record))⟩ = .ok G) :
    ∃ (p n : ℕ) (_ : Fact p.Prime), G.IsSound (p := p) n := by
  obtain ⟨-, hform, hvalid⟩ := ofRequest_parameters_eq_ok_iff.mp hG
  obtain ⟨hmodulus, horder, hsingular, hnear, hcurve, hmultiple⟩ := validate_eq_ok_true_iff.mp hvalid
  have hp := hprime _ hmodulus
  have hn := hprime _ horder
  have hmodulusEq : G.params.modulus = (G.params.modulus.toNat : ℤ) := by
    have := hp.pos
    omega
  have horderEq : G.params.order = (G.params.order.toNat : ℤ) := by
    have := hn.pos
    omega
  generalize G.params.modulus.toNat = p at *
  generalize G.params.order.toNat = n at *
  have : Fact p.Prime := ⟨hp⟩
  have hthree : p % 4 = 3 := by
    simp only [hasForm, hmodulusEq, Bool.and_eq_true, beq_iff_eq] at hform
    have hmod : (p : ℤ).fmod 4 = 3 := hform.1
    rw [Int.fmod_eq_emod_of_nonneg _ (by norm_num)] at hmod
    omega
  have hsmooth : G.IsSmooth p := ⟨hmodulusEq, by omega, hsingular⟩
  obtain ⟨B, hgenerator, hB⟩ := hsmooth.exists_ofAffine_eq_generator hcurve
  refine ⟨p, n, ⟨hp⟩, hsmooth, hthree, horderEq, hn, ?_, B, congrArg Element.point hgenerator, hB, ?_⟩
  · rwa [inOrderInterval_eq_true_iff hmodulusEq, horderEq] at hnear
  · rw [hgenerator, horderEq] at hmultiple
    exact hsmooth.exists_mul_isInfinity_iff.mp hmultiple

namespace IsSound

variable [Fact p.Prime] {G : CurveGroup}

/-- A point other than infinity that a prime multiplies to infinity has this prime as its order. -/
theorem zsmul_eq_zsmul_iff (hG : G.IsSound (p := p) n) {B : (G.affine p).Point} (hB : B ≠ 0)
    (hn : n • B = 0) {j k : ℤ} : j • B = k • B ↔ j % n = k % n := by
  have : Fact n.Prime := ⟨hG.order_prime⟩
  rw [zsmul_eq_zsmul_iff_modEq, addOrderOf_eq_prime hn hB]
  rfl

/-- A point that the order multiplies to infinity has the powers that its exponents say, however
    they are reduced. -/
theorem power_ofAffine_eq_zsmul (hG : G.IsSound (p := p) n) {P : (G.affine p).Point}
    (hn : n • P = 0) (k : ℤ) :
    (Group.points G).power (.element (G.ofAffine P)) k = .ok (G.ofAffine (k • P)) := by
  have horder : (Group.points G).order = (n : ℤ) := hG.order_eq
  have hkilled : Multiplicative.ofAdd P ^ (Group.points G).order = 1 := by
    rw [horder, zpow_natCast, ← ofAdd_nsmul, hn, ofAdd_zero]
  exact (computes hG.smooth).power_eq_zpow hkilled k

end IsSound

/-- The order of accepted parameters is the exact order of the generator: powers by two exponents
    are equal just when the exponents are congruent, products and powers of them follow the exponents
    beyond the order and below zero, and only the multiples of the order lead to infinity. -/
theorem order_eq_order_of_generator {isPrime : PrimalityTest} (hprime : isPrime.IsSound) {id : ℕ}
    {record : CurveRecord} {G : CurveGroup}
    (hG : ofRequest isPrime id ⟨none, some (.parameters (.curve record))⟩ = .ok G) (j k : ℤ) :
    ∃ ej ek,
      (Group.points G).power (.element (Group.points G).generator) j = .ok ej ∧
      (Group.points G).power (.element (Group.points G).generator) k = .ok ek ∧
      ej.equals ek = .ok (decide (j % G.params.order = k % G.params.order)) ∧
      (Group.points G).multiply (.element ej) (.element ek) =
        (Group.points G).power (.element (Group.points G).generator) (j + k) ∧
      (Group.points G).power (.element ej) k =
        (Group.points G).power (.element (Group.points G).generator) (j * k) ∧
      (ek.isIdentity = true ↔ G.params.order ∣ k) := by
  obtain ⟨p, n, _, hsound⟩ := exists_isSound_of_ofRequest hprime hG
  obtain ⟨B, hgenerator, hB, hn⟩ := hsound.base_point
  have hjn : n • j • B = 0 := by rw [smul_comm, hn, zsmul_zero]
  simp only [hgenerator, hsound.power_ofAffine_eq_zsmul hn]
  refine ⟨_, _, rfl, rfl, ?_, ?_, ?_, ?_⟩
  · rw [(hsound.smooth.holds_ofAffine _).equals_eq (hsound.smooth.holds_ofAffine _)]
    simp only [G.ofAffine_injective.eq_iff, hsound.zsmul_eq_zsmul_iff hB hn, hsound.order_eq]
  · rw [hsound.smooth.multiply_ofAffine, add_zsmul]
  · rw [hsound.power_ofAffine_eq_zsmul hjn, ← mul_zsmul, mul_comm]
  · rw [isIdentity_ofAffine, decide_eq_true_eq, ← zero_zsmul B, hsound.zsmul_eq_zsmul_iff hB hn,
      Int.zero_emod, hsound.order_eq, Int.dvd_iff_emod_eq_zero]

theorem ofRequest_modulo23 :
    ofRequest (fun x => decide x.toNat.Prime) 0
      ⟨none, some (.parameters (.curve modulo23.record))⟩ = .ok modulo23 := by
  have hmultiple : modulo23.generator.mul 31 = .ok modulo23.identity := by cbv
  refine ofRequest_parameters_eq_ok_iff.mpr ⟨rfl, rfl, ?_⟩
  refine validate_eq_ok_true_iff.mpr
    ⟨?_, ?_, by decide, by decide +kernel, by decide, _, hmultiple, rfl⟩
  · exact decide_eq_true (by norm_num : Nat.Prime 23)
  · exact decide_eq_true (by norm_num : Nat.Prime 31)

theorem order_eq_order_of_generator_modulo23 :
    ofRequest (fun x => decide x.toNat.Prime) 0
        ⟨none, some (.parameters (.curve modulo23.record))⟩ = .ok modulo23 ∧
      ∃ ej ek,
        (Group.points modulo23).power (.element (Group.points modulo23).generator) 40 = .ok ej ∧
        (Group.points modulo23).power (.element (Group.points modulo23).generator) (-22) = .ok ek ∧
        ej.equals ek = .ok true := by
  obtain ⟨ej, ek, hj, hk, hequal, -⟩ := order_eq_order_of_generator
    PrimalityTest.decides_trialDivision.isSound ofRequest_modulo23 40 (-22)
  exact ⟨ofRequest_modulo23, ej, ek, hj, hk, hequal⟩

end CurveGroup

end PrimeOrder
