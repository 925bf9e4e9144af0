import Mathlib
import PrimeOrder.Proofs.Group.Order
import PrimeOrder.Proofs.Integer.MillerRabin

namespace PrimeOrder

open ShortWeierstrass

/-- Whether parameters have a genuine order: two primes, the first of them three modulo four, a curve
    without singular point, a base point on it that the order multiplies to infinity, and an order at a
    distance from `p + 1` that the number of points of a curve can have. -/
structure CurveParams.HasGenuineOrder (s : CurveParams) (p n : ℕ) [Fact p.Prime] : Prop where
  modulus_eq : s.modulus = p
  order_eq : s.order = n
  cofactor_eq : s.cofactor = 1
  order_prime : n.Prime
  three_mod_four : p % 4 = 3
  discriminant_ne_zero : 4 * (s.a : ZMod p) ^ 3 + 27 * (s.b : ZMod p) ^ 2 ≠ 0
  base_point : ∃ B : (shortWeierstrass (s.a : ZMod p) (s.b : ZMod p)).Point,
    coordinates B = some ((s.baseX : ZMod p), (s.baseY : ZMod p)) ∧ n • B = 0
  order_near : (p + 1 - n : ℤ) ^ 2 ≤ 4 * p

namespace CurveGroup

variable {p n : ℕ} [Fact p.Prime] {G : CurveGroup}

/-- No order in the real interval is cut off by the test of the validation. -/
theorem inOrderInterval_of_sq_le {s : CurveParams}
    (hnear : (s.modulus + 1 - s.order) ^ 2 ≤ 4 * s.modulus) :
    inOrderInterval s = true ∧
      ∃ root, Integer.isqrt s.modulus = .ok root ∧ |s.modulus + 1 - s.order| ≤ 2 * root + 1 := by
  obtain ⟨m, hm⟩ : ∃ m : ℕ, s.modulus = m := by
    apply Int.eq_ofNat_of_zero_le
    have hsquare := sq_nonneg (s.modulus + 1 - s.order)
    omega
  rw [inOrderInterval_eq_true_iff hm]
  rw [hm] at hnear ⊢
  have hdistance := Integer.abs_le_two_mul_sqrt_add_one hnear
  refine ⟨?_, _, Integer.isqrt_natCast m, hdistance⟩
  rw [Int.abs_eq_natAbs] at hdistance
  exact_mod_cast hdistance

theorem hasForm_of_hasGenuineOrder {s : CurveParams} (hs : s.HasGenuineOrder p n) :
    hasForm s = true := by
  have hthree := hs.three_mod_four
  rw [hasForm, Bool.and_eq_true, beq_iff_eq, beq_iff_eq, hs.modulus_eq,
    Int.fmod_eq_emod_of_nonneg _ (by norm_num)]
  exact ⟨by omega, hs.cofactor_eq⟩

theorem isSmooth_of_hasGenuineOrder (hG : G.params.HasGenuineOrder p n) : G.IsSmooth p where
  modulus_eq := hG.modulus_eq
  odd := by
    rintro rfl
    exact absurd hG.three_mod_four (by decide)
  nonsingular := by
    rw [Curve.isSingular_eq (reads hG.modulus_eq)]
    exact decide_eq_false hG.discriminant_ne_zero

/-- The point of the curve that the parameters name is the generator. -/
theorem generator_eq_ofAffine (hmodulus : G.params.modulus = p) {B : (G.affine p).Point}
    (hB : coordinates B = some ((G.params.baseX : ZMod p), (G.params.baseY : ZMod p))) :
    G.generator = G.curve.ofAffine B := by
  rw [generator_eq_ofCoordinates hmodulus, ← hB]
  rfl

theorem IsSmooth.isOnCurve_ofAffine (hG : G.IsSmooth p) (P : (G.affine p).Point) :
    G.isOnCurve (G.curve.ofAffine P) = true := by
  have hmember := hG.isMember_ofAffine P
  exact (Bool.and_eq_true_iff.mp hmember).2

theorem validate_of_hasGenuineOrder {isPrime : PrimalityTest} (hprime : isPrime.AcceptsPrimes)
    (hG : G.params.HasGenuineOrder p n) : G.validate isPrime = .ok true := by
  have hsmooth := isSmooth_of_hasGenuineOrder hG
  obtain ⟨B, hcoordinates, hmultiple⟩ := hG.base_point
  have hgenerator := generator_eq_ofAffine hG.modulus_eq hcoordinates
  rw [validate_eq_ok_true_iff, hgenerator]
  refine ⟨hprime _ ?_, hprime _ ?_, hsmooth.nonsingular, ?_, hsmooth.isOnCurve_ofAffine B, ?_⟩
  · rw [hG.modulus_eq, Int.toNat_natCast]
    exact Fact.out
  · rw [hG.order_eq, Int.toNat_natCast]
    exact hG.order_prime
  · have hnear := hG.order_near
    rw [← hG.modulus_eq, ← hG.order_eq] at hnear
    exact (inOrderInterval_of_sq_le hnear).1
  · rw [hG.order_eq]
    exact hsmooth.exists_mul_isInfinity_iff.mpr hmultiple

/-- The test of the order passes for every order in the real interval, and parameters of a genuine order
    are accepted. -/
theorem genuine_orders_accepted {isPrime : PrimalityTest} (hprime : isPrime.AcceptsPrimes) :
    (∀ s : CurveParams, (s.modulus + 1 - s.order) ^ 2 ≤ 4 * s.modulus →
      inOrderInterval s = true ∧
        ∃ root, Integer.isqrt s.modulus = .ok root ∧ |s.modulus + 1 - s.order| ≤ 2 * root + 1) ∧
    ∀ (id : ℕ) (record : CurveRecord) (p n : ℕ) [Fact p.Prime], record.params.HasGenuineOrder p n →
      ofRequest isPrime id ⟨none, some (.parameters (.curve record))⟩ = .ok ⟨id, record⟩ := by
  refine ⟨fun s => inOrderInterval_of_sq_le, fun id record p n _ hgenuine => ?_⟩
  exact ofRequest_parameters_eq_ok_iff.mpr
    ⟨rfl, hasForm_of_hasGenuineOrder hgenuine, validate_of_hasGenuineOrder hprime hgenuine⟩

/-- The curve `y² = x³ + 3` over the integers modulo seven. It has thirteen points. -/
def thirteenPoints : CurveGroup :=
  ⟨0, CurveParams.record ⟨"s7", 7, 0, 3, 1, 2, 13, 1⟩⟩

instance fact_prime_seven : Fact (Nat.Prime 7) :=
  ⟨by norm_num⟩

theorem hasGenuineOrder_thirteenPoints : thirteenPoints.params.HasGenuineOrder 7 13 := by
  have hsmooth : thirteenPoints.IsSmooth 7 := ⟨rfl, by decide, by decide⟩
  have hpoint : (shortWeierstrass ((0 : ℤ) : ZMod 7) ((3 : ℤ) : ZMod 7)).Nonsingular
      ((1 : ℤ) : ZMod 7) ((2 : ℤ) : ZMod 7) :=
    (nonsingular_iff hsmooth.two_ne_zero hsmooth.discriminant_ne_zero).mpr (by decide)
  have hmultiple : thirteenPoints.generator.mul 13 = .ok thirteenPoints.identity := by cbv
  constructor
  case modulus_eq => rfl
  case order_eq => rfl
  case cofactor_eq => rfl
  case order_prime => norm_num
  case three_mod_four => rfl
  case discriminant_ne_zero => exact hsmooth.discriminant_ne_zero
  case base_point =>
    refine ⟨.some _ _ hpoint, rfl, ?_⟩
    apply hsmooth.exists_mul_isInfinity_iff.mp
    exact ⟨_, hmultiple, rfl⟩
  case order_near => norm_num

/-- Thirteen is at the edge of the real interval around eight: without the one that is added it would be cut
    off. -/
theorem genuine_orders_accepted_thirteen :
    PrimalityTest.AcceptsPrimes Integer.millerRabin ∧
    ((7 + 1 - 13 : ℤ) ^ 2 ≤ 4 * 7 ∧ 2 * (Nat.sqrt 7 : ℤ) < |7 + 1 - 13|) ∧
    thirteenPoints.params.HasGenuineOrder 7 13 ∧
    inOrderInterval thirteenPoints.params = true ∧
    ofRequest Integer.millerRabin 0 ⟨none, some (.parameters (.curve thirteenPoints.record))⟩ =
      .ok thirteenPoints := by
  have hprime := PrimalityTest.acceptsPrimes_millerRabin
  have hgenuine := hasGenuineOrder_thirteenPoints
  obtain ⟨hinterval, haccepted⟩ := genuine_orders_accepted hprime
  refine ⟨hprime, ⟨by norm_num, ?_⟩, hgenuine, ?_, haccepted 0 thirteenPoints.record 7 13 hgenuine⟩
  · rw [show Nat.sqrt 7 = 2 by norm_num]
    norm_num
  · exact (hinterval thirteenPoints.params (by decide)).1

end CurveGroup

end PrimeOrder
