import Mathlib
import PrimeOrder.Proofs.Curve.SmallCount
import PrimeOrder.Proofs.Group.Order

namespace PrimeOrder

/-- Whether the order of a group leads every member to the neutral element, so that reducing an
    exponent changes no power: powers are products of copies, and the power by minus one is the
    inverse. -/
def Group.OrderAnnihilates (G : Group) : Prop :=
  ∀ e, G.Holds e → G.isMember (.element e) = true →
    G.copies e G.order.toNat = .ok G.identity ∧
      (∀ k : ℕ, G.power (.element e) k = G.copies e k) ∧
      G.power (.element e) (-1) = G.inverse (.element e)

namespace CurveGroup

variable {p n : ℕ} [Fact p.Prime] {G : CurveGroup}

instance finite_point (a b : ZMod p) : Finite (shortWeierstrass a b).Point :=
  Finite.of_injective _ ShortWeierstrass.coordinates_injective

/-- Where the order multiplies every point to infinity it annihilates the members. -/
theorem IsSound.orderAnnihilates (hG : G.IsSound (p := p) n)
    (hkilled : ∀ P : (G.affine p).Point, n • P = 0) : (Group.points G).OrderAnnihilates := by
  intro e he hmember
  obtain ⟨P, rfl⟩ := (hG.smooth.isMember_iff he).mp hmember
  have hcomputes := computes hG.smooth
  have hcopies : ∀ k : ℕ, (Group.points G).copies (G.ofAffine P) k = .ok (G.ofAffine (k • P)) :=
    fun k => hcomputes.copies_eq (Multiplicative.ofAdd P) k
  have horder : (Group.points G).order = (n : ℤ) := hG.order_eq
  refine ⟨?_, fun k => ?_, ?_⟩
  · rw [horder, Int.toNat_natCast, hcopies, hkilled, ofAffine_zero]
  · rw [hG.power_ofAffine_eq_zsmul (hkilled P), hcopies, natCast_zsmul]
  · rw [hG.power_ofAffine_eq_zsmul (hkilled P), neg_one_zsmul, IsSmooth.inverse_ofAffine]

/-- A curve with fewer points than twice the order has no points beyond the multiples of the base
    point. -/
theorem IsSound.orderAnnihilates_of_card_lt (hG : G.IsSound (p := p) n)
    (hcard : Nat.card (G.affine p).Point < 2 * n) : (Group.points G).OrderAnnihilates := by
  have : Fact n.Prime := ⟨hG.order_prime⟩
  obtain ⟨B, -, hB, hn⟩ := hG.base_point
  have hdvd : n ∣ Nat.card (G.affine p).Point := by
    rw [← addOrderOf_eq_prime hn hB]
    exact addOrderOf_dvd_natCard B
  obtain ⟨m, hm⟩ := hdvd
  have hpos : 0 < Nat.card (G.affine p).Point := Nat.card_pos
  have hone : m = 1 := by
    have hupper : m < 2 := Nat.lt_of_mul_lt_mul_left (by omega : n * m < n * 2)
    have hlower : m ≠ 0 := by
      rintro rfl
      omega
    omega
  apply hG.orderAnnihilates
  intro P
  rw [← mul_one n, ← hone, ← hm]
  exact card_nsmul_eq_zero'

/-- A prime as near to the modulus as the validation demands is more than half of what the zeros of
    a polynomial leave for the number of points. -/
theorem lt_two_mul_of_near {N : ℕ} (hp : p.Prime) (hn : n.Prime) (hthree : p % 4 = 3)
    (hnear : (p + 1 - n : ℤ).natAbs ≤ 2 * p.sqrt + 1) (hlarge : 44 ≤ p)
    (hN : N ≤ 3 * ((p + 1) / 2) + 1) : N < 2 * n := by
  have hlower : p.sqrt * p.sqrt ≤ p := p.sqrt_le
  have hupper : p < (p.sqrt + 1) * (p.sqrt + 1) := p.lt_succ_sqrt
  generalize p.sqrt = s at *
  have hnmin : p ≤ n + 2 * s := by omega
  by_cases hs : 9 ≤ s
  · have hsquare : 9 * s ≤ p := (Nat.mul_le_mul_right s hs).trans hlower
    omega
  · -- The bound is too weak for the nearest orders, and these are not primes.
    have hp51 : p ≠ 51 := by rintro rfl; norm_num at hp
    have hp55 : p ≠ 55 := by rintro rfl; norm_num at hp
    have hn35 : n ≠ 35 := by rintro rfl; norm_num at hn
    have hn45 : n ≠ 45 := by rintro rfl; norm_num at hn
    have hn51 : n ≠ 51 := by rintro rfl; norm_num at hn
    have hnodd := hn.eq_two_or_odd
    have hs6 : 6 ≤ s := by
      by_contra hsmall
      have := Nat.mul_le_mul (by omega : s + 1 ≤ 6) (by omega : s + 1 ≤ 6)
      omega
    interval_cases s <;> omega

/-- A validated curve over a modulus of 23 or more has fewer points than twice its order. -/
theorem IsSound.card_lt_two_mul (hG : G.IsSound (p := p) n) (hlarge : 23 ≤ p) :
    Nat.card (G.affine p).Point < 2 * n := by
  have hp : p.Prime := Fact.out
  have hn := hG.order_prime
  have hthree := hG.three_mod_four
  have hnear := hG.order_near
  have hpoints : Nat.card (G.affine p).Point ≤ _ := PointCount.card_point_le _ _
  by_cases h44 : 44 ≤ p
  · have hroots := PointCount.card_solutions_le (G.params.a : ZMod p) (G.params.b : ZMod p)
      hG.smooth.odd
    exact lt_two_mul_of_near hp hn hthree hnear h44 (by omega)
  · have hnodd := hn.eq_two_or_odd
    have hn15 : n ≠ 15 := by rintro rfl; norm_num at hn
    have hn21 : n ≠ 21 := by rintro rfl; norm_num at hn
    have hp27 : p ≠ 27 := fun h => by norm_num [h] at hp
    have hp35 : p ≠ 35 := fun h => by norm_num [h] at hp
    have hp39 : p ≠ 39 := fun h => by norm_num [h] at hp
    obtain rfl | rfl | rfl : p = 23 ∨ p = 31 ∨ p = 43 := by omega
    · have hcount := PointCount.card_solutions_modulo23 (G.params.a : ZMod 23) G.params.b
      rw [show Nat.sqrt 23 = 4 by norm_num] at hnear
      omega
    · have hcount := PointCount.card_solutions_modulo31 (G.params.a : ZMod 31) G.params.b
      rw [show Nat.sqrt 31 = 5 by norm_num] at hnear
      omega
    · have hcount := PointCount.card_solutions_modulo43 (G.params.a : ZMod 43) G.params.b
      rw [show Nat.sqrt 43 = 6 by norm_num] at hnear
      omega

/-- Every member of an accepted group over a modulus of 23 or more is led to the neutral element by
    the order. -/
theorem orderAnnihilates_of_ofRequest {isPrime : PrimalityTest} (hprime : isPrime.IsSound) {id : ℕ}
    {record : CurveRecord} {G : CurveGroup}
    (hG : ofRequest isPrime id ⟨none, some (.parameters (.curve record))⟩ = .ok G)
    (hlarge : 23 ≤ G.params.modulus) : (Group.points G).OrderAnnihilates := by
  obtain ⟨p, n, _, hsound⟩ := exists_isSound_of_ofRequest hprime hG
  have hmodulus := hsound.smooth.modulus_eq
  exact hsound.orderAnnihilates_of_card_lt (hsound.card_lt_two_mul (by omega))

theorem orderAnnihilates_of_ofRequest_modulo23 :
    ofRequest (fun x => decide x.toNat.Prime) 0
        ⟨none, some (.parameters (.curve modulo23.record))⟩ = .ok modulo23 ∧
      23 ≤ modulo23.params.modulus ∧ (Group.points modulo23).OrderAnnihilates :=
  ⟨ofRequest_modulo23, le_refl 23,
    orderAnnihilates_of_ofRequest PrimalityTest.decides_trialDivision.isSound ofRequest_modulo23
      (le_refl 23)⟩

/-- The curve `y² = x³ + x + 3` over the integers modulo seven. It has six points, and three of them
    are multiples of the base point. -/
def modulo7 : CurveGroup :=
  ⟨0, CurveParams.record ⟨"s7", 7, 1, 3, 6, 1, 3, 1⟩⟩

/-- The point `(4, 1)`, which has order six. -/
def pointOfOrderSix : Element :=
  .point (modulo7.curve.point (modulo7.field.reduce 4) (modulo7.field.reduce 1))

/-- Over small primes the validation accepts a proper subgroup for the whole curve. -/
theorem not_orderAnnihilates_modulo7 :
    ofRequest (fun x => decide x.toNat.Prime) 0
        ⟨none, some (.parameters (.curve modulo7.record))⟩ = .ok modulo7 ∧
      (Group.points modulo7).isMember (.element pointOfOrderSix) = true ∧
      ¬ (Group.points modulo7).OrderAnnihilates := by
  have hmultiple : modulo7.generator.mul 3 = .ok modulo7.identity := by cbv
  have hcopies : (Group.points modulo7).copies pointOfOrderSix 3 ≠
      .ok (Group.points modulo7).identity := by
    decide +kernel
  have hmember : (Group.points modulo7).isMember (.element pointOfOrderSix) = true := by
    decide +kernel
  refine ⟨ofRequest_parameters_eq_ok_iff.mpr ⟨rfl, rfl, validate_eq_ok_true_iff.mpr
    ⟨?_, ?_, by decide, by decide +kernel, by decide, _, hmultiple, rfl⟩⟩, hmember, ?_⟩
  · exact decide_eq_true (by norm_num : Nat.Prime 7)
  · exact decide_eq_true (by norm_num : Nat.Prime 3)
  · intro h
    refine hcopies (h pointOfOrderSix ⟨rfl, ?_⟩ hmember).1
    rintro x y hxy
    obtain ⟨rfl, rfl⟩ := Prod.mk.inj (Option.some.inj hxy.symm)
    exact ⟨⟨rfl, by decide, by decide⟩, ⟨rfl, by decide, by decide⟩⟩

end CurveGroup

end PrimeOrder
