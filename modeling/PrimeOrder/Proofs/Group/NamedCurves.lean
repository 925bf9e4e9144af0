import Mathlib
import PrimeOrder.Proofs.Curve.Moduli
import PrimeOrder.Proofs.Curve.Weighted
import PrimeOrder.Proofs.Group.Construction
import PrimeOrder.Proofs.Group.Order

namespace PrimeOrder

open ShortWeierstrass

namespace CurveParams

/-- The primes that the certificate of the orders of the named curves starts from. -/
def smallOrderPrimes : List ℕ :=
  [233, 311, 421, 881, 3023, 9349, 28181, 104471, 120233, 155317, 1627771]

/-- Primes up to the orders of the named curves. -/
def orderCertificate : List (ℕ × List ℕ) := [
  (3969899, [104471]),
  (9863677, [881, 311]),
  (44706919, [9349]),
  (191039911, [155317]),
  (272109983, [421, 233]),
  (545358713, [28181]),
  (228572385721, [272109983]),
  (297159362677, [1627771]),
  (1002328039319, [3969899]),
  (23314383343543, [228572385721]),
  (37344768852931, [9863677]),
  (55942463741690639, [37344768852931]),
  (208150935158385979, [191039911, 3023]),
  (174723607534414371449, [44706919, 120233]),
  (426632512014427833817, [23314383343543]),
  (1495199339761412565498084319, [426632512014427833817]),
  (2624747550333869278416773953, [208150935158385979]),
  (17942392077136950785977011829, [1495199339761412565498084319]),
  (29047611873442575647497758179, [297159362677, 545358713]),
  (341948486974166000522343609283189, [29047611873442575647497758179]),
  (1059392654943455286185473617842338478315215895509773412096307,
    [17942392077136950785977011829, 55942463741690639]),
  (3055465788140352002733946906144561090641249606160407884365391979704929268480326390471,
    [1059392654943455286185473617842338478315215895509773412096307]),
  (p256.order.toNat, [2624747550333869278416773953, 1002328039319]),
  (p384.order.toNat,
    [3055465788140352002733946906144561090641249606160407884365391979704929268480326390471]),
  (secp256k1.order.toNat, [341948486974166000522343609283189, 174723607534414371449])]

theorem prime_of_mem_smallOrderPrimes : ∀ q ∈ smallOrderPrimes, q.Prime := by
  intro q hq
  simp only [smallOrderPrimes, List.mem_cons, List.not_mem_nil, or_false] at hq
  rcases hq with rfl | rfl | rfl | rfl | rfl | rfl | rfl | rfl | rfl | rfl | rfl <;> norm_num

theorem check_orderCertificate : Pocklington.check smallOrderPrimes orderCertificate = true := by
  decide +kernel

/-- The curves that have a name have a prime order. -/
theorem prime_order_of_named {s : CurveParams} (hs : s ∈ named) : s.order.toNat.Prime := by
  have hlisted : ∀ s ∈ named, s.order.toNat ∈ orderCertificate.map Prod.fst := by decide +kernel
  obtain ⟨entry, hentry, horder⟩ := List.mem_map.mp (hlisted s hs)
  rw [← horder]
  exact Pocklington.prime_of_check prime_of_mem_smallOrderPrimes check_orderCertificate entry hentry

/-- Whether the numbers of a curve are not negative, its base point satisfies the equation, and the
    multiple of that by the order, of at most 384 bits, comes out at infinity. -/
def closes (s : CurveParams) : Bool :=
  decide (0 ≤ s.a ∧ 0 ≤ s.baseX ∧ 0 ≤ s.baseY) &&
    decide ((s.baseX ^ 3 + s.a * s.baseX + s.b - s.baseY ^ 2) % s.modulus = 0) &&
    decide (s.order.toNat < 2 ^ 384) &&
    (Weighted.multiple s.modulus.toNat s.a.toNat s.baseX.toNat s.baseY.toNat s.order.toNat 384).z == 0

theorem closes_of_named {s : CurveParams} (hs : s ∈ named) : s.closes = true := by
  have hnamed : ∀ s ∈ named, s.closes = true := by decide +kernel
  exact hnamed s hs

theorem inOrderInterval_of_named {s : CurveParams} (hs : s ∈ named) :
    CurveGroup.inOrderInterval s = true := by
  have hnamed : ∀ s ∈ named, CurveGroup.inOrderInterval s = true := by decide +kernel
  exact hnamed s hs

end CurveParams

namespace CurveGroup

variable {isPrime : PrimalityTest} {G : CurveGroup}

theorem IsSmooth.exists_base_of_closes {p n : ℕ} [Fact p.Prime] (hG : G.IsSmooth p)
    (horder : G.params.order = n) (hcloses : G.params.closes = true) :
    ∃ B : (G.affine p).Point,
      (Group.points G).generator = G.ofAffine B ∧ B ≠ 0 ∧ n • B = 0 := by
  simp only [CurveParams.closes, Bool.and_eq_true, decide_eq_true_eq, beq_iff_eq, hG.modulus_eq,
    horder, Int.toNat_natCast] at hcloses
  obtain ⟨⟨⟨⟨ha, hx, hy⟩, hequation⟩, hbits⟩, hz⟩ := hcloses
  have hcast : ∀ m : ℤ, 0 ≤ m → ((m.toNat : ℕ) : ZMod p) = (m : ZMod p) := by
    intro m hm
    rw [← Int.cast_natCast, Int.toNat_of_nonneg hm]
  have hpoint : (G.params.baseY : ZMod p) ^ 2 =
      (G.params.baseX : ZMod p) ^ 3 + G.params.a * G.params.baseX + G.params.b := by
    have hzero := (ZMod.intCast_zmod_eq_zero_iff_dvd _ p).mpr (Int.dvd_of_emod_eq_zero hequation)
    push_cast at hzero
    exact (sub_eq_zero.mp hzero).symm
  have hsmooth := (nonsingular_iff hG.two_ne_zero hG.discriminant_ne_zero).mpr hpoint
  refine ⟨.some _ _ hsmooth, ?_, WeierstrassCurve.Affine.Point.some_ne_zero hsmooth, ?_⟩
  · exact congrArg Element.point (generator_eq_ofCoordinates hG.modulus_eq)
  · refine Weighted.nsmul_eq_zero_of_multiple hG.two_ne_zero (hcast _ ha) ?_ hbits hz
    rw [coordinates_some, hcast _ hx, hcast _ hy]

/-- A group of points that is built is sound, whether its curve is trusted for its name or its
    parameters were validated. -/
theorem IsAccepted.exists_isSound (hprime : isPrime.IsSound) (hG : G.IsAccepted isPrime) :
    ∃ (p n : ℕ) (_ : Fact p.Prime), G.IsSound (p := p) n := by
  rcases hG.trusted with hnamed | hvalid
  · have hp := CurveParams.prime_modulus_of_named hnamed
    have hn := CurveParams.prime_order_of_named hnamed
    have hnear := CurveParams.inOrderInterval_of_named hnamed
    have hmodulus : G.params.modulus = (G.params.modulus.toNat : ℤ) := by
      have := hp.pos
      omega
    have horder : G.params.order = (G.params.order.toNat : ℤ) := by
      have := hn.pos
      omega
    have hthree := (hG.isUsable hprime.rejectsBelowTwo).1
    generalize G.params.modulus.toNat = p at hp hmodulus
    generalize G.params.order.toNat = n at hn horder
    have : Fact p.Prime := ⟨hp⟩
    have hsmooth := hG.isSmooth hprime.rejectsBelowTwo hmodulus
    refine ⟨p, n, ⟨hp⟩, hsmooth, by omega, horder, hn, ?_,
      hsmooth.exists_base_of_closes horder (CurveParams.closes_of_named hnamed)⟩
    rwa [inOrderInterval_eq_true_iff hmodulus, horder] at hnear
  · exact exists_isSound_of_ofRequest hprime
      (ofRequest_parameters_eq_ok_iff.mpr ⟨rfl, hG.hasForm, hvalid⟩)

end CurveGroup

end PrimeOrder
