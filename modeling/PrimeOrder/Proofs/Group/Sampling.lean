import Mathlib
import PrimeOrder.Proofs.Group.Members
import PrimeOrder.Proofs.Group.NamedCurves

namespace PrimeOrder

open scoped ENNReal

/-- The probability of an outcome is the share of the draws that lead to it. -/
theorem map_uniformOfFinset_apply {α β : Type} [DecidableEq β] {draws : Finset α}
    (hdraws : draws.Nonempty) (f : α → β) (b : β) :
    ((PMF.uniformOfFinset draws hdraws).map f) b =
      ((draws.filter fun a => f a = b).card : ℝ≥0∞) / draws.card := by
  classical
  rw [← PMF.toOuterMeasure_apply_singleton, PMF.toOuterMeasure_map_apply,
    PMF.toOuterMeasure_uniformOfFinset_apply]
  congr!

/-- Draws that are mapped into a set, equally many of them to each of its elements, are that many times as
    many as its elements. -/
theorem card_eq_ncard_mul {α β : Type} [DecidableEq β] {draws : Finset α} {f : α → β} {image : Set β}
    {count : ℕ} (hcount : 0 < count) (hmaps : ∀ a ∈ draws, f a ∈ image)
    (hfiber : ∀ b ∈ image, (draws.filter fun a => f a = b).card = count) :
    draws.card = image.ncard * count := by
  have himage : (draws.image f : Set β) = image := by
    ext b
    rw [Finset.mem_coe, Finset.mem_image]
    constructor
    · rintro ⟨a, ha, rfl⟩
      exact hmaps a ha
    · intro hb
      have hpos : 0 < (draws.filter fun a => f a = b).card := by rwa [hfiber b hb]
      obtain ⟨a, ha⟩ := Finset.card_pos.mp hpos
      exact ⟨a, Finset.mem_filter.mp ha⟩
  rw [Finset.card_eq_sum_card_image f draws, ← himage, Set.ncard_coe_finset]
  refine Finset.sum_const_nat fun b hb => hfiber b ?_
  rwa [← himage, Finset.mem_coe]

namespace Group

/-- The greatest number that an element is drawn for. -/
def greatestDraw : Group → ℤ
  | residues G => G.params.modulus - 1
  | points G => G.params.order - 1

/-- The element for a drawn number. -/
def ofDraw : Group → ℤ → Except Error Element
  | residues G, root => (G.ofDraw root).map .residue
  | points G, scalar => (G.ofDraw scalar).map .point

/-- What is made for a drawn number is made an element before or after the source is put beside it. -/
theorem map_made_eq {α σ : Type} (draw : Except Error (ℤ × σ)) (make : ℤ → Except Error α)
    (wrap : α → Element) :
    (draw.bind fun drawn => (make drawn.1).bind fun x => .ok (x, drawn.2)).map
        (fun made => (wrap made.1, made.2)) =
      draw.bind fun drawn => ((make drawn.1).map wrap).map fun e => (e, drawn.2) := by
  cases draw with
  | error e => rfl
  | ok drawn =>
    simp only [Except.bind]
    cases make drawn.1 <;> rfl

theorem random_eq {σ : Type} [RandomSource σ] (G : Group) (s : σ) :
    G.random s = (RandomSource.draw 1 G.greatestDraw s).bind fun drawn =>
      (G.ofDraw drawn.1).map fun e => (e, drawn.2) := by
  cases G with
  | residues G => exact map_made_eq _ G.ofDraw .residue
  | points G => exact map_made_eq _ G.ofDraw .point

/-- Whether a random element is made for a drawn number, is always one of a sample, and is each of the
    sample with the same probability if the draw is even. -/
structure DrawsEvenly (G : Group) (sample : Set Element) (size : ℕ) : Prop where
  random_eq : ∀ {σ : Type} [RandomSource σ] (s : σ),
    G.random s = (RandomSource.draw 1 G.greatestDraw s).bind fun drawn =>
      (G.ofDraw drawn.1).map fun e => (e, drawn.2)
  mem_sample : ∀ drawn ∈ Set.Icc 1 G.greatestDraw, ∃ e ∈ sample, G.ofDraw drawn = .ok e
  ncard_sample : sample.ncard = size
  uniform : ∃ hdraws : (Finset.Icc 1 G.greatestDraw).Nonempty, ∀ e ∈ sample,
    ((PMF.uniformOfFinset (Finset.Icc 1 G.greatestDraw) hdraws).map G.ofDraw) (.ok e) =
      (size : ℝ≥0∞)⁻¹

/-- Elements that are each made for equally many draws are drawn evenly. -/
theorem DrawsEvenly.of_fibers {G : Group} {sample : Set Element} {count size : ℕ} (hcount : 0 < count)
    (hsize : 0 < size) (hgreatest : G.greatestDraw = (count * size : ℕ))
    (hmem : ∀ drawn ∈ Set.Icc 1 G.greatestDraw, ∃ e ∈ sample, G.ofDraw drawn = .ok e)
    (hfiber : ∀ e ∈ sample, {drawn ∈ Set.Icc 1 G.greatestDraw | G.ofDraw drawn = .ok e}.ncard = count) :
    G.DrawsEvenly sample size := by
  classical
  have hcard : (Finset.Icc 1 G.greatestDraw).card = count * size := by
    rw [Int.card_Icc, hgreatest]
    omega
  have hdraws : (Finset.Icc 1 G.greatestDraw).Nonempty := by
    rw [← Finset.card_pos, hcard]
    exact Nat.mul_pos hcount hsize
  have hfilter : ∀ e ∈ sample,
      ((Finset.Icc 1 G.greatestDraw).filter fun drawn => G.ofDraw drawn = .ok e).card = count := by
    intro e he
    rw [← hfiber e he, ← Set.ncard_coe_finset, Finset.coe_filter]
    simp only [Finset.mem_Icc, Set.mem_Icc]
  refine ⟨G.random_eq, hmem, ?_, hdraws, ?_⟩
  · have hmaps : ∀ drawn ∈ Finset.Icc 1 G.greatestDraw, G.ofDraw drawn ∈ Except.ok '' sample := by
      intro drawn hdrawn
      obtain ⟨e, he, hok⟩ := hmem drawn (Finset.mem_Icc.mp hdrawn)
      exact ⟨e, he, hok.symm⟩
    have hproduct := card_eq_ncard_mul hcount hmaps (Set.forall_mem_image.mpr hfilter)
    rw [hcard, Set.ncard_image_of_injective _ fun _ _ => Except.ok.inj, mul_comm] at hproduct
    exact (Nat.eq_of_mul_eq_mul_right hcount hproduct).symm
  · intro e he
    have hne : (count : ℝ≥0∞) ≠ 0 := Nat.cast_ne_zero.mpr hcount.ne'
    rw [map_uniformOfFinset_apply, hfilter e he, hcard, Nat.cast_mul, ← one_div,
      ← ENNReal.mul_div_mul_left 1 (size : ℝ≥0∞) hne (ENNReal.natCast_ne_top count), mul_one]

end Group

namespace ResidueGroup

variable {p q : ℕ} {G : ResidueGroup}

/-- Numbers in range that are congruent are the same. -/
theorem intCast_eq_iff {r s : ℤ} (hr : r ∈ Set.Icc 1 ((p : ℤ) - 1)) (hs : s ∈ Set.Icc 1 ((p : ℤ) - 1)) :
    (r : ZMod p) = s ↔ r = s := by
  obtain ⟨hr1, hrp⟩ := hr
  obtain ⟨hs1, hsp⟩ := hs
  rw [ZMod.intCast_eq_intCast_iff, Int.ModEq, Int.emod_eq_of_lt (by omega) (by omega),
    Int.emod_eq_of_lt (by omega) (by omega)]

/-- Two numbers are drawn for one element exactly if they agree or add up to the modulus. -/
theorem ofDraw_eq_ofDraw_iff (hG : G.params.IsSafe p q) {r s : ℤ} (hr : r ∈ Set.Icc 1 ((p : ℤ) - 1))
    (hs : s ∈ Set.Icc 1 ((p : ℤ) - 1)) :
    (Group.residues G).ofDraw s = (Group.residues G).ofDraw r ↔ s = r ∨ s = p - r := by
  have : Fact p.Prime := ⟨hG.prime⟩
  have hcomplement : (p : ℤ) - r ∈ Set.Icc 1 ((p : ℤ) - 1) := by
    obtain ⟨hr1, hrp⟩ := hr
    exact ⟨by omega, by omega⟩
  have hneg : -(r : ZMod p) = ((p - r : ℤ) : ZMod p) := by
    rw [Int.cast_sub, Int.cast_natCast, ZMod.natCast_self, zero_sub]
  have hdraw : ∀ {t : ℤ}, t ∈ Set.Icc 1 ((p : ℤ) - 1) →
      (Group.residues G).ofDraw t = .ok (G.ofZMod ((t : ZMod p) * (t : ZMod p))) :=
    fun ht => ofDraw_eq_ofZMod hG.modulus_eq (by have := ht.1; omega)
  rw [hdraw hr, hdraw hs, Except.ok.injEq, G.ofZMod_injective.eq_iff, mul_self_eq_mul_self_iff, hneg,
    intCast_eq_iff hs hr, intCast_eq_iff hs hcomplement]

/-- Every member is made for a number in range and its complement, and for no other. -/
theorem exists_draws_eq_pair (hG : G.params.IsSafe p q) {e : Element}
    (he : (Group.residues G).HasMember e) :
    ∃ r ∈ Set.Icc 1 ((p : ℤ) - 1), r ≠ p - r ∧
      {s ∈ Set.Icc 1 ((p : ℤ) - 1) | (Group.residues G).ofDraw s = .ok e} = {r, p - r} := by
  have : Fact p.Prime := ⟨hG.prime⟩
  obtain ⟨u, hu, rfl⟩ := (hasMember_iff_exists_unit hG).mp he
  have hpow : (u : ZMod p) ^ q = 1 := by
    rw [order_eq hG, zpow_natCast] at hu
    rw [← Units.val_pow_eq_pow_val, hu, Units.val_one]
  obtain ⟨v, hv⟩ := (hG.isSquare_iff u.ne_zero).mpr hpow
  have hvalue : (v.val : ℤ) ∈ Set.Icc 1 ((p : ℤ) - 1) := by
    have hne : v.val ≠ 0 := by
      rw [Ne, ZMod.val_eq_zero]
      rintro rfl
      exact u.ne_zero (hv.trans (mul_zero 0))
    have hlt := v.val_lt
    exact ⟨by omega, by omega⟩
  have hdraw : (Group.residues G).ofDraw v.val = .ok (G.ofZMod (u : ZMod p)) := by
    rw [Group.ofDraw, ofDraw_eq_ofZMod hG.modulus_eq (Int.natCast_nonneg _), Int.cast_natCast,
      ZMod.natCast_zmod_val, hv]
  have hsafe := hG.safe
  refine ⟨v.val, hvalue, by omega, ?_⟩
  ext s
  rw [Set.mem_insert_iff, Set.mem_singleton_iff, ← hdraw]
  constructor
  · rintro ⟨hs, heq⟩
    exact (ofDraw_eq_ofDraw_iff hG hvalue hs).mp heq
  · intro hs
    have hrange : s ∈ Set.Icc 1 ((p : ℤ) - 1) := by
      obtain ⟨h1, hp⟩ := hvalue
      exact ⟨by omega, by omega⟩
    exact ⟨hrange, (ofDraw_eq_ofDraw_iff hG hvalue hrange).mpr hs⟩

/-- Modulo a safe prime every member is drawn with the same probability. -/
theorem drawsEvenly (hG : G.params.IsSafe p q) :
    (Group.residues G).DrawsEvenly {e | (Group.residues G).HasMember e} q := by
  have hgreatest : (Group.residues G).greatestDraw = (p : ℤ) - 1 := by
    rw [Group.greatestDraw, hG.modulus_eq]
  refine .of_fibers two_pos hG.order_prime.pos ?_ ?_ ?_
  · rw [hgreatest, hG.safe]
    omega
  · intro r hr
    rw [hgreatest] at hr
    obtain ⟨hone, hlast⟩ := hr
    have hpos : 0 < r := by omega
    have hlt : r < p := by omega
    obtain ⟨e, hdraw, he⟩ := exists_member_ofDraw hG hpos hlt
    exact ⟨e, he, hdraw⟩
  · intro e he
    obtain ⟨r, -, hne, hpair⟩ := exists_draws_eq_pair hG he
    rw [hgreatest, hpair, Set.ncard_pair hne]

end ResidueGroup

namespace CurveGroup

variable {p n : ℕ} [Fact p.Prime] {G : CurveGroup}

/-- The powers of the generator other than the neutral element. -/
def properPowers (G : CurveGroup) : Set Element :=
  {e | e.isIdentity = false ∧
    ∃ k, (Group.points G).power (.element (Group.points G).generator) k = .ok e}

namespace IsSound

/-- Below the order a number is mapped to the multiple of the base point, and to no multiple twice. -/
theorem bijOn_ofDraw (hG : G.IsSound (p := p) n) :
    Set.BijOn (Group.points G).ofDraw (Set.Icc 1 ((n : ℤ) - 1)) (Except.ok '' G.properPowers) := by
  obtain ⟨B, hgenerator, hB, hn⟩ := hG.base_point
  have hdraw : ∀ k, (Group.points G).ofDraw k = .ok (G.ofAffine (k • B)) := by
    intro k
    have hbase : G.generator = G.curve.ofAffine B := Element.point.inj hgenerator
    rw [Group.ofDraw, CurveGroup.ofDraw, hbase,
      Point.mul_ofAffine hG.smooth.two_ne_zero (reads hG.smooth.modulus_eq).a_eq]
    rfl
  have hpower : ∀ k, (Group.points G).power (.element (Group.points G).generator) k =
      .ok (G.ofAffine (k • B)) := by
    intro k
    rw [hgenerator, hG.power_ofAffine_eq_zsmul hn]
  have hidentity : ∀ k : ℤ, (G.ofAffine (k • B)).isIdentity = false ↔ k % n ≠ 0 := by
    intro k
    rw [isIdentity_ofAffine, decide_eq_false_iff_not, ← zero_zsmul B, hG.zsmul_eq_zsmul_iff hB hn,
      Int.zero_emod]
  refine ⟨?_, ?_, ?_⟩
  · intro k hk
    obtain ⟨h1, hlt⟩ := hk
    refine ⟨_, ⟨(hidentity k).mpr ?_, k, hpower k⟩, (hdraw k).symm⟩
    rw [Int.emod_eq_of_lt (by omega) (by omega)]
    omega
  · intro j hj k hk heq
    obtain ⟨hj1, hjlt⟩ := hj
    obtain ⟨hk1, hklt⟩ := hk
    rw [hdraw, hdraw, Except.ok.injEq, G.ofAffine_injective.eq_iff, hG.zsmul_eq_zsmul_iff hB hn,
      Int.emod_eq_of_lt (by omega) (by omega), Int.emod_eq_of_lt (by omega) (by omega)] at heq
    exact heq
  · rintro _ ⟨e, ⟨hproper, k, hk⟩, rfl⟩
    obtain rfl := Except.ok.inj ((hpower k).symm.trans hk)
    have hpos : (0 : ℤ) < n := by exact_mod_cast hG.order_prime.pos
    have hnonneg := Int.emod_nonneg k hpos.ne'
    have hlt := Int.emod_lt_of_pos k hpos
    have hne := (hidentity k).mp hproper
    refine ⟨k % n, ⟨by omega, by omega⟩, ?_⟩
    rw [hdraw, (hG.zsmul_eq_zsmul_iff hB hn).mpr (Int.emod_emod_of_dvd k dvd_rfl)]

/-- Every power of the generator but the neutral element is drawn with the same probability. -/
theorem drawsEvenly (hG : G.IsSound (p := p) n) :
    (Group.points G).DrawsEvenly G.properPowers (n - 1) := by
  have htwo := hG.order_prime.two_le
  have hgreatest : (Group.points G).greatestDraw = (n : ℤ) - 1 := by
    rw [Group.greatestDraw, hG.order_eq]
  have hbij := hG.bijOn_ofDraw
  rw [← hgreatest] at hbij
  refine .of_fibers one_pos (by omega) ?_ ?_ ?_
  · rw [hgreatest]
    omega
  · intro k hk
    obtain ⟨e, he, hok⟩ := hbij.mapsTo hk
    exact ⟨e, he, hok.symm⟩
  · intro e he
    obtain ⟨k, hk, hdraw⟩ := hbij.surjOn (Set.mem_image_of_mem _ he)
    rw [Set.ncard_eq_one]
    refine ⟨k, Set.eq_singleton_iff_unique_mem.mpr ⟨⟨hk, hdraw⟩, ?_⟩⟩
    rintro j ⟨hj, hdraw'⟩
    exact hbij.injOn hj hk (hdraw'.trans hdraw.symm)

end IsSound

end CurveGroup

namespace Group

/-- Random elements are drawn without bias. In a group of residues modulo a safe prime every member is
    made for exactly two of the numbers that can be drawn, which add up to the modulus. In a group of
    points that is built the numbers that can be drawn are mapped one to one to the powers of the
    generator other than the neutral element. -/
theorem random_unbiased {isPrime : PrimalityTest} (hprime : isPrime.IsSound) :
    (∀ (G : ResidueGroup) (p q : ℕ), G.params.IsSafe p q →
      (residues G).DrawsEvenly {e | (residues G).HasMember e} q ∧
        ∀ e, (residues G).HasMember e → ∃ r ∈ Set.Icc 1 ((p : ℤ) - 1), r ≠ p - r ∧
          {s ∈ Set.Icc 1 ((p : ℤ) - 1) | (residues G).ofDraw s = .ok e} = {r, p - r}) ∧
    ∀ (id : ℕ) (r : GroupRequest) (G : CurveGroup), CurveGroup.ofRequest isPrime id r = .ok G →
      (points G).DrawsEvenly G.properPowers (G.params.order - 1).toNat ∧
        Set.BijOn (points G).ofDraw (Set.Icc 1 (G.params.order - 1)) (Except.ok '' G.properPowers) := by
  refine ⟨fun G p q hG => ⟨ResidueGroup.drawsEvenly hG, fun e he => ?_⟩, ?_⟩
  · exact ResidueGroup.exists_draws_eq_pair hG he
  · intro id r G hG
    obtain ⟨p, n, _, hsound⟩ := (CurveGroup.isAccepted_of_ofRequest hG).exists_isSound hprime
    rw [hsound.order_eq, show ((n : ℤ) - 1).toNat = n - 1 by omega]
    exact ⟨hsound.drawsEvenly, hsound.bijOn_ofDraw⟩

/-- The squares modulo 23 are eleven members, and the curve that is built where none is asked for is
    P-256. -/
theorem random_unbiased_p256 :
    ResidueGroup.modulo23.params.IsSafe 23 11 ∧
      (residues ResidueGroup.modulo23).DrawsEvenly {e | (residues ResidueGroup.modulo23).HasMember e} 11 ∧
      CurveGroup.ofRequest (fun x => decide x.toNat.Prime) 0 ⟨none, none⟩ =
        .ok ⟨0, CurveParams.p256.record⟩ ∧
      (points ⟨0, CurveParams.p256.record⟩).DrawsEvenly
        (CurveGroup.properPowers ⟨0, CurveParams.p256.record⟩)
        (CurveParams.p256.order - 1).toNat := by
  obtain ⟨hresidues, hpoints⟩ := random_unbiased PrimalityTest.decides_trialDivision.isSound
  have hrequest : CurveGroup.ofRequest (fun x => decide x.toNat.Prime) 0 ⟨none, none⟩ =
      .ok ⟨0, CurveParams.p256.record⟩ := rfl
  exact ⟨ResidueGroup.isSafe_modulo23, (hresidues _ _ _ ResidueGroup.isSafe_modulo23).1, hrequest,
    (hpoints _ _ _ hrequest).1⟩

end Group

end PrimeOrder
