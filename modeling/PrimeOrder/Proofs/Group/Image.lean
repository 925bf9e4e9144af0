import Mathlib
import PrimeOrder.Proofs.Group.Held
import PrimeOrder.Proofs.Group.Members
import PrimeOrder.Proofs.Group.Total

namespace PrimeOrder

/-- Whether bytes write an integer in the width of a modulus, the most significant byte first. -/
structure Octets.WritesIn (octets : Octets) (n modulus : ℤ) : Prop where
  length_eq : octets.length = Integer.byteLength modulus
  value_eq : (value octets : ℤ) = n

theorem Octets.writesIn_of_ofNatOfLength {octets : Octets} {n modulus : ℤ} (hn : 0 ≤ n)
    (hoctets : ofNatOfLength n.toNat (Integer.byteLength modulus) = .ok octets) :
    octets.WritesIn n modulus := by
  unfold ofNatOfLength at hoctets
  split_ifs at hoctets with hlength
  obtain rfl := Except.ok.inj hoctets
  have hlt := Integer.byteLength_le_iff.mp hlength
  rw [Int.natAbs_natCast] at hlt
  constructor
  · rw [length_writeBefore, List.length_nil, Nat.add_zero]
  · rw [value_writeBefore, Nat.mod_eq_of_lt hlt, List.length_nil, pow_zero, mul_one]
    exact Int.toNat_of_nonneg hn

/-- Whether bytes stand for an element: for a residue if they write its value in the width of the
    modulus, for the point at infinity if they are a single zero, and for any other point if they write
    its abscissa in that width behind the parity of its ordinate. -/
inductive Group.IsImage (G : Group) : Element → Octets → Prop where
  | residue {x : Residue} {octets : Octets} (hvalue : octets.WritesIn x.value G.modulus) :
      IsImage G (.residue x) octets
  | infinity {P : Point} (hP : P.canonical = none) : IsImage G (.point P) [0]
  | affine {P : Point} {x y : ℤ} {octets : Octets} (hP : P.canonical = some (x, y))
      (habscissa : octets.WritesIn x G.modulus) :
      IsImage G (.point P) ((if y % 2 = 0 then 2 else 3) :: octets)

namespace Group

variable {G : Group} {e f : Element} {octets : Octets}

theorem isImage_residue_iff {x : Residue} :
    G.IsImage (.residue x) octets ↔ octets.WritesIn x.value G.modulus := by
  constructor
  · rintro ⟨hvalue⟩
    exact hvalue
  · exact .residue

theorem isImage_point_iff {P : Point} :
    G.IsImage (.point P) octets ↔ P.canonical = none ∧ octets = [0] ∨
      ∃ (x y : ℤ) (abscissa : Octets), P.canonical = some (x, y) ∧ abscissa.WritesIn x G.modulus ∧
        octets = (if y % 2 = 0 then 2 else 3) :: abscissa := by
  constructor
  · intro h
    cases h with
    | infinity hP => exact .inl ⟨hP, rfl⟩
    | affine hP habscissa => exact .inr ⟨_, _, _, hP, habscissa, rfl⟩
  · rintro (⟨hP, rfl⟩ | ⟨x, y, abscissa, hP, habscissa, rfl⟩)
    · exact .infinity hP
    · exact .affine hP habscissa

/-- The first byte is the same for ordinates of the same parity only. -/
theorem mod_two_eq_of_parity_eq {y z : ℤ}
    (h : (if y % 2 = 0 then 2 else 3 : UInt8) = if z % 2 = 0 then 2 else 3) : y % 2 = z % 2 := by
  by_cases hy : y % 2 = 0
  · by_cases hz : z % 2 = 0
    · rw [hy, hz]
    · rw [if_pos hy, if_neg hz] at h
      exact absurd h (by decide)
  · by_cases hz : z % 2 = 0
    · rw [if_neg hy, if_pos hz] at h
      exact absurd h (by decide)
    · omega

theorem InRange.isImage (he : G.InRange e) (himage : G.image (.element e) = .ok octets) :
    G.IsImage e octets := by
  rw [image, he.holds.check_eq, Outcome.ok_bind] at himage
  cases G with
  | residues G =>
    obtain ⟨n, rfl, hpos, hlt⟩ := inRange_residue_iff.mp he
    simp only [G.image_eq (by omega), Octets.ofInteger, if_neg hpos.not_gt,
      if_pos (Int.natCast_nonneg _), Int.toNat_natCast] at himage
    exact .residue (Octets.writesIn_of_ofNatOfLength hpos.le himage)
  | points G =>
    rcases inRange_point_iff.mp he with rfl | ⟨x, y, rfl, hx, -⟩
    · obtain rfl := Except.ok.inj himage
      exact .infinity rfl
    · have hnonneg := (CurveGroup.isCoordinate_iff.mp hx).1
      simp only [Curve.point, Point.serialize, if_neg hnonneg.not_gt] at himage
      split at himage
      case h_1 octets hoctets =>
        obtain rfl := Except.ok.inj himage
        exact .affine rfl (Octets.writesIn_of_ofNatOfLength hnonneg hoctets)
      case h_2 => cases himage

/-- Elements in range have bytes that stand for them, on the curve or in the subgroup or not. -/
theorem InRange.exists_isImage (he : G.InRange e) :
    ∃ octets, G.image (.element e) = .ok octets ∧ G.IsImage e octets := by
  obtain ⟨octets, hoctets⟩ := he.exists_image_eq_ok
  exact ⟨octets, hoctets, he.isImage hoctets⟩

theorem HasMember.inRange (he : G.HasMember e) : G.InRange e := by
  cases G with
  | residues G =>
    obtain ⟨n, rfl⟩ := holds_residues_iff.mp he.holds
    have hmember := he.isMember
    simp only [isMember_residue, ResidueGroup.inSubgroup_eq, SignedResidues.inSubgroup,
      Bool.and_eq_true, decide_eq_true_eq] at hmember
    exact inRange_residue_iff.mpr ⟨n, rfl, hmember.1⟩
  | points G => exact inRange_points_iff_holds.mpr he.holds

theorem hasMember_of_coordinates {H : CurveGroup} {a b : ℤ} (ha : H.isCoordinate a = true)
    (hb : H.isCoordinate b = true)
    (hmember : (points H).isMember
      (.element (.point (H.curve.point ⟨H.field, a⟩ ⟨H.field, b⟩))) = true) :
    (points H).HasMember (.point (H.curve.point ⟨H.field, a⟩ ⟨H.field, b⟩)) :=
  ⟨(inRange_point_iff.mpr (.inr ⟨a, b, rfl, ha, hb⟩)).holds, hmember⟩

end Group

namespace CurveGroup.IsSmooth

variable {p : ℕ} [Fact p.Prime] {G : CurveGroup} {P Q : Point} {x y z : ℤ}

/-- The ordinates of two points over one abscissa agree or add up to the modulus. -/
theorem eq_or_add_eq_modulus (hG : G.IsSmooth p) (hP : (Group.points G).HasMember (.point P))
    (hQ : (Group.points G).HasMember (.point Q)) (hy : P.canonical = some (x, y))
    (hz : Q.canonical = some (x, z)) : y = z ∨ y + z = p := by
  obtain ⟨A, hA⟩ := hG.hasMember_iff_exists_ofAffine.mp hP
  obtain ⟨B, hB⟩ := hG.hasMember_iff_exists_ofAffine.mp hQ
  obtain rfl := Element.point.inj hA
  obtain rfl := Element.point.inj hB
  cases A with
  | zero => cases hy
  | some a b hab =>
    cases B with
    | zero => cases hz
    | some a' c hac =>
      obtain ⟨hx, rfl⟩ := Prod.mk.inj (Option.some.inj hy)
      obtain ⟨hx', rfl⟩ := Prod.mk.inj (Option.some.inj hz)
      obtain rfl : a = a' := ZMod.val_injective p (Int.ofNat.inj (hx.trans hx'.symm))
      change (b.val : ℤ) = c.val ∨ (b.val : ℤ) + c.val = p
      rcases ShortWeierstrass.eq_or_eq_neg_of_equation hab.left hac.left with rfl | rfl
      · exact .inl rfl
      · have hle := c.val_le
        by_cases hzero : c = 0
        · exact .inl (by rw [hzero, neg_zero])
        · rw [ZMod.neg_val, if_neg hzero]
          exact .inr (by omega)

/-- The parity of the ordinate tells the two points over one abscissa apart. -/
theorem eq_of_parity_eq (hG : G.IsSmooth p) (hP : (Group.points G).HasMember (.point P))
    (hQ : (Group.points G).HasMember (.point Q)) (hy : P.canonical = some (x, y))
    (hz : Q.canonical = some (x, z)) (hparity : y % 2 = z % 2) : y = z := by
  have hodd : p % 2 = 1 := (Fact.out : p.Prime).eq_two_or_odd.resolve_left hG.odd
  have hcases := hG.eq_or_add_eq_modulus hP hQ hy hz
  omega

end CurveGroup.IsSmooth

namespace Group

variable {G : Group} {e f : Element} {octets : Octets}

/-- Members of a proper group that have the same bytes are the same. -/
theorem IsProper.eq_of_isImage (hG : G.IsProper) (he : G.HasMember e) (hf : G.HasMember f)
    (himage : G.IsImage e octets) (himage' : G.IsImage f octets) : e = f := by
  cases G with
  | residues G =>
    obtain ⟨n, rfl⟩ := holds_residues_iff.mp he.holds
    obtain ⟨m, rfl⟩ := holds_residues_iff.mp hf.holds
    obtain rfl : n = m := (isImage_residue_iff.mp himage).value_eq.symm.trans
      (isImage_residue_iff.mp himage').value_eq
    rfl
  | points G =>
    obtain ⟨p, hp, hsmooth, -⟩ := hG
    have : Fact p.Prime := ⟨hp⟩
    obtain ⟨c, rfl, -⟩ := holds_points_iff.mp he.holds
    obtain ⟨d, rfl, -⟩ := holds_points_iff.mp hf.holds
    refine congrArg Element.point (Curve.Holds.eq_of_canonical_eq he.holds hf.holds ?_)
    have hne : ∀ y : ℤ, (0 : UInt8) ≠ if y % 2 = 0 then 2 else 3 := by
      intro y
      split_ifs <;> decide
    rcases isImage_point_iff.mp himage with ⟨hP, rfl⟩ | ⟨x, y, abscissa, hP, habscissa, rfl⟩
    · rcases isImage_point_iff.mp himage' with ⟨hQ, -⟩ | ⟨x', z, abscissa', hQ, -, heq⟩
      · rw [hP, hQ]
      · exact absurd (List.cons.inj heq).1 (hne z)
    · rcases isImage_point_iff.mp himage' with ⟨-, heq⟩ | ⟨x', z, abscissa', hQ, habscissa', heq⟩
      · exact absurd (List.cons.inj heq).1.symm (hne y)
      · obtain ⟨hparity, rfl⟩ := List.cons.inj heq
        obtain rfl : x = x' := habscissa.value_eq.symm.trans habscissa'.value_eq
        rw [hP, hQ, hsmooth.eq_of_parity_eq he hf hP hQ (mod_two_eq_of_parity_eq hparity)]

/-- In a group that was built every element in range has bytes, which write its value, or its abscissa
    and the parity of its ordinate, in the width of the modulus. These tell the members apart: they are
    the same exactly for members that are equal, and of the two points over an abscissa the parity
    determines which it is. -/
theorem image_separates {isPrime : PrimalityTest} (hprime : isPrime.IsSound) {τ : Type}
    [RandomSource τ] {backend : Backend} {id : ℕ} {r : GroupRequest} {source next : τ}
    (hbuild : Group.build isPrime backend id r source = .ok (G, next)) :
    (∀ e, G.InRange e → ∃ octets, G.image (.element e) = .ok octets ∧ G.IsImage e octets) ∧
      (∀ e, G.HasMember e → G.InRange e) ∧
      (∀ e f, G.HasMember e → G.HasMember f →
        (G.image (.element e) = G.image (.element f) ↔ e.equals f = .ok true)) ∧
      ∀ P Q x y z, G.HasMember (.point P) → G.HasMember (.point Q) → P.canonical = some (x, y) →
        Q.canonical = some (x, z) → (y = z ∨ y + z = G.modulus) ∧ (y % 2 = z % 2 → y = z) := by
  have hproper := (isAccepted_of_build hbuild).isProper_of_isSound hprime
  refine ⟨fun e he => he.exists_isImage, fun e he => he.inRange, ?_, ?_⟩
  · intro e f he hf
    rw [he.holds.equals_eq hf.holds, Except.ok.injEq, decide_eq_true_eq]
    constructor
    · intro heq
      obtain ⟨octets, hoctets, himage⟩ := he.inRange.exists_isImage
      exact hproper.eq_of_isImage he hf himage (hf.inRange.isImage (heq ▸ hoctets))
    · rintro rfl
      rfl
  · intro P Q x y z hP hQ hy hz
    cases G with
    | residues G => exact hP.holds.elim
    | points G =>
      obtain ⟨p, hp, hsmooth, -⟩ := hproper
      have : Fact p.Prime := ⟨hp⟩
      refine ⟨?_, hsmooth.eq_of_parity_eq hP hQ hy hz⟩
      have hcases := hsmooth.eq_or_add_eq_modulus hP hQ hy hz
      rwa [← hsmooth.modulus_eq] at hcases

/-- The generator modulo 23 and its inverse, which has the same abscissa, have different bytes. A point
    off the curve has bytes too. -/
theorem image_separates_modulo23 :
    let P := CurveGroup.modulo23.generator
    (points CurveGroup.modulo23).HasMember (.point P) ∧
      (points CurveGroup.modulo23).HasMember (.point P.neg) ∧
      (points CurveGroup.modulo23).image (.element (.point P)) ≠
        (points CurveGroup.modulo23).image (.element (.point P.neg)) ∧
      (points CurveGroup.modulo23).InRange CurveGroup.offCurve ∧
      ∃ octets, (points CurveGroup.modulo23).image (.element CurveGroup.offCurve) = .ok octets ∧
        (points CurveGroup.modulo23).IsImage CurveGroup.offCurve octets := by
  intro P
  have hP : (points CurveGroup.modulo23).HasMember (.point P) :=
    hasMember_of_coordinates (by decide) (by decide) (by decide +kernel)
  have hQ : (points CurveGroup.modulo23).HasMember (.point P.neg) :=
    hasMember_of_coordinates (a := 3) (b := 7) (by decide) (by decide) (by decide +kernel)
  have hoff : (points CurveGroup.modulo23).InRange CurveGroup.offCurve :=
    inRange_point_iff.mpr (.inr ⟨1, 1, rfl, by decide, by decide⟩)
  obtain ⟨himage, -, hequal, -⟩ := image_separates PrimalityTest.decides_trialDivision.isSound
    (build_modulo23 (Generator.ofSeed 1))
  refine ⟨hP, hQ, ?_, hoff, himage _ hoff⟩
  intro heq
  exact absurd ((hequal _ _ hP hQ).mp heq) (by decide)

end Group

end PrimeOrder
