import Mathlib
import PrimeOrder.Proofs.Group.Encoding
import PrimeOrder.Proofs.Group.Run
import PrimeOrder.Proofs.Random

namespace PrimeOrder

variable {p : ℕ} {isPrime : PrimalityTest} {σ : Type} [RandomSource σ]

namespace ResidueGroup

variable {G : ResidueGroup}

theorem ofDraw_eq_ofZMod [NeZero p] (hmodulus : G.params.modulus = p) {root : ℤ}
    (hroot : 0 ≤ root) :
    (G.ofDraw root).map .residue = .ok (G.ofZMod ((root : ZMod p) * (root : ZMod p))) := by
  have hmul := mul_eq G (by omega) ⟨G, root⟩ ⟨G, root⟩
  rw [mul] at hmul
  rw [ofDraw, G.engine.hold_of_nonneg hroot, Outcome.ok_bind, hmul, ← Int.cast_mul, ofZMod,
    ZMod.val_intCast, hmodulus, Int.fmod_eq_emod_of_nonneg _ (Int.natCast_nonneg p)]
  rfl

/-- What is drawn is the square of a number from one on and below the modulus. -/
theorem exists_root_of_random (hσ : RandomSource.KeepsBounds σ) (hmodulus : 1 < G.params.modulus)
    {s next : σ} {e : Element} (he : (Group.residues G).random s = .ok (e, next)) :
    ∃ root, 0 < root ∧ root < G.params.modulus ∧ (G.ofDraw root).map .residue = .ok e := by
  obtain ⟨⟨x, after⟩, hx, hpair⟩ := Outcome.map_eq_ok_iff.mp he
  obtain ⟨⟨root, rest⟩, hdraw, hsquare⟩ := Outcome.bind_eq_ok_iff.mp hx
  obtain ⟨y, hy, hpure⟩ := Outcome.bind_eq_ok_iff.mp hsquare
  cases hpure
  cases hpair
  have hbounds := hσ _ _ _ _ _ (by omega) hdraw
  exact ⟨root, by omega, by omega, by rw [hy]; rfl⟩

theorem inRange_of_encode (hmodulus : G.params.modulus = 2 * G.params.order + 1)
    (horder : 0 < G.params.order) {data : Octets} {x : Residue} (hx : G.encode data = .ok x) :
    (Group.residues G).InRange (.residue x) := by
  obtain ⟨hdata, symbol, -, rfl⟩ := exists_symbol_of_encode hmodulus horder hx
  have hpos := value_marker_pos data
  have hle := value_marker_le_order horder hdata
  refine Group.inRange_residue_iff.mpr ⟨_, rfl, ?_⟩
  split_ifs <;> omega

variable [Fact p.Prime]

theorem inRange_iff_exists_unit (hmodulus : G.params.modulus = p) {e : Element} :
    (Group.residues G).InRange e ↔ ∃ u : (ZMod p)ˣ, e = G.ofZMod (u : ZMod p) := by
  rw [Group.inRange_residue_iff, hmodulus]
  constructor
  · rintro ⟨n, rfl, hpos, hlt⟩
    exact ⟨Units.mk0 (n : ZMod p) (intCast_ne_zero hpos hlt), residue_eq_ofZMod G hpos.le hlt⟩
  · rintro ⟨u, rfl⟩
    have hne : (u : ZMod p).val ≠ 0 := (ZMod.val_eq_zero _).not.mpr u.ne_zero
    have hlt := (u : ZMod p).val_lt
    exact ⟨_, rfl, by omega, by omega⟩

theorem isClosed_inRange (hmodulus : G.params.modulus = p) (horder : 0 < G.params.order) :
    (Group.residues G).IsClosed (Group.residues G).InRange := by
  have hclosed := (computes_of_prime hmodulus horder).isClosed (fun _ => rfl) ⊤
  simp only [Subgroup.mem_top, true_and, ← inRange_iff_exists_unit hmodulus] at hclosed
  exact hclosed

theorem isInvariant_inRange (hprime : isPrime.RejectsBelowTwo) (hσ : RandomSource.KeepsBounds σ)
    (hG : G.params.IsAccepted isPrime) (hmodulus : G.params.modulus = p) :
    (Group.residues G).IsInvariant σ false (Group.residues G).InRange := by
  obtain ⟨hlarge, horder⟩ := hG.isUsable hprime
  constructor
  case toIsClosed => exact isClosed_inRange hmodulus horder
  case generator =>
    exact Group.inRange_residue_iff.mpr ⟨_, rfl, hG.generator_bounds hprime⟩
  case generate =>
    intro check values e _ he
    exact (Group.generate_eq_ok_iff.mp he).1
  case encode =>
    intro data e he
    obtain ⟨x, hx, rfl⟩ := Outcome.map_eq_ok_iff.mp he
    exact inRange_of_encode hG.modulus_eq horder hx
  case random =>
    intro s e next he
    obtain ⟨root, hpos, hlt, hdraw⟩ := exists_root_of_random hσ hlarge he
    rw [hmodulus] at hlt
    have hroot := intCast_ne_zero (p := p) hpos hlt
    rw [ofDraw_eq_ofZMod hmodulus hpos.le] at hdraw
    cases hdraw
    exact (inRange_iff_exists_unit hmodulus).mpr ⟨Units.mk0 _ hroot * Units.mk0 _ hroot, rfl⟩

end ResidueGroup

namespace CurveGroup

variable {G : CurveGroup}

theorem exists_multiple_of_random {s next : σ} {e : Element}
    (he : (Group.points G).random s = .ok (e, next)) :
    ∃ scalar P, G.generator.mul scalar = .ok P ∧ e = .point P := by
  obtain ⟨⟨P, after⟩, hP, hpair⟩ := Outcome.map_eq_ok_iff.mp he
  obtain ⟨⟨scalar, rest⟩, -, hmul⟩ := Outcome.bind_eq_ok_iff.mp hP
  obtain ⟨Q, hQ, hpure⟩ := Outcome.bind_eq_ok_iff.mp hmul
  cases hpure
  cases hpair
  exact ⟨scalar, P, hQ, rfl⟩

namespace IsSmooth

variable [Fact p.Prime]

theorem holds_iff_exists_coordinates (hG : G.IsSmooth p) {e : Element} :
    (Group.points G).Holds e ↔
      ∃ c : Option (ZMod p × ZMod p), e = .point (G.curve.ofCoordinates c) := by
  constructor
  · intro he
    obtain ⟨c, rfl, -⟩ := Group.holds_points_iff.mp he
    obtain ⟨d, hd⟩ := (Curve.holds_iff (field_eq hG.modulus_eq)).mp he
    exact ⟨d, congrArg Element.point hd⟩
  · rintro ⟨c, rfl⟩
    exact (Curve.holds_iff (field_eq hG.modulus_eq)).mpr ⟨c, rfl⟩

theorem isClosed_inRange (hG : G.IsSmooth p) (horder : 0 < G.params.order) :
    (Group.points G).IsClosed (Group.points G).InRange := by
  have hproper : (Group.points G).IsProper := ⟨p, Fact.out, hG, horder⟩
  have hholds : (Group.points G).InRange = (Group.points G).Holds :=
    funext fun _ => propext Group.inRange_points_iff_holds
  rw [hholds]
  constructor
  case holds => exact fun _ he => he
  case law => exact hproper.law_holds
  case inverse =>
    intro e he
    rw [Group.inverse, he.check_eq, Outcome.ok_bind]
    obtain ⟨c, rfl⟩ := hG.holds_iff_exists_coordinates.mp he
    exact ⟨_, rfl, hG.holds_iff_exists_coordinates.mpr ⟨_, congrArg _ (Point.neg_ofCoordinates c)⟩⟩
  case power =>
    intro e k he
    rw [Group.power, he.check_eq, Outcome.ok_bind]
    obtain ⟨c, rfl⟩ := hG.holds_iff_exists_coordinates.mp he
    obtain ⟨d, hd⟩ := Point.exists_mul_eq hG.two_ne_zero (reads hG.modulus_eq).a_eq c
      (G.reduceExponent k)
    refine ⟨.point (G.curve.ofCoordinates d), ?_, hG.holds_iff_exists_coordinates.mpr ⟨d, rfl⟩⟩
    simp only [power, hd, Outcome.map_ok]
  -- off the curve a table need not give the plain power, but it stays in range
  case raises => exact .inr fun _ he => he

theorem isInvariant_inRange (hG : G.IsSmooth p) (hthree : p % 4 = 3) (horder : 0 < G.params.order) :
    (Group.points G).IsInvariant σ false (Group.points G).InRange := by
  have hclosed := hG.isClosed_inRange horder
  have hgenerator : (Group.points G).InRange (.point G.generator) := by
    rw [Group.inRange_points_iff_holds, generator_eq_ofCoordinates hG.modulus_eq]
    exact hG.holds_iff_exists_coordinates.mpr ⟨_, rfl⟩
  constructor
  case toIsClosed => exact hclosed
  case generator => exact hgenerator
  case generate =>
    intro check values e _ he
    exact (Group.generate_eq_ok_iff.mp he).1
  case encode =>
    intro data e he
    obtain ⟨P, hP, rfl⟩ := Outcome.map_eq_ok_iff.mp he
    obtain ⟨-, c, -, hlift⟩ := exists_liftX_of_encode hP
    obtain ⟨y, rfl, -⟩ := Curve.liftX_eq_ok_some (reads hG.modulus_eq) hthree hlift
    rw [Group.inRange_points_iff_holds]
    exact hG.holds_iff_exists_coordinates.mpr ⟨_, rfl⟩
  case random =>
    intro s e next he
    obtain ⟨scalar, P, hP, rfl⟩ := exists_multiple_of_random he
    exact Outcome.of_eq_ok (hclosed.mul hgenerator scalar) hP

end IsSmooth

end CurveGroup

/-- Whatever is asked of a group that was built, its elements stay in range. -/
theorem Group.isInvariant_inRange (hprime : isPrime.RejectsBelowTwo)
    (hσ : RandomSource.KeepsBounds σ) {G : Group} (hG : G.IsAccepted isPrime)
    (hp : G.modulus.toNat.Prime) : G.IsInvariant σ false G.InRange := by
  have : Fact G.modulus.toNat.Prime := ⟨hp⟩
  have hmodulus : G.modulus = (G.modulus.toNat : ℤ) := by
    have := hp.pos
    omega
  cases G with
  | residues G => exact ResidueGroup.isInvariant_inRange hprime hσ hG hmodulus
  | points G =>
    obtain ⟨hform, -, horder⟩ := CurveGroup.IsAccepted.isUsable hprime hG
    have hsmooth := CurveGroup.IsAccepted.isSmooth hprime hG hmodulus
    have hpos : 0 < G.params.modulus.toNat := hp.pos
    have hthree : G.params.modulus.toNat % 4 = 3 := by omega
    exact hsmooth.isInvariant_inRange hthree horder

/-- The elements that are handed out in a run are in range, checked or not. -/
theorem Group.inRange_of_run (hprime : isPrime.RejectsBelowTwo) (hσ : RandomSource.KeepsBounds σ)
    {G : Group} (hG : G.IsAccepted isPrime) (hp : G.modulus.toNat.Prime) {S : CachedGroup}
    {made : List Element} (hrun : Run σ isPrime G false S made) :
    S.IsSound ∧ S.group = G ∧ ∀ e ∈ made, G.InRange e := by
  have hproper : G.IsProper := by
    apply hG.isProper hprime
    rintro H rfl
    exact hp
  exact (isInvariant_inRange hprime hσ hG hp).run hproper hrun

/-- A point that is not on the curve modulo 23. -/
def CurveGroup.offCurve : Element :=
  .point (modulo23.curve.point ⟨modulo23.field, 1⟩ ⟨modulo23.field, 1⟩)

theorem CurveGroup.isMember_offCurve :
    (Group.points modulo23).isMember (.element offCurve) = false := by
  decide +kernel

/-- Without a check it is made all the same. -/
theorem CurveGroup.run_offCurve (isPrime : PrimalityTest) :
    Group.Run Generator isPrime (.points modulo23) false ⟨.points modulo23, []⟩ [offCurve] :=
  .call (.query (.generate false [.int 1, .int 1])) (Generator.ofSeed 1) .new
    (fun _ he _ => absurd he List.not_mem_nil) (fun h => absurd h Bool.false_ne_true)

end PrimeOrder
