import Mathlib
import PrimeOrder.Group.Basic
import PrimeOrder.Proofs.Curve.Multiple

namespace PrimeOrder

open ShortWeierstrass

variable {p : ℕ}

/-- Whether a group is one over an odd prime `p`, on a curve without a singular point. -/
structure CurveGroup.IsSmooth (G : CurveGroup) (p : ℕ) : Prop where
  modulus_eq : G.params.modulus = p
  odd : p ≠ 2
  nonsingular : G.curve.isSingular = false

/-- Whether a group holds an element: the group made it, and the coordinates of a point are residues
    of the field of the group. A point need not be on the curve, nor a residue be a square. -/
def Group.Holds : Group → Element → Prop
  | residues G, .residue x => x.group = G
  | points G, .point P => G.curve.Holds P
  | _, _ => False

theorem Group.holds_residues_iff {H : ResidueGroup} {e : Element} :
    (residues H).Holds e ↔ ∃ n, e = .residue ⟨H, n⟩ := by
  constructor
  · intro he
    cases e with
    | residue x =>
      obtain rfl : x.group = H := he
      exact ⟨x.value, rfl⟩
    | point P => exact he.elim
  · rintro ⟨n, rfl⟩
    rfl

theorem Group.holds_points_iff {H : CurveGroup} {e : Element} :
    (points H).Holds e ↔ ∃ c, e = .point ⟨H.curve, c⟩ ∧
      ∀ x y, c = some (x, y) → H.field.Holds x ∧ H.field.Holds y := by
  constructor
  · intro he
    cases e with
    | residue x => exact he.elim
    | point P =>
      obtain ⟨curve, c⟩ := P
      obtain rfl : curve = H.curve := he.curve_eq
      exact ⟨c, rfl, he.residues⟩
  · rintro ⟨c, rfl, hresidues⟩
    exact ⟨rfl, hresidues⟩

namespace CurveGroup

/-- The group of the curve over the integers modulo `p`. -/
abbrev affine (G : CurveGroup) (p : ℕ) : WeierstrassCurve.Affine (ZMod p) :=
  shortWeierstrass (G.params.a : ZMod p) (G.params.b : ZMod p)

/-- The element that stands for a point of the curve. -/
def ofAffine (G : CurveGroup) (P : (G.affine p).Point) : Element :=
  .point (G.curve.ofAffine P)

theorem field_eq {G : CurveGroup} (hmodulus : G.params.modulus = p) : G.curve.field = ⟨p⟩ := by
  change (⟨G.params.modulus⟩ : PrimeField) = _
  rw [hmodulus]

theorem reads [NeZero p] {G : CurveGroup} (hmodulus : G.params.modulus = p) :
    G.curve.Reads (G.params.a : ZMod p) (G.params.b : ZMod p) := by
  have hfield := field_eq hmodulus
  refine ⟨hfield, ?_, ?_⟩ <;>
    simp only [curve, field, hmodulus, FieldElement.reduce_eq_ofZMod]

theorem generator_eq_ofCoordinates [NeZero p] {G : CurveGroup} (hmodulus : G.params.modulus = p) :
    G.generator =
      G.curve.ofCoordinates (some ((G.params.baseX : ZMod p), (G.params.baseY : ZMod p))) := by
  simp only [generator, field, hmodulus, FieldElement.reduce_eq_ofZMod, Curve.ofCoordinates_some]

theorem ofAffine_zero (G : CurveGroup) :
    G.ofAffine (0 : (G.affine p).Point) = (Group.points G).identity := rfl

theorem ofAffine_injective [NeZero p] (G : CurveGroup) :
    Function.Injective (G.ofAffine : (G.affine p).Point → Element) := by
  intro P Q hPQ
  exact Curve.ofAffine_injective (Element.point.inj hPQ)

namespace IsSmooth

variable [Fact p.Prime] {G : CurveGroup}

theorem two_ne_zero (hG : G.IsSmooth p) : (2 : ZMod p) ≠ 0 := by
  apply Ring.two_ne_zero
  rw [ZMod.ringChar_zmod_n]
  exact hG.odd

theorem discriminant_ne_zero (hG : G.IsSmooth p) :
    4 * (G.params.a : ZMod p) ^ 3 + 27 * (G.params.b : ZMod p) ^ 2 ≠ 0 := by
  have hsingular := hG.nonsingular
  rwa [Curve.isSingular_eq (reads hG.modulus_eq), decide_eq_false_iff_not] at hsingular

/-- The members with residues as coordinates are the points of the group of the curve. -/
theorem isMember_iff (hG : G.IsSmooth p) {e : Element} (he : (Group.points G).Holds e) :
    (Group.points G).isMember (.element e) = true ↔ ∃ P : (G.affine p).Point, e = G.ofAffine P := by
  cases e with
  | residue x => exact he.elim
  | point P =>
    obtain ⟨c, rfl⟩ := (Curve.holds_iff (field_eq hG.modulus_eq)).mp he
    have howns : G.owns (G.curve.ofCoordinates c) = true := beq_self_eq_true G.curve
    simp only [Group.isMember, howns, Bool.true_and]
    constructor
    · intro hcurve
      cases c with
      | none => exact ⟨0, rfl⟩
      | some xy =>
        have hequation : G.curve.contains (.ofZMod xy.1) (.ofZMod xy.2) = true := hcurve
        rw [Curve.contains_eq (reads hG.modulus_eq), decide_eq_true_eq] at hequation
        exact ⟨.some xy.1 xy.2
          ((nonsingular_iff hG.two_ne_zero hG.discriminant_ne_zero).mpr hequation), rfl⟩
    · rintro ⟨P, hP⟩
      obtain rfl : c = coordinates P := Curve.ofCoordinates_injective (Element.point.inj hP)
      cases P with
      | zero => rfl
      | some x y h =>
        change G.curve.contains (.ofZMod x) (.ofZMod y) = true
        rw [Curve.contains_eq (reads hG.modulus_eq), decide_eq_true_eq]
        exact equation_iff.mp h.left

theorem holds_ofAffine (hG : G.IsSmooth p) (P : (G.affine p).Point) :
    (Group.points G).Holds (G.ofAffine P) :=
  (Curve.holds_iff (field_eq hG.modulus_eq)).mpr ⟨coordinates P, rfl⟩

theorem isMember_ofAffine (hG : G.IsSmooth p) (P : (G.affine p).Point) :
    (Group.points G).isMember (.element (G.ofAffine P)) = true :=
  (hG.isMember_iff (hG.holds_ofAffine P)).mpr ⟨P, rfl⟩

omit [Fact p.Prime] in
theorem check_ofAffine (P : (G.affine p).Point) :
    (Group.points G).check (.element (G.ofAffine P)) = .ok (G.ofAffine P) := by
  have howns : G.owns (G.curve.ofAffine P) = true := beq_self_eq_true G.curve
  simp [Group.check, Group.ownsElement, ofAffine, howns]

theorem mul_ofAffine (hG : G.IsSmooth p) (P Q : (G.affine p).Point) :
    (Group.points G).mul (G.ofAffine P) (G.ofAffine Q) = .ok (G.ofAffine (P + Q)) := by
  simp only [Group.mul, ofAffine, Point.add_ofAffine hG.two_ne_zero (reads hG.modulus_eq).a_eq,
    Outcome.map_ok]

/-- The group multiplies its members as the group of the curve adds their points. -/
theorem multiply_ofAffine (hG : G.IsSmooth p) (P Q : (G.affine p).Point) :
    (Group.points G).multiply (.element (G.ofAffine P)) (.element (G.ofAffine Q)) =
      .ok (G.ofAffine (P + Q)) := by
  simp only [Group.multiply, check_ofAffine, Outcome.ok_bind, hG.mul_ofAffine]

theorem inverse_ofAffine (P : (G.affine p).Point) :
    (Group.points G).inverse (.element (G.ofAffine P)) = .ok (G.ofAffine (-P)) := by
  rw [Group.inverse, check_ofAffine, Outcome.ok_bind]
  change Except.ok (Element.point (G.curve.ofAffine P).neg) = _
  rw [Point.neg_ofAffine]
  rfl

theorem power_ofAffine (hG : G.IsSmooth p) (P : (G.affine p).Point) (k : ℤ) :
    (Group.points G).power (.element (G.ofAffine P)) k =
      .ok (G.ofAffine (k.fmod G.params.order • P)) := by
  rw [Group.power, check_ofAffine, Outcome.ok_bind]
  change ((G.curve.ofAffine P).mul (k.fmod G.params.order)).map Element.point = _
  rw [Point.mul_ofAffine hG.two_ne_zero (reads hG.modulus_eq).a_eq]
  rfl

end IsSmooth

/-- The curve `y² = x³ + 20 * x + 8` over the integers modulo 23. It has 31 points. -/
def modulo23 : CurveGroup :=
  ⟨0, CurveParams.record ⟨"s23", 23, 20, 8, 3, 16, 31, 1⟩⟩

theorem isSmooth_modulo23 : modulo23.IsSmooth 23 :=
  ⟨rfl, by decide, by decide⟩

end CurveGroup

end PrimeOrder
