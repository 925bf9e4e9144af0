import Mathlib
import PrimeOrder.Proofs.Group.Points

namespace PrimeOrder

/-- Whether the elements with some property form a commutative group under the multiplication and
    the inverses that a group computes. -/
structure Group.IsAbelian (G : Group) (member : Element → Prop) : Prop where
  identity_mem : member G.identity
  mul_mem : ∀ e f, member e → member f →
    ∃ ef, G.multiply (.element e) (.element f) = .ok ef ∧ member ef
  mul_comm : ∀ e f, member e → member f →
    G.multiply (.element e) (.element f) = G.multiply (.element f) (.element e)
  mul_assoc : ∀ e f g, member e → member f → member g →
    ∃ ef fg efg, G.multiply (.element e) (.element f) = .ok ef ∧
      G.multiply (.element f) (.element g) = .ok fg ∧
      G.multiply (.element ef) (.element g) = .ok efg ∧
      G.multiply (.element e) (.element fg) = .ok efg ∧ member efg
  identity_mul : ∀ e, member e → G.multiply (.element G.identity) (.element e) = .ok e
  mul_identity : ∀ e, member e → G.multiply (.element e) (.element G.identity) = .ok e
  mul_inverse : ∀ e, member e →
    ∃ e', G.inverse (.element e) = .ok e' ∧ member e' ∧
      G.multiply (.element e) (.element e') = .ok G.identity

namespace CurveGroup

/-- The members of a group of points form a commutative group: doublings, opposite points, points
    with ordinate zero and infinity included. -/
theorem isAbelian_members {p : ℕ} [Fact p.Prime] {G : CurveGroup} (hG : G.IsSmooth p) :
    (Group.points G).IsAbelian fun e =>
      (Group.points G).Holds e ∧ (Group.points G).isMember (.element e) = true := by
  have hmem : ∀ P : (G.affine p).Point, (Group.points G).Holds (G.ofAffine P) ∧
      (Group.points G).isMember (.element (G.ofAffine P)) = true := fun P =>
    ⟨hG.holds_ofAffine P, hG.isMember_ofAffine P⟩
  have hpoint : ∀ e, (Group.points G).Holds e ∧ (Group.points G).isMember (.element e) = true →
      ∃ P : (G.affine p).Point, e = G.ofAffine P := fun e he => (hG.isMember_iff he.1).mp he.2
  constructor
  case identity_mem => exact hmem 0
  case mul_mem =>
    intro e f he hf
    obtain ⟨P, rfl⟩ := hpoint e he
    obtain ⟨Q, rfl⟩ := hpoint f hf
    exact ⟨_, hG.multiply_ofAffine P Q, hmem _⟩
  case mul_comm =>
    intro e f he hf
    obtain ⟨P, rfl⟩ := hpoint e he
    obtain ⟨Q, rfl⟩ := hpoint f hf
    rw [hG.multiply_ofAffine, hG.multiply_ofAffine, add_comm]
  case mul_assoc =>
    intro e f g he hf hg
    obtain ⟨P, rfl⟩ := hpoint e he
    obtain ⟨Q, rfl⟩ := hpoint f hf
    obtain ⟨R, rfl⟩ := hpoint g hg
    refine ⟨_, _, _, hG.multiply_ofAffine P Q, hG.multiply_ofAffine Q R,
      hG.multiply_ofAffine (P + Q) R, ?_, hmem _⟩
    rw [hG.multiply_ofAffine, add_assoc]
  case identity_mul =>
    intro e he
    obtain ⟨P, rfl⟩ := hpoint e he
    rw [← G.ofAffine_zero (p := p), hG.multiply_ofAffine, zero_add]
  case mul_identity =>
    intro e he
    obtain ⟨P, rfl⟩ := hpoint e he
    rw [← G.ofAffine_zero (p := p), hG.multiply_ofAffine, add_zero]
  case mul_inverse =>
    intro e he
    obtain ⟨P, rfl⟩ := hpoint e he
    refine ⟨_, IsSmooth.inverse_ofAffine P, hmem _, ?_⟩
    rw [hG.multiply_ofAffine, add_neg_cancel, ofAffine_zero]

theorem isAbelian_members_modulo23 :
    modulo23.IsSmooth 23 ∧ (Group.points modulo23).IsAbelian fun e =>
      (Group.points modulo23).Holds e ∧ (Group.points modulo23).isMember (.element e) = true := by
  have : Fact (Nat.Prime 23) := ⟨by norm_num⟩
  exact ⟨isSmooth_modulo23, isAbelian_members isSmooth_modulo23⟩

end CurveGroup

end PrimeOrder
