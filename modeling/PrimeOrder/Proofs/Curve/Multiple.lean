import Mathlib
import PrimeOrder.Proofs.Curve.Addition

namespace PrimeOrder

namespace Point

/-- The sum of so many copies of a point, added from the left. -/
def copies (P : Point) : ℕ → Except Error Point
  | 0 => .ok P.curve.infinity
  | n + 1 => do (← P.copies n).add P

end Point

/-- Whether points of a curve add up and are reflected as the elements of a group they are written
    for. -/
structure Curve.Represents (C : Curve) {A : Type} [AddCommGroup A] (write : A → Point) : Prop where
  curve_eq : ∀ S, (write S).curve = C
  zero_eq : write 0 = C.infinity
  neg_eq : ∀ S, (write S).neg = write (-S)
  add_eq : ∀ S T, (write S).add (write T) = .ok (write (S + T))

namespace Curve.Represents

variable {C : Curve} {A : Type} [AddCommGroup A] {write : A → Point} (h : C.Represents write)
include h

/-- What is still to be added is the multiple of the addend by the bits that are left. -/
theorem addMultiple_eq (S T : A) (k : ℕ) :
    (write S).addMultiple (write T) k = .ok (write (S + k • T)) := by
  induction k using Nat.strong_induction_on generalizing S T with
  | _ k ih =>
    rw [Point.addMultiple]
    by_cases hzero : k = 0
    · rw [if_pos hzero, hzero, zero_nsmul, add_zero]
    · have hhalf : k / 2 < k := by omega
      rw [if_neg hzero, h.add_eq T T]
      by_cases hbit : k % 2 = 1
      · rw [if_pos hbit, h.add_eq S T, Outcome.ok_bind]
        simp only [Outcome.ok_bind, ih _ hhalf]
        have hsplit : k = 1 + 2 * (k / 2) := by omega
        conv_rhs => rw [hsplit, add_nsmul, one_nsmul, mul_nsmul, two_nsmul, ← add_assoc]
      · rw [if_neg hbit]
        change Point.addMultiple _ _ _ = _
        rw [ih _ hhalf]
        have hsplit : k = 2 * (k / 2) := by omega
        conv_rhs => rw [hsplit, mul_nsmul, two_nsmul]

theorem mul_eq (S : A) (k : ℤ) : (write S).mul k = .ok (write (k • S)) := by
  rw [Point.mul, h.curve_eq, ← h.zero_eq]
  by_cases hneg : k < 0
  · rw [if_pos hneg, h.neg_eq, h.addMultiple_eq, zero_add]
    have hk : k = -(k.natAbs : ℤ) := by omega
    conv_rhs => rw [hk, neg_zsmul, natCast_zsmul, ← neg_nsmul]
  · rw [if_neg hneg, h.addMultiple_eq, zero_add]
    have hk : k = (k.natAbs : ℤ) := by omega
    conv_rhs => rw [hk, natCast_zsmul]

theorem copies_eq (S : A) (n : ℕ) : (write S).copies n = .ok (write (n • S)) := by
  induction n with
  | zero => rw [Point.copies, h.curve_eq, ← h.zero_eq, zero_nsmul]
  | succ n ih => rw [Point.copies, ih, Outcome.ok_bind, h.add_eq, succ_nsmul]

end Curve.Represents

namespace Point

open ShortWeierstrass

variable {p : ℕ} [Fact p.Prime] {C : Curve} {a b : ZMod p}

theorem neg_ofAffine (P : (shortWeierstrass a b).Point) :
    (C.ofAffine P).neg = C.ofAffine (-P) := by
  rw [Curve.ofAffine, neg_ofCoordinates, Curve.ofAffine, coordinates_neg]

theorem represents_ofAffine (htwo : (2 : ZMod p) ≠ 0) (ha : C.a = .ofZMod a) :
    C.Represents (C.ofAffine : (shortWeierstrass a b).Point → Point) :=
  ⟨fun _ => rfl, rfl, neg_ofAffine, add_ofAffine htwo ha⟩

theorem mul_ofAffine (htwo : (2 : ZMod p) ≠ 0) (ha : C.a = .ofZMod a)
    (P : (shortWeierstrass a b).Point) (k : ℤ) :
    (C.ofAffine P).mul k = .ok (C.ofAffine (k • P)) :=
  (represents_ofAffine htwo ha).mul_eq P k

/-- Off the curve the sums are no multiples of anything, but none of them fails. -/
theorem exists_addMultiple_eq (htwo : (2 : ZMod p) ≠ 0) (ha : C.a = .ofZMod a)
    (s c : Option (ZMod p × ZMod p)) (k : ℕ) :
    ∃ d : Option (ZMod p × ZMod p),
      addMultiple (C.ofCoordinates s) (C.ofCoordinates c) k = .ok (C.ofCoordinates d) := by
  induction k using Nat.strong_induction_on generalizing s c with
  | _ k ih =>
    rw [addMultiple]
    by_cases hzero : k = 0
    · exact ⟨s, if_pos hzero⟩
    · have hhalf : k / 2 < k := by omega
      rw [if_neg hzero, add_ofCoordinates htwo ha c c]
      by_cases hbit : k % 2 = 1
      · rw [if_pos hbit, add_ofCoordinates htwo ha s c]
        exact ih _ hhalf _ _
      · rw [if_neg hbit]
        exact ih _ hhalf _ _

theorem exists_mul_eq (htwo : (2 : ZMod p) ≠ 0) (ha : C.a = .ofZMod a)
    (c : Option (ZMod p × ZMod p)) (k : ℤ) :
    ∃ d : Option (ZMod p × ZMod p), (C.ofCoordinates c).mul k = .ok (C.ofCoordinates d) := by
  have hstart : ∃ c' : Option (ZMod p × ZMod p),
      (if k < 0 then (C.ofCoordinates c).neg else C.ofCoordinates c) = C.ofCoordinates c' := by
    rw [neg_ofCoordinates]
    split
    · exact ⟨_, rfl⟩
    · exact ⟨_, rfl⟩
  obtain ⟨c', hc'⟩ := hstart
  rw [mul, hc']
  exact exists_addMultiple_eq htwo ha none c' k.natAbs

end Point

end PrimeOrder
