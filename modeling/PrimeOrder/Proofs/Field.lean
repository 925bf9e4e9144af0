import Mathlib
import PrimeOrder.Field
import PrimeOrder.Proofs.Integer.Euclid
import PrimeOrder.Proofs.Integer.Residuosity
import PrimeOrder.Proofs.Outcome

namespace PrimeOrder

variable {p : ℕ}

/-- The element that stands for a residue class. -/
def FieldElement.ofZMod (a : ZMod p) : FieldElement :=
  ⟨⟨p⟩, a.val⟩

/-- Whether an element is a residue of a field: it was made in that field and its value is reduced. -/
structure PrimeField.Holds (F : PrimeField) (x : FieldElement) : Prop where
  field_eq : x.field = F
  nonneg : 0 ≤ x.value
  lt_modulus : x.value < F.modulus

namespace FieldElement

@[simp] theorem field_ofZMod (a : ZMod p) : (ofZMod a).field = ⟨p⟩ := rfl

@[simp] theorem value_ofZMod (a : ZMod p) : (ofZMod a).value = a.val := rfl

theorem ofZMod_injective [NeZero p] : Function.Injective (ofZMod : ZMod p → FieldElement) := by
  intro a b hab
  have hval : (a.val : ℤ) = b.val := congrArg FieldElement.value hab
  exact ZMod.val_injective p (by exact_mod_cast hval)

@[simp] theorem ofZMod_inj [NeZero p] {a b : ZMod p} : ofZMod a = ofZMod b ↔ a = b :=
  ofZMod_injective.eq_iff

section Ring

variable [NeZero p]

@[simp] theorem reduce_eq_ofZMod (n : ℤ) :
    PrimeField.reduce ⟨p⟩ n = ofZMod (n : ZMod p) := by
  unfold PrimeField.reduce ofZMod
  rw [Int.fmod_eq_emod_of_nonneg _ (Int.natCast_nonneg p), ZMod.val_intCast]

theorem holds_iff {x : FieldElement} :
    PrimeField.Holds ⟨p⟩ x ↔ ∃ a : ZMod p, x = ofZMod a := by
  constructor
  · rintro ⟨hfield, hnonneg, hlt⟩
    obtain ⟨field, value⟩ := x
    refine ⟨(value : ZMod p), ?_⟩
    simp only at hfield hnonneg hlt
    simp only [ofZMod, hfield, FieldElement.mk.injEq, true_and, ZMod.val_intCast]
    exact (Int.emod_eq_of_lt hnonneg hlt).symm
  · rintro ⟨a, rfl⟩
    exact ⟨rfl, Int.natCast_nonneg _, Int.ofNat_lt.mpr a.val_lt⟩

@[simp] theorem ofZMod_add (a b : ZMod p) : ofZMod a + ofZMod b = ofZMod (a + b) := by
  change PrimeField.reduce ⟨p⟩ (a.val + b.val) = _
  simp

@[simp] theorem ofZMod_sub (a b : ZMod p) : ofZMod a - ofZMod b = ofZMod (a - b) := by
  change PrimeField.reduce ⟨p⟩ (a.val - b.val) = _
  simp

@[simp] theorem ofZMod_mul (a b : ZMod p) : ofZMod a * ofZMod b = ofZMod (a * b) := by
  change PrimeField.reduce ⟨p⟩ (a.val * b.val) = _
  simp

@[simp] theorem ofZMod_neg (a : ZMod p) : -ofZMod a = ofZMod (-a) := by
  change PrimeField.reduce ⟨p⟩ (-a.val) = _
  simp

@[simp] theorem addInt_ofZMod (a : ZMod p) (n : ℤ) : (ofZMod a).addInt n = ofZMod (a + (n : ZMod p)) := by
  change PrimeField.reduce ⟨p⟩ (a.val + n) = _
  simp

@[simp] theorem subInt_ofZMod (a : ZMod p) (n : ℤ) : (ofZMod a).subInt n = ofZMod (a - (n : ZMod p)) := by
  change PrimeField.reduce ⟨p⟩ (a.val - n) = _
  simp

@[simp] theorem mulInt_ofZMod (a : ZMod p) (n : ℤ) : (ofZMod a).mulInt n = ofZMod (a * (n : ZMod p)) := by
  change PrimeField.reduce ⟨p⟩ (a.val * n) = _
  simp

omit [NeZero p] in
@[simp] theorem isZero_ofZMod (a : ZMod p) : (ofZMod a).isZero = decide (a = 0) := by
  change ((a.val : ℤ) == 0) = _
  rw [Bool.eq_iff_iff]
  simp only [beq_iff_eq, Nat.cast_eq_zero, ZMod.val_eq_zero, decide_eq_true_eq]

end Ring

/-- Every integer but the multiples of a prime has a reciprocal modulo it, the least representative of its
    inverse class. -/
theorem inverse_eq [Fact p.Prime] (n : ℤ) :
    PrimeField.inverse ⟨p⟩ n =
      if (n : ZMod p) = 0 then .error .zeroHasNoInverse else .ok ((n : ZMod p)⁻¹.val : ℤ) := by
  have hmodulus : ((p : ℕ) : ℤ) ≠ 0 := by exact_mod_cast (Fact.out : p.Prime).ne_zero
  have hresidue : n.fmod p = ((n : ZMod p).val : ℤ) := by
    rw [Int.fmod_eq_emod_of_nonneg _ (Int.natCast_nonneg p), ZMod.val_intCast]
  have hcast : (((n : ZMod p).val : ℤ) : ZMod p) = n := by simp
  have hzero : ((n : ZMod p).val : ℤ) = 0 ↔ (n : ZMod p) = 0 := by
    rw [Nat.cast_eq_zero, ZMod.val_eq_zero]
  rw [PrimeField.inverse, if_neg hmodulus]
  simp only [hresidue, hzero]
  split_ifs with hn
  · rfl
  · rw [Integer.reciprocal?_eq_val_inv (by rwa [hcast]), hcast]

/-- Division is that of residue classes and is refused by the multiples of the prime. -/
theorem divInt_ofZMod [Fact p.Prime] (a : ZMod p) (n : ℤ) :
    (ofZMod a).divInt n =
      if (n : ZMod p) = 0 then .error .zeroHasNoInverse else .ok (ofZMod (a / (n : ZMod p))) := by
  rw [divInt, field_ofZMod, inverse_eq]
  split_ifs
  · rfl
  · rw [Outcome.map_ok, mulInt_ofZMod, Int.cast_natCast, ZMod.natCast_zmod_val, div_eq_mul_inv]

/-- Division by an element other than zero succeeds. -/
theorem div_ofZMod [Fact p.Prime] (a : ZMod p) {b : ZMod p} (hb : b ≠ 0) :
    (ofZMod a).div (ofZMod b) = .ok (ofZMod (a / b)) := by
  have hcast : ((b.val : ℤ) : ZMod p) = b := by simp
  rw [div, value_ofZMod, divInt_ofZMod, hcast, if_neg hb]

section Roots

variable [Fact p.Prime] {a : ZMod p}

theorem isSquare_ofZMod (hodd : p ≠ 2) [Decidable (IsSquare a)] :
    (ofZMod a).isSquare = .ok (decide (IsSquare a)) := by
  unfold isSquare
  rw [isZero_ofZMod]
  by_cases hzero : a = 0
  · subst hzero
    simp
  · have hmod : p % 2 = 1 := (Fact.out : p.Prime).eq_two_or_odd.resolve_left hodd
    have hcast : ((a.val : ℤ) : ZMod p) = a := by simp
    have hsymbol := Integer.jacobi_eq_one_iff hodd (n := a.val) (by rwa [hcast])
    rw [Integer.jacobi_eq_jacobiSym hmod, hcast, Except.ok.injEq] at hsymbol
    rw [decide_eq_false hzero, if_neg Bool.false_ne_true, value_ofZMod, field_ofZMod,
      Integer.jacobi_eq_jacobiSym hmod, Outcome.map_ok, Except.ok.injEq, Bool.eq_iff_iff,
      beq_iff_eq, decide_eq_true_eq, hsymbol]

/-- A square has the root that one of its powers is, and nothing else has a root. -/
theorem sqrt_ofZMod (hthree : p % 4 = 3) [Decidable (IsSquare a)] :
    (ofZMod a).sqrt = .ok (if IsSquare a then some (ofZMod (a ^ ((p + 1) / 4))) else none) := by
  have hroots := Integer.sqrtModPrime_eq hthree a.val
  have hroot : PrimeField.reduce ⟨p⟩ (((a.val : ℤ) : ZMod p) ^ ((p + 1) / 4)).val =
      ofZMod (a ^ ((p + 1) / 4)) := by
    simp
  unfold sqrt
  rw [isSquare_ofZMod (by omega), Outcome.ok_bind]
  by_cases hsquare : IsSquare a
  · simp only [decide_eq_true hsquare, if_true, value_ofZMod, field_ofZMod, hroots,
      Outcome.ok_bind, if_pos hsquare, hroot]
    rfl
  · simp only [decide_eq_false hsquare, if_neg hsquare]
    rfl

end Roots

end FieldElement

end PrimeOrder
