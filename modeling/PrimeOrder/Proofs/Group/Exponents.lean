import Mathlib
import PrimeOrder.Group.Basic
import PrimeOrder.Proofs.Outcome

namespace PrimeOrder.Group

/-- The product of `n` copies of an element. -/
def copies (G : Group) (e : Element) : ℕ → Except Error Element
  | 0 => .ok G.identity
  | n + 1 => do
    let product ← G.copies e n
    G.multiply (.element product) (.element e)

/-- Whether the powers that a group computes of some of its elements exist, stay among these
    elements and obey the laws of exponents. -/
structure ObeysExponentLaws (G : Group) (member : Element → Prop) : Prop where
  power_mem : ∀ e k, member e → ∃ ek, G.power (.element e) k = .ok ek ∧ member ek
  power_eq_copies : ∀ e (n : ℕ), member e → G.power (.element e) n = G.copies e n
  power_add : ∀ e j k ej ek, member e → G.power (.element e) j = .ok ej →
    G.power (.element e) k = .ok ek →
    G.power (.element e) (j + k) = G.multiply (.element ej) (.element ek)
  power_mul : ∀ e j k ej, member e → G.power (.element e) j = .ok ej →
    G.power (.element ej) k = G.power (.element e) (j * k)
  multiply_power : ∀ e f k ef ek fk, member e → member f →
    G.multiply (.element e) (.element f) = .ok ef → G.power (.element e) k = .ok ek →
    G.power (.element f) k = .ok fk →
    G.power (.element ef) k = G.multiply (.element ek) (.element fk)
  power_neg : ∀ e k ek, member e → G.power (.element e) k = .ok ek →
    G.power (.element e) (-k) = G.inverse (.element ek)

/-- Whether a group computes, on the elements that stand for the members of a commutative group,
    as that group does. Powers are those by the reduced exponent. -/
structure Computes (G : Group) {M : Type*} [CommGroup M] (write : M → Element) : Prop where
  identity_eq : G.identity = write 1
  multiply_eq : ∀ a b, G.multiply (.element (write a)) (.element (write b)) = .ok (write (a * b))
  inverse_eq : ∀ a, G.inverse (.element (write a)) = .ok (write a⁻¹)
  power_eq : ∀ a k, G.power (.element (write a)) k = .ok (write (a ^ G.reduceExponent k))

namespace Computes

variable {G : Group} {M : Type*} [CommGroup M] {write : M → Element}

theorem copies_eq (hG : G.Computes write) (a : M) (n : ℕ) :
    G.copies (write a) n = .ok (write (a ^ n)) := by
  induction n with
  | zero => rw [copies, hG.identity_eq, pow_zero]
  | succ n ih => rw [copies, ih, Outcome.ok_bind, hG.multiply_eq, pow_succ]

/-- Reducing the exponent changes no power of a member whose power by the order is one. -/
theorem zpow_reduceExponent {a : M} (ha : a ^ G.order = 1) (k : ℤ) :
    a ^ G.reduceExponent k = a ^ k := by
  have hsplit : k = G.reduceExponent k + G.order * k.fdiv G.order :=
    (Int.fmod_add_mul_fdiv k G.order).symm
  conv_rhs => rw [hsplit, zpow_add, zpow_mul, ha, one_zpow, mul_one]

theorem power_eq_zpow (hG : G.Computes write) {a : M} (ha : a ^ G.order = 1) (k : ℤ) :
    G.power (.element (write a)) k = .ok (write (a ^ k)) := by
  rw [hG.power_eq, zpow_reduceExponent ha]

theorem zpow_order_eq_one {a : M} (ha : a ^ G.order = 1) (k : ℤ) : (a ^ k) ^ G.order = 1 := by
  rw [← zpow_mul, mul_comm, zpow_mul, ha, one_zpow]

/-- On the members whose power by the order is one all laws of exponents hold. -/
theorem obeysExponentLaws (hG : G.Computes write) :
    G.ObeysExponentLaws fun e => ∃ a, a ^ G.order = 1 ∧ e = write a := by
  constructor
  case power_mem =>
    rintro _ k ⟨a, ha, rfl⟩
    exact ⟨_, hG.power_eq_zpow ha k, _, zpow_order_eq_one ha k, rfl⟩
  case power_eq_copies =>
    rintro _ n ⟨a, ha, rfl⟩
    rw [hG.power_eq_zpow ha, hG.copies_eq, zpow_natCast]
  case power_add =>
    rintro _ j k _ _ ⟨a, ha, rfl⟩ hj hk
    rw [hG.power_eq_zpow ha] at hj hk ⊢
    cases hj
    cases hk
    rw [hG.multiply_eq, zpow_add]
  case power_mul =>
    rintro _ j k _ ⟨a, ha, rfl⟩ hj
    rw [hG.power_eq_zpow ha] at hj
    cases hj
    rw [hG.power_eq_zpow (zpow_order_eq_one ha j), hG.power_eq_zpow ha, zpow_mul]
  case multiply_power =>
    rintro _ _ k _ _ _ ⟨a, ha, rfl⟩ ⟨b, hb, rfl⟩ hproduct hek hfk
    rw [hG.power_eq_zpow ha] at hek
    rw [hG.power_eq_zpow hb] at hfk
    rw [hG.multiply_eq] at hproduct
    cases hek
    cases hfk
    cases hproduct
    have hab : (a * b) ^ G.order = 1 := by rw [mul_zpow, ha, hb, one_mul]
    rw [hG.power_eq_zpow hab, hG.multiply_eq, mul_zpow]
  case power_neg =>
    rintro _ k _ ⟨a, ha, rfl⟩ hk
    rw [hG.power_eq_zpow ha] at hk ⊢
    cases hk
    rw [hG.inverse_eq, zpow_neg]

end Computes

end PrimeOrder.Group
