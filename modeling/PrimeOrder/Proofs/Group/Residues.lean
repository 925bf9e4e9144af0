import Mathlib
import PrimeOrder.Proofs.Engine.Operations
import PrimeOrder.Proofs.Group.Exponents
import PrimeOrder.Proofs.Integer.Euclid
import PrimeOrder.Proofs.Integer.Power
import PrimeOrder.Proofs.Integer.Primality

namespace PrimeOrder

variable {p q : ℕ}

/-- Whether parameters are those of a safe prime `p = 2 * q + 1` from seven on, with a generator
    other than one whose power by `q` is one. -/
structure ResidueParams.IsSafe (s : ResidueParams) (p q : ℕ) : Prop where
  modulus_eq : s.modulus = p
  order_eq : s.order = q
  prime : p.Prime
  order_prime : q.Prime
  safe : p = 2 * q + 1
  seven_le : 7 ≤ p
  one_lt_generator : 1 < s.generator
  generator_lt : s.generator < p
  generator_pow : (s.generator : ZMod p) ^ q = 1

namespace ResidueParams

theorem powModNat_eq_one_iff {n : ℤ} (hn : 0 ≤ n) (hp : 1 < p) :
    Integer.powModNat n.toNat q p = 1 ↔ (n : ZMod p) ^ q = 1 := by
  have : Fact (1 < p) := ⟨hp⟩
  have hcast : ((n.toNat : ℕ) : ZMod p) = n := by
    rw [← Int.cast_natCast, Int.toNat_of_nonneg hn]
  rw [Integer.powModNat_eq_val, hcast, ZMod.val_eq_one hp]

theorem exists_isSafe_of_isValid {isPrime : PrimalityTest} (hprime : isPrime.IsSound)
    {s : ResidueParams} (hs : s.isValid isPrime = true) : ∃ p q, s.IsSafe p q := by
  simp only [isValid, Bool.and_eq_true, beq_iff_eq, decide_eq_true_eq] at hs
  obtain ⟨⟨⟨⟨⟨⟨hsafe, hseven⟩, horder⟩, hmodulus⟩, hone⟩, hlt⟩, hpow⟩ := hs
  have hp : ((s.modulus.toNat : ℕ) : ℤ) = s.modulus := Int.toNat_of_nonneg (by omega)
  have hq : ((s.order.toNat : ℕ) : ℤ) = s.order := Int.toNat_of_nonneg (by omega)
  refine ⟨s.modulus.toNat, s.order.toNat, hp.symm, hq.symm, hprime _ hmodulus, hprime _ horder,
    by omega, by omega, hone, by omega, ?_⟩
  exact (powModNat_eq_one_iff (by omega) (by omega)).mp hpow

/-- A test that decides primality makes the validation accept exactly the safe parameters. -/
theorem isValid_iff {isPrime : PrimalityTest} (hprime : isPrime.Decides) (s : ResidueParams) :
    s.isValid isPrime = true ↔ ∃ p q, s.IsSafe p q := by
  refine ⟨exists_isSafe_of_isValid hprime.isSound, ?_⟩
  simp only [isValid, Bool.and_eq_true, beq_iff_eq, decide_eq_true_eq, hprime _]
  rintro ⟨p, q, h⟩
  have hp := h.modulus_eq
  have hq := h.order_eq
  have hsafe := h.safe
  have hseven := h.seven_le
  have hone := h.one_lt_generator
  have hlt := h.generator_lt
  simp only [hp, hq, Int.toNat_natCast]
  refine ⟨⟨⟨⟨⟨⟨by omega, by omega⟩, h.order_prime⟩, h.prime⟩, hone⟩, hlt⟩, ?_⟩
  exact (powModNat_eq_one_iff (by omega) (by omega)).mpr h.generator_pow

end ResidueParams

namespace ResidueParams.IsSafe

variable {s : ResidueParams}

theorem two_lt (h : s.IsSafe p q) : 2 < p := by
  have := h.seven_le
  omega

theorem half_eq (h : s.IsSafe p q) : p / 2 = q := by
  have := h.safe
  omega

end ResidueParams.IsSafe

namespace ResidueGroup

/-- The element that stands for a residue class. -/
def ofZMod (G : ResidueGroup) (a : ZMod p) : Element :=
  .residue ⟨G, a.val⟩

theorem ofZMod_injective [NeZero p] (G : ResidueGroup) :
    Function.Injective (G.ofZMod : ZMod p → Element) := by
  intro a b hab
  have hval : (a.val : ℤ) = b.val := congrArg Residue.value (Element.residue.inj hab)
  exact ZMod.val_injective p (by exact_mod_cast hval)

@[simp] theorem check_residue (G : ResidueGroup) (n : ℤ) :
    (Group.residues G).check (.element (.residue ⟨G, n⟩)) = .ok (.residue ⟨G, n⟩) := by
  simp [Group.check, Group.ownsElement, owns]

/-- A number in the range of the residues stands for the class that it belongs to. -/
theorem residue_eq_ofZMod [NeZero p] (G : ResidueGroup) {n : ℤ} (hnonneg : 0 ≤ n) (hlt : n < p) :
    Element.residue ⟨G, n⟩ = G.ofZMod (n : ZMod p) := by
  rw [ofZMod, ZMod.val_intCast, Int.emod_eq_of_lt hnonneg hlt]

section Modulus

variable {G : ResidueGroup}

theorem multiply_residue [NeZero p] (hmodulus : G.params.modulus = p) (m n : ℤ) :
    (Group.residues G).multiply (.element (.residue ⟨G, m⟩)) (.element (.residue ⟨G, n⟩)) =
      .ok (G.ofZMod ((m : ZMod p) * (n : ZMod p))) := by
  have hval : (m * n).fmod p = (((m : ZMod p) * n).val : ℤ) := by
    rw [← Int.cast_mul, ZMod.val_intCast, Int.fmod_eq_emod_of_nonneg _ (Int.natCast_nonneg p)]
  have hnonneg : 0 ≤ G.params.modulus := hmodulus ▸ Int.natCast_nonneg p
  simp only [Group.multiply, check_residue, Outcome.ok_bind, Group.mul, mul_eq G hnonneg, hmodulus,
    hval]
  rfl

theorem power_residue [NeZero p] (hmodulus : G.params.modulus = p) (n k : ℤ) :
    (Group.residues G).power (.element (.residue ⟨G, n⟩)) k =
      .ok (G.ofZMod ((n : ZMod p) ^ (G.reduceExponent k).toNat)) := by
  have hpos : (p : ℤ) ≠ 0 := by exact_mod_cast NeZero.ne p
  have hcast : (((n % p).toNat : ℕ) : ZMod p) = n := by
    rw [← Int.cast_natCast, Int.toNat_of_nonneg (Int.emod_nonneg n hpos), ZMod.intCast_mod]
  rw [Group.power, check_residue, Outcome.ok_bind]
  simp only [power_eq, hmodulus, Int.toNat_natCast, Integer.powModNat_eq_val, hcast]
  rfl

/-- Each engine has an algorithm of its own for the inverse, and both find the least residue of its
    class. -/
theorem inverse_residue [Fact p.Prime] (hmodulus : G.params.modulus = p) {n : ℤ} (hnonneg : 0 ≤ n)
    (hn : (n : ZMod p) ≠ 0) :
    (Group.residues G).inverse (.element (.residue ⟨G, n⟩)) = .ok (G.ofZMod (n : ZMod p)⁻¹) := by
  have hinverse : G.operations.inverse G.params n = .ok ((n : ZMod p)⁻¹.val : ℤ) := by
    cases hengine : G.engine with
    | signed =>
      simp only [operations, hengine, Engine.operations, SignedResidues.inverse, hmodulus,
        Integer.reciprocal?_eq_val_inv hn]
    | natural =>
      simp only [operations, hengine, Engine.operations, NaturalResidues.inverse, hmodulus,
        Natural.inverse_eq_val_inv hnonneg hn]
  rw [Group.inverse, check_residue, Outcome.ok_bind]
  simp only [inverse, hinverse]
  rfl

end Modulus

/-- The elements that stand for the classes other than zero are multiplied, inverted and raised to
    powers as these classes are. -/
theorem computes_of_prime [Fact p.Prime] {G : ResidueGroup} (hmodulus : G.params.modulus = p)
    (horder : 0 < G.params.order) :
    (Group.residues G).Computes fun u : (ZMod p)ˣ => G.ofZMod (u : ZMod p) := by
  have hcast : ∀ u : ZMod p, (((u.val : ℕ) : ℤ) : ZMod p) = u := by simp
  constructor
  case identity_eq =>
    change Element.residue ⟨G, 1⟩ = .residue ⟨G, _⟩
    rw [Units.val_one, ZMod.val_one, Nat.cast_one]
  case multiply_eq =>
    intro u v
    rw [ofZMod, ofZMod, multiply_residue hmodulus, hcast, hcast, Units.val_mul]
  case inverse_eq =>
    intro u
    rw [ofZMod, inverse_residue hmodulus (Int.natCast_nonneg _) (by rw [hcast]; exact u.ne_zero),
      hcast, Units.val_inv_eq_inv_val]
  case power_eq =>
    intro u k
    have hnonneg : 0 ≤ G.reduceExponent k := Int.fmod_nonneg_of_pos k horder
    have hreduced : ((G.reduceExponent k).toNat : ℤ) = (Group.residues G).reduceExponent k :=
      Int.toNat_of_nonneg hnonneg
    rw [ofZMod, power_residue hmodulus, hcast, ← Units.val_pow_eq_pow_val, ← zpow_natCast, hreduced]

theorem computes {G : ResidueGroup} (hG : G.params.IsSafe p q) :
    (Group.residues G).Computes fun u : (ZMod p)ˣ => G.ofZMod (u : ZMod p) := by
  have : Fact p.Prime := ⟨hG.prime⟩
  apply computes_of_prime hG.modulus_eq
  rw [hG.order_eq]
  exact_mod_cast hG.order_prime.pos

theorem order_eq {G : ResidueGroup} (hG : G.params.IsSafe p q) :
    (Group.residues G).order = (q : ℤ) :=
  hG.order_eq

/-- The members are the elements for the classes whose power by the order is one. -/
theorem isMember_iff {G : ResidueGroup} (hG : G.params.IsSafe p q) {e : Element} :
    (Group.residues G).isMember (.element e) = true ↔
      ∃ u : (ZMod p)ˣ, u ^ (Group.residues G).order = 1 ∧ e = G.ofZMod (u : ZMod p) := by
  have hprime : Fact p.Prime := ⟨hG.prime⟩
  simp only [order_eq hG, zpow_natCast]
  cases e with
  | point P => simp [Group.isMember, ofZMod]
  | residue x =>
    simp only [Group.isMember, owns, inSubgroup_eq, SignedResidues.inSubgroup, Bool.and_eq_true,
      beq_iff_eq, decide_eq_true_eq, hG.modulus_eq, hG.order_eq, Int.toNat_natCast]
    constructor
    · rintro ⟨hgroup, ⟨hpos, hlt⟩, hpow⟩
      rw [ResidueParams.powModNat_eq_one_iff hpos.le hG.prime.one_lt] at hpow
      have hunit : IsUnit (x.value : ZMod p) := IsUnit.of_pow_eq_one hpow hG.order_prime.ne_zero
      refine ⟨hunit.unit, Units.ext (by simpa using hpow), ?_⟩
      obtain ⟨group, value⟩ := x
      obtain rfl : group = G := hgroup
      exact residue_eq_ofZMod group hpos.le hlt
    · rintro ⟨u, hu, he⟩
      obtain rfl : x = ⟨G, (u : ZMod p).val⟩ := Element.residue.inj he
      have hpow : (((u : ZMod p).val : ℤ) : ZMod p) ^ q = 1 := by
        simpa using congrArg Units.val hu
      have hpos : 0 < (u : ZMod p).val := Nat.pos_of_ne_zero ((ZMod.val_eq_zero _).not.mpr u.ne_zero)
      refine ⟨rfl, ⟨Int.natCast_pos.mpr hpos, Int.ofNat_lt.mpr (ZMod.val_lt _)⟩, ?_⟩
      exact (ResidueParams.powModNat_eq_one_iff (Int.natCast_nonneg _) hG.prime.one_lt).mpr hpow

end ResidueGroup

end PrimeOrder
