import Mathlib
import PrimeOrder.Group.Residues
import PrimeOrder.Proofs.Integer.Natural
import PrimeOrder.Proofs.Outcome

namespace PrimeOrder

namespace NaturalResidues

variable (s : ResidueParams)

/-- Powers by natural numbers are those by integers of either sign. -/
theorem power_eq (n exponent : ℤ) : power s n exponent = SignedResidues.power s n exponent :=
  Natural.power_eq_powModNat n exponent s.modulus

/-- The power that the membership test looks at. -/
theorem power_of_lt {n : ℤ} (hpos : 0 < n) (hlt : n < s.modulus) :
    Natural.power n s.order s.modulus =
      Integer.powModNat n.toNat s.order.toNat s.modulus.toNat := by
  rw [Natural.power_eq_powModNat, Int.emod_eq_of_lt hpos.le hlt]

theorem inSubgroup_eq (n : ℤ) : inSubgroup s n = SignedResidues.inSubgroup s n := by
  by_cases hrange : 0 < n ∧ n < s.modulus
  · rw [inSubgroup, SignedResidues.inSubgroup, power_of_lt s hrange.1 hrange.2, Bool.eq_iff_iff]
    simp only [Bool.and_eq_true, beq_iff_eq, Nat.cast_eq_one]
  · have hfalse : (decide (0 < n) && decide (n < s.modulus)) = false := by simpa using hrange
    rw [inSubgroup, SignedResidues.inSubgroup, hfalse, Bool.false_and, Bool.false_and]

/-- Both validations ask the same of parameters. -/
theorem isValid_eq (isPrime : PrimalityTest) : isValid isPrime s = s.isValid isPrime := by
  have hpow : 1 < s.generator → s.generator < s.modulus →
      (Natural.power s.generator s.order s.modulus = 1 ↔
        Integer.powModNat s.generator.toNat s.order.toNat s.modulus.toNat = 1) := by
    intro hone hlt
    rw [power_of_lt s (by omega) hlt, Nat.cast_eq_one]
  rw [Bool.eq_iff_iff, isValid, ResidueParams.isValid]
  split_ifs with hform hprime
  · simp only [Bool.and_eq_true, beq_iff_eq, decide_eq_true_eq, false_iff]
    omega
  · simp only [Bool.not_eq_true', Bool.and_eq_false_iff] at hprime
    simp only [Bool.and_eq_true, false_iff]
    rcases hprime with h | h <;> simp [h]
  · obtain ⟨hsafe, hseven⟩ : s.modulus = 2 * s.order + 1 ∧ 7 ≤ s.modulus := by omega
    obtain ⟨horder, hmodulus⟩ : isPrime s.order = true ∧ isPrime s.modulus = true := by
      simpa using hprime
    simp only [Bool.and_eq_true, beq_iff_eq, decide_eq_true_eq, horder, hmodulus, hseven, ← hsafe,
      true_and]
    exact and_congr_right fun h : 1 < s.generator ∧ s.generator < s.modulus => hpow h.1 h.2

theorem mul_eq (hmodulus : 0 ≤ s.modulus) (m n : ℤ) : mul s m n = SignedResidues.mul s m n :=
  (Int.fmod_eq_emod_of_nonneg _ hmodulus).symm

theorem encodingLimit_eq : encodingLimit s = SignedResidues.encodingLimit s := by
  rw [encodingLimit, SignedResidues.encodingLimit]
  by_cases horder : s.order = 0
  · rw [horder]
    rfl
  · rw [Natural.sizeInBits_eq_bitLength horder]

theorem encode_eq (hpos : 0 < s.modulus) (hodd : s.modulus % 2 = 1) (data : Octets) :
    encode s data = SignedResidues.encode s data := by
  simp only [encode, SignedResidues.encode, encodingLimit_eq, Natural.jacobi_eq_jacobi hpos hodd]

/-- Zero is written in one byte or in none, and neither is a marker. -/
theorem decode_eq (n : ℤ) : decode s n = SignedResidues.decode s n := by
  simp only [decode, SignedResidues.decode]
  generalize (if n ≤ s.order then n else s.modulus - n).toNat = folded
  by_cases hzero : folded = 0
  · rw [hzero, Natural.toOctets_zero]
    rfl
  · exact Natural.toOctets_eq_ofNat hzero ▸ rfl

theorem image_eq (hmodulus : s.modulus ≠ 0) (n : ℤ) : image s n = SignedResidues.image s n := by
  rw [image, SignedResidues.image, Natural.sizeInBytes_eq_byteLength hmodulus]

/-- What is not negative can be held, and is then looked at. -/
theorem generate_of_nonneg {n : ℤ} (hn : 0 ≤ n) (check : Bool) :
    generate s check n =
      if n ≤ 0 ∨ s.modulus ≤ n then .error (.outsideResidues (Engine.natural.number n))
      else if check && !SignedResidues.inSubgroup s n then
        .error (.outsideSubgroup (Engine.natural.number n))
      else .ok n := by
  rw [generate, Engine.hold, if_neg (by omega), Outcome.ok_bind, inSubgroup_eq]

end NaturalResidues

/-- Of a number in range the power by the order alone is looked at. -/
theorem SignedResidues.generate_eq (s : ResidueParams) (check : Bool) (n : ℤ) :
    generate s check n =
      if n ≤ 0 ∨ s.modulus ≤ n then .error (.outsideResidues (Engine.signed.number n))
      else if check && !inSubgroup s n then .error (.outsideSubgroup (Engine.signed.number n))
      else .ok n := by
  by_cases hrange : n ≤ 0 ∨ s.modulus ≤ n
  · rw [generate, if_pos hrange, if_pos hrange]
  · have hmember : inSubgroup s n =
        (Integer.powModNat n.toNat s.order.toNat s.modulus.toNat == 1) := by
      rw [inSubgroup, decide_eq_true (by omega), decide_eq_true (by omega), Bool.and_self,
        Bool.true_and]
    rw [generate, if_neg hrange, if_neg hrange, hmember]
    rfl

/-- What is not negative is held as it is. -/
theorem Engine.hold_of_nonneg (engine : Engine) {n : ℤ} (hn : 0 ≤ n) : engine.hold n = .ok n := by
  cases engine with
  | signed => rfl
  | natural => exact if_neg (by omega)

/-- What an operation of natural numbers shares with that of integers of either sign, it shares with
    that of every engine. -/
theorem Engine.operations_eq {α : Type} (engine : Engine) (f : ResidueOperations → α)
    (h : f Engine.natural.operations = f Engine.signed.operations) :
    f engine.operations = f Engine.signed.operations := by
  cases engine with
  | signed => rfl
  | natural => exact h

/-- Both engines ask the same of parameters. -/
theorem Engine.isValid_operations (engine : Engine) (isPrime : PrimalityTest) (s : ResidueParams) :
    engine.operations.isValid isPrime s = s.isValid isPrime :=
  engine.operations_eq (fun operations => operations.isValid isPrime s)
    (NaturalResidues.isValid_eq s isPrime)

namespace ResidueGroup

variable (G : ResidueGroup)

theorem isValid_eq (isPrime : PrimalityTest) : G.isValid isPrime = G.params.isValid isPrime :=
  G.engine.isValid_operations isPrime G.params

theorem inSubgroup_eq (n : ℤ) : G.inSubgroup n = SignedResidues.inSubgroup G.params n :=
  G.engine.operations_eq (fun operations => operations.inSubgroup G.params n)
    (NaturalResidues.inSubgroup_eq _ n)

theorem mul_eq (hmodulus : 0 ≤ G.params.modulus) (x y : Residue) :
    G.mul x y = ⟨G, (x.value * y.value).fmod G.params.modulus⟩ :=
  G.engine.operations_eq
    (fun operations => Residue.mk G (operations.mul G.params x.value y.value))
    (congrArg (Residue.mk G) (NaturalResidues.mul_eq _ hmodulus _ _))

theorem power_eq (x : Residue) (k : ℤ) :
    G.power x k = ⟨G, Integer.powModNat (x.value % G.params.modulus).toNat
      (G.reduceExponent k).toNat G.params.modulus.toNat⟩ :=
  G.engine.operations_eq
    (fun operations => Residue.mk G (operations.power G.params x.value (G.reduceExponent k)))
    (congrArg (Residue.mk G) (NaturalResidues.power_eq _ _ _))

theorem encodingLimit_eq : G.encodingLimit = (Integer.bitLength G.params.order - 9) / 8 :=
  G.engine.operations_eq (fun operations => operations.encodingLimit G.params)
    (NaturalResidues.encodingLimit_eq _)

/-- What is too long is refused by both engines before anything else. -/
theorem encode_of_limit_lt {data : Octets} (hlong : G.encodingLimit < data.length) :
    G.encode data = .error (.encodingTooLong data.length G.encodingLimit) := by
  rw [encodingLimit, operations] at hlong
  rw [encode, encodingLimit, operations]
  cases hengine : G.engine with
  | signed =>
    rw [hengine] at hlong
    exact congrArg (Except.map (Residue.mk G)) (if_pos hlong)
  | natural =>
    rw [hengine] at hlong
    exact congrArg (Except.map (Residue.mk G)) (if_pos hlong)

theorem encode_eq (hpos : 0 < G.params.modulus) (hodd : G.params.modulus % 2 = 1) (data : Octets) :
    G.encode data = (SignedResidues.encode G.params data).map (Residue.mk G) :=
  G.engine.operations_eq
    (fun operations => (operations.encode G.params data).map (Residue.mk G))
    (congrArg (Except.map (Residue.mk G)) (NaturalResidues.encode_eq _ hpos hodd data))

theorem decode_eq (x : Residue) : G.decode x = SignedResidues.decode G.params x.value :=
  G.engine.operations_eq (fun operations => operations.decode G.params x.value)
    (NaturalResidues.decode_eq _ _)

theorem image_eq (hmodulus : G.params.modulus ≠ 0) (x : Residue) :
    G.image x = Octets.ofInteger x.value (Integer.byteLength G.params.modulus) :=
  G.engine.operations_eq (fun operations => operations.image G.params x.value)
    (NaturalResidues.image_eq _ hmodulus _)

/-- Integers that are not negative are refused by both engines for the same reasons, each of which
    shows the number in the form of the engine. -/
theorem generate_of_nonneg {n : ℤ} (hn : 0 ≤ n) (checked : Bool) :
    G.generate checked n =
      if n ≤ 0 ∨ G.params.modulus ≤ n then .error (.outsideResidues (G.engine.number n))
      else if checked && !G.inSubgroup n then .error (.outsideSubgroup (G.engine.number n))
      else .ok ⟨G, n⟩ := by
  have hgenerate : G.operations.generate G.params checked n =
      if n ≤ 0 ∨ G.params.modulus ≤ n then .error (.outsideResidues (G.engine.number n))
      else if checked && !SignedResidues.inSubgroup G.params n then
        .error (.outsideSubgroup (G.engine.number n))
      else .ok n := by
    rw [operations]
    cases G.engine with
    | signed => exact SignedResidues.generate_eq _ _ _
    | natural => exact NaturalResidues.generate_of_nonneg _ hn _
  rw [generate, hgenerate, inSubgroup_eq]
  split_ifs <;> rfl

end ResidueGroup

end PrimeOrder
