import Mathlib
import PrimeOrder.Proofs.Group.Residues
import PrimeOrder.Proofs.Integer.Residuosity

namespace PrimeOrder

variable {p q : ℕ}

namespace ResidueParams.IsSafe

variable {s : ResidueParams}

theorem exists_unit_eq_generator (h : s.IsSafe p q) : ∃ g : (ZMod p)ˣ, (g : ZMod p) = s.generator :=
  ⟨(IsUnit.of_pow_eq_one h.generator_pow h.order_prime.ne_zero).unit, rfl⟩

theorem generator_ne_one (h : s.IsSafe p q) : (s.generator : ZMod p) ≠ 1 := by
  have hone := h.one_lt_generator
  have hlt := h.generator_lt
  have hseven := h.seven_le
  rw [← Int.cast_one, ne_eq, ZMod.intCast_eq_intCast_iff, Int.ModEq,
    Int.emod_eq_of_lt (by omega) hlt, Int.emod_eq_of_lt (by omega) (by omega)]
  omega

/-- The order is prime, so it is the exact order of the generator. -/
theorem orderOf_generator (h : s.IsSafe p q) {g : (ZMod p)ˣ} (hg : (g : ZMod p) = s.generator) :
    orderOf g = q := by
  have : Fact q.Prime := ⟨h.order_prime⟩
  have hpow : g ^ q = 1 := by
    apply Units.ext
    rw [Units.val_pow_eq_pow_val, hg, h.generator_pow, Units.val_one]
  have hne : g ≠ 1 := by
    rintro rfl
    exact h.generator_ne_one hg.symm
  exact orderOf_eq_prime hpow hne

/-- Every class whose power by the order is one is a power of the generator. -/
theorem mem_zpowers_generator_iff (h : s.IsSafe p q) {g : (ZMod p)ˣ} (hg : (g : ZMod p) = s.generator)
    {u : (ZMod p)ˣ} : u ∈ Subgroup.zpowers g ↔ u ^ q = 1 := by
  have : Fact p.Prime := ⟨h.prime⟩
  have : NeZero q := ⟨h.order_prime.ne_zero⟩
  have hroot : IsPrimitiveRoot g q := by
    rw [← h.orderOf_generator hg]
    exact IsPrimitiveRoot.orderOf g
  rw [hroot.zpowers_eq, mem_rootsOfUnity]

/-- A class other than zero is a square exactly if its power by the order is one. -/
theorem isSquare_iff (h : s.IsSafe p q) {a : ZMod p} (ha : a ≠ 0) : IsSquare a ↔ a ^ q = 1 := by
  have : Fact p.Prime := ⟨h.prime⟩
  rw [ZMod.euler_criterion p ha, h.half_eq]

end ResidueParams.IsSafe

namespace ResidueGroup

variable {G : ResidueGroup}

theorem intCast_ne_zero {x : ℤ} (hpos : 0 < x) (hlt : x < p) : (x : ZMod p) ≠ 0 := by
  rw [ne_eq, ZMod.intCast_zmod_eq_zero_iff_dvd]
  exact fun hdvd => hlt.not_ge (Int.le_of_dvd hpos hdvd)

theorem isMember_residue_iff (hG : G.params.IsSafe p q) {x : ℤ} (hpos : 0 < x) (hlt : x < p) :
    (Group.residues G).isMember (.element (.residue ⟨G, x⟩)) = true ↔ (x : ZMod p) ^ q = 1 := by
  simp only [Group.isMember, owns, inSubgroup_eq, SignedResidues.inSubgroup, beq_self_eq_true,
    Bool.true_and, Bool.and_eq_true, decide_eq_true_eq, beq_iff_eq, hG.modulus_eq, hG.order_eq,
    Int.toNat_natCast]
  rw [ResidueParams.powModNat_eq_one_iff hpos.le hG.prime.one_lt]
  exact and_iff_right ⟨hpos, hlt⟩

/-- Making an element with a check of its membership succeeds exactly for members. -/
theorem generate_checked_iff (hG : G.params.IsSafe p q) {x : ℤ} (hpos : 0 < x) (hlt : x < p) :
    (∃ e, (Group.residues G).generate true [.int x] = .ok e) ↔
      (Group.residues G).isMember (.element (.residue ⟨G, x⟩)) = true := by
  have hasked : Group.askedInteger G.engine (.int x) = .ok x := Group.askedInteger_number _ _
  have hrange : ¬ (x ≤ 0 ∨ G.params.modulus ≤ x) := by
    have := hG.modulus_eq
    omega
  have howns : G.owns ⟨G, x⟩ = true := beq_self_eq_true G
  simp only [Group.generate, hasked, Outcome.ok_bind, generate_of_nonneg G hpos.le, if_neg hrange,
    Bool.true_and, Group.isMember, howns]
  cases G.inSubgroup x <;> simp [Except.map]

/-- The powers of the generator are the members, each for the exponents of one class modulo the
    order. -/
theorem power_generator_eq_iff (hG : G.params.IsSafe p q) {g : (ZMod p)ˣ}
    (hg : (g : ZMod p) = G.params.generator) (u : (ZMod p)ˣ) (k : ℤ) :
    (Group.residues G).power (.element (Group.residues G).generator) k =
      .ok (G.ofZMod (u : ZMod p)) ↔ g ^ k = u := by
  have : Fact p.Prime := ⟨hG.prime⟩
  have hgenerator : (Group.residues G).generator = G.ofZMod (g : ZMod p) := by
    have hone := hG.one_lt_generator
    rw [hg]
    exact residue_eq_ofZMod G (by omega) hG.generator_lt
  have hpow : g ^ (Group.residues G).order = 1 := by
    rw [order_eq hG, zpow_natCast, ← hG.orderOf_generator hg, pow_orderOf_eq_one]
  rw [hgenerator, (computes hG).power_eq_zpow hpow, Except.ok.injEq, (ofZMod_injective G).eq_iff,
    Units.val_inj]

/-- The tests for members of a group of residues agree. -/
theorem isMember_tfae (hG : G.params.IsSafe p q) {x : ℤ} (hpos : 0 < x) (hlt : x < p) :
    [(Group.residues G).isMember (.element (.residue ⟨G, x⟩)) = true,
      ∃ e, (Group.residues G).generate true [.int x] = .ok e,
      IsSquare (x : ZMod p),
      Integer.jacobi x G.params.modulus = .ok 1,
      Natural.jacobi x G.params.modulus = .ok 1,
      ∃ k : ℤ, (Group.residues G).power (.element (Group.residues G).generator) k =
        .ok (.residue ⟨G, x⟩)].TFAE := by
  have : Fact p.Prime := ⟨hG.prime⟩
  have hx := intCast_ne_zero hpos hlt
  obtain ⟨g, hg⟩ := hG.exists_unit_eq_generator
  tfae_have 1 ↔ 2 := (generate_checked_iff hG hpos hlt).symm
  tfae_have 1 ↔ 3 := (isMember_residue_iff hG hpos hlt).trans (hG.isSquare_iff hx).symm
  tfae_have 3 ↔ 4 := by
    rw [hG.modulus_eq]
    exact (Integer.jacobi_eq_one_iff (by have := hG.two_lt; omega) hx).symm
  tfae_have 4 ↔ 5 := by
    have hodd : G.params.modulus % 2 = 1 := by
      have := hG.safe
      have := hG.modulus_eq
      omega
    rw [Natural.jacobi_eq_jacobi (by have := hG.modulus_eq; omega) hodd]
  tfae_have 1 ↔ 6 := by
    have hpower := fun k => power_generator_eq_iff hG hg (Units.mk0 (x : ZMod p) hx) k
    simp only [Units.val_mk0, ← residue_eq_ofZMod G hpos.le hlt] at hpower
    simp only [hpower, ← Subgroup.mem_zpowers_iff, hG.mem_zpowers_generator_iff hg,
      isMember_residue_iff hG hpos hlt]
    rw [Units.ext_iff, Units.val_pow_eq_pow_val, Units.val_mk0, Units.val_one]
  tfae_finish

/-- A member has one logarithm to the base of the generator below the order. -/
theorem existsUnique_logarithm (hG : G.params.IsSafe p q) {e : Element}
    (he : (Group.residues G).isMember (.element e) = true) :
    ∃! k : ℤ, (0 ≤ k ∧ k < q) ∧
      (Group.residues G).power (.element (Group.residues G).generator) k = .ok e := by
  have : Fact p.Prime := ⟨hG.prime⟩
  obtain ⟨g, hg⟩ := hG.exists_unit_eq_generator
  obtain ⟨u, hu, rfl⟩ := (isMember_iff hG).mp he
  rw [order_eq hG, zpow_natCast] at hu
  obtain ⟨k, hk⟩ := Subgroup.mem_zpowers_iff.mp ((hG.mem_zpowers_generator_iff hg).mpr hu)
  have hq : (0 : ℤ) < q := by exact_mod_cast hG.order_prime.pos
  simp only [power_generator_eq_iff hG hg, ← hk, zpow_eq_zpow_iff_modEq, hG.orderOf_generator hg]
  refine ⟨k % q, ⟨⟨Int.emod_nonneg k hq.ne', Int.emod_lt_of_pos k hq⟩, Int.mod_modEq k q⟩, ?_⟩
  rintro j ⟨⟨hnonneg, hlt⟩, hj⟩
  rw [← Int.emod_eq_of_lt hnonneg hlt]
  exact hj

theorem ncard_members (hG : G.params.IsSafe p q) :
    {e | (Group.residues G).isMember (.element e) = true}.ncard = q := by
  have : Fact p.Prime := ⟨hG.prime⟩
  obtain ⟨g, hg⟩ := hG.exists_unit_eq_generator
  have himage : {e | (Group.residues G).isMember (.element e) = true} =
      (fun u : (ZMod p)ˣ => G.ofZMod (u : ZMod p)) '' (Subgroup.zpowers g) := by
    ext e
    simp only [Set.mem_ofPred_eq, isMember_iff hG, order_eq hG, zpow_natCast, Set.mem_image,
      SetLike.mem_coe, hG.mem_zpowers_generator_iff hg]
    exact exists_congr fun u => and_congr_right fun _ => eq_comm
  have hinjective : Function.Injective fun u : (ZMod p)ˣ => G.ofZMod (u : ZMod p) :=
    (ofZMod_injective G).comp Units.val_injective
  rw [himage, Set.ncard_image_of_injective _ hinjective]
  exact (Nat.card_zpowers g).trans (hG.orderOf_generator hg)

/-- Membership, a checked construction, squares, the symbols that the encoders look at and the powers of
    the generator mark the same residues; the logarithm is unique below the order, and there are as many members as the
    order says. -/
theorem members_eq_powers_of_generator (hG : G.params.IsSafe p q) :
    (∀ x : ℤ, 0 < x → x < p →
      [(Group.residues G).isMember (.element (.residue ⟨G, x⟩)) = true,
        ∃ e, (Group.residues G).generate true [.int x] = .ok e,
        IsSquare (x : ZMod p),
        Integer.jacobi x G.params.modulus = .ok 1,
        Natural.jacobi x G.params.modulus = .ok 1,
        ∃ k : ℤ, (Group.residues G).power (.element (Group.residues G).generator) k =
          .ok (.residue ⟨G, x⟩)].TFAE) ∧
    (∀ e, (Group.residues G).isMember (.element e) = true →
      ∃! k : ℤ, (0 ≤ k ∧ k < q) ∧
        (Group.residues G).power (.element (Group.residues G).generator) k = .ok e) ∧
    {e | (Group.residues G).isMember (.element e) = true}.ncard = q :=
  ⟨fun _ hpos hlt => isMember_tfae hG hpos hlt, fun _ he => existsUnique_logarithm hG he,
    ncard_members hG⟩

/-- The squares modulo 23, with the generator four. -/
def modulo23 : ResidueGroup :=
  ⟨0, .signed, ResidueParams.record ⟨23, 11, 4, "s23"⟩⟩

theorem isSafe_modulo23 : modulo23.params.IsSafe 23 11 :=
  ⟨rfl, rfl, by norm_num, by norm_num, rfl, by norm_num, by decide, by decide, by decide⟩

theorem members_eq_powers_of_generator_modulo23 :
    modulo23.params.IsSafe 23 11 ∧
      (∀ x : ℤ, 0 < x → x < (23 : ℕ) →
        [(Group.residues modulo23).isMember (.element (.residue ⟨modulo23, x⟩)) = true,
          ∃ e, (Group.residues modulo23).generate true [.int x] = .ok e,
          IsSquare (x : ZMod 23),
          Integer.jacobi x modulo23.params.modulus = .ok 1,
          Natural.jacobi x modulo23.params.modulus = .ok 1,
          ∃ k : ℤ, (Group.residues modulo23).power (.element (Group.residues modulo23).generator) k =
            .ok (.residue ⟨modulo23, x⟩)].TFAE) ∧
      {e | (Group.residues modulo23).isMember (.element e) = true}.ncard = 11 :=
  have hmembers := members_eq_powers_of_generator isSafe_modulo23
  ⟨isSafe_modulo23, hmembers.1, hmembers.2.2⟩

/-- On the members all laws of exponents hold. -/
theorem obeysExponentLaws_members (hG : G.params.IsSafe p q) :
    (Group.residues G).ObeysExponentLaws fun e =>
      (Group.residues G).isMember (.element e) = true := by
  simp only [isMember_iff hG]
  exact (computes hG).obeysExponentLaws

theorem obeysExponentLaws_members_modulo23 :
    modulo23.params.IsSafe 23 11 ∧ (Group.residues modulo23).ObeysExponentLaws fun e =>
      (Group.residues modulo23).isMember (.element e) = true :=
  ⟨isSafe_modulo23, obeysExponentLaws_members isSafe_modulo23⟩

end ResidueGroup

end PrimeOrder
