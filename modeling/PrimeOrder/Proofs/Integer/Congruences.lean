import Mathlib
import PrimeOrder.Proofs.Integer.Euclid
import PrimeOrder.Proofs.Outcome

namespace PrimeOrder.Integer

/-- The coefficient of the first of two arguments that are coprime, from zero on and below the second. -/
def inverseResidue (a n : ℤ) : ℤ :=
  (xgcd (a.fmod n) n).x.fmod n

theorem gcd_fmod {a n : ℤ} (hn : 0 < n) : Int.gcd (a.fmod n) n = Int.gcd a n := by
  rw [Int.fmod_eq_emod_of_nonneg a hn.le, Int.gcd_emod]

/-- There is an inverse modulo a positive integer exactly for what is coprime to it. -/
theorem modInverse_eq {a n : ℤ} (hn : 0 < n) :
    modInverse a n = if Int.gcd a n = 1 then .ok (inverseResidue a n)
      else .error (.noInverse (.integer a) (.integer n) (.integer (Int.gcd a n))) := by
  have hdivisor : (xgcd (a.fmod n) n).divisor = Int.gcd a n := by
    rw [divisor_xgcd_eq_gcd hn, gcd_fmod hn]
  simp only [modInverse, if_neg hn.not_ge, hdivisor, Nat.cast_eq_one]
  rfl

theorem mul_inverseResidue_modEq {a n : ℤ} (hn : 0 < n) (hcoprime : IsCoprime a n) :
    a * inverseResidue a n ≡ 1 [ZMOD n] := by
  have hcombines := xgcd_combines (a.fmod n) n
  rw [divisor_xgcd_eq_gcd hn, gcd_fmod hn, Int.isCoprime_iff_gcd_eq_one.mp hcoprime,
    Int.fmod_eq_emod_of_nonneg a hn.le, Nat.cast_one] at hcombines
  have hreduced : inverseResidue a n ≡ (xgcd (a % n) n).x [ZMOD n] := by
    rw [inverseResidue, Int.fmod_eq_emod_of_nonneg _ hn.le, Int.fmod_eq_emod_of_nonneg a hn.le]
    exact Int.mod_modEq _ _
  calc a * inverseResidue a n ≡ (a % n) * (xgcd (a % n) n).x [ZMOD n] :=
        (Int.mod_modEq a n).symm.mul hreduced
    _ ≡ (a % n) * (xgcd (a % n) n).x + n * (xgcd (a % n) n).y [ZMOD n] :=
        (Int.modEq_add_fac_self).symm
    _ = 1 := hcombines

/-- Whether `b` is the inverse of `a` modulo `n`, from zero on and below `n`. -/
structure IsInverse (a n b : ℤ) : Prop where
  nonneg : 0 ≤ b
  lt_modulus : b < n
  mul_modEq : a * b ≡ 1 [ZMOD n]

theorem isInverse_inverseResidue {a n : ℤ} (hn : 0 < n) (hcoprime : IsCoprime a n) :
    IsInverse a n (inverseResidue a n) :=
  ⟨Int.fmod_nonneg_of_pos _ hn, Int.fmod_lt_of_pos _ hn, mul_inverseResidue_modEq hn hcoprime⟩

/-- There is no second inverse. -/
theorem IsInverse.eq {a n b c : ℤ} (hb : IsInverse a n b) (hc : IsInverse a n c) : b = c := by
  have hmodEq : b ≡ c [ZMOD n] :=
    calc b = b * 1 := (mul_one b).symm
      _ ≡ b * (a * c) [ZMOD n] := hc.mul_modEq.symm.mul_left b
      _ = a * b * c := by ring
      _ ≡ 1 * c [ZMOD n] := hb.mul_modEq.mul_right c
      _ = c := one_mul c
  rwa [Int.ModEq, Int.emod_eq_of_lt hb.nonneg hb.lt_modulus,
    Int.emod_eq_of_lt hc.nonneg hc.lt_modulus] at hmodEq

section Moduli

variable {moduli : List ℤ} {m : ℤ}

theorem isCoprime_prod_iff : IsCoprime moduli.prod m ↔ ∀ n ∈ moduli, IsCoprime n m := by
  induction moduli with
  | nil => simp [isCoprime_one_left]
  | cons n rest ih => rw [List.prod_cons, IsCoprime.mul_left_iff, ih, List.forall_mem_cons]

/-- The product of the moduli divided by one of them is the product of the others. -/
theorem prod_fdiv (hm : m ∈ moduli) (hpos : 0 < m) : moduli.prod.fdiv m = (moduli.erase m).prod := by
  rw [← List.prod_erase hm, Int.mul_fdiv_cancel_left _ hpos.ne']

/-- Moduli are coprime in pairs exactly if each of them is coprime to the product of the others. -/
theorem pairwise_isCoprime_iff (hpos : ∀ m ∈ moduli, 0 < m) :
    moduli.Pairwise IsCoprime ↔ ∀ m ∈ moduli, IsCoprime (moduli.prod.fdiv m) m := by
  constructor
  · intro hpairwise m hm
    have hothers := ((List.perm_cons_erase hm).pairwise_iff IsCoprime.symm).mp hpairwise
    rw [prod_fdiv hm (hpos m hm), isCoprime_prod_iff]
    exact fun n hn => (List.rel_of_pairwise_cons hothers hn).symm
  · intro hcofactors
    rw [List.pairwise_iff_forall_sublist]
    intro m n hsublist
    -- whatever stands behind a modulus is one of its others
    have hm : m ∈ moduli := hsublist.subset List.mem_cons_self
    have hn : n ∈ moduli.erase m := by
      have hrest := hsublist.erase m
      rw [List.erase_cons_head] at hrest
      exact List.singleton_sublist.mp hrest
    have hcofactor := hcofactors m hm
    rw [prod_fdiv hm (hpos m hm), isCoprime_prod_iff] at hcofactor
    exact (hcofactor n hn).symm

/-- Integers that are congruent modulo moduli that are coprime in pairs are congruent modulo their
    product. -/
theorem modEq_prod {x y : ℤ} (hcoprime : moduli.Pairwise IsCoprime)
    (hmodEq : ∀ m ∈ moduli, x ≡ y [ZMOD m]) : x ≡ y [ZMOD moduli.prod] := by
  induction moduli with
  | nil => exact Int.modEq_one
  | cons m rest ih =>
    obtain ⟨hm, hrest⟩ := List.forall_mem_cons.mp hmodEq
    obtain ⟨hothers, hpairwise⟩ := List.pairwise_cons.mp hcoprime
    have hcofactor : IsCoprime m rest.prod :=
      (isCoprime_prod_iff.mpr fun n hn => (hothers n hn).symm).symm
    rw [List.prod_cons, ← Int.modEq_and_modEq_iff_modEq_mul (Int.isCoprime_iff_gcd_eq_one.mp hcofactor)]
    exact ⟨hm, ih hpairwise hrest⟩

end Moduli

/-- The summand of a congruence whose modulus is coprime to the product of the others. -/
def summand (product : ℤ) (c : ℤ × ℤ) : ℤ :=
  c.1 * product.fdiv c.2 * inverseResidue (product.fdiv c.2) c.2

section Sum

variable {product : ℤ} {pairs : List (ℤ × ℤ)}

theorem congruenceTerm_eq {c : ℤ × ℤ} (hc : 0 < c.2) :
    congruenceTerm product c =
      if Int.gcd (product.fdiv c.2) c.2 = 1 then .ok (summand product c) else .error .notCoprime := by
  rw [congruenceTerm, modInverse_eq hc]
  split_ifs <;> rfl

/-- The sum exists exactly if every modulus is coprime to the product of the others. -/
theorem sumCongruences_eq (hpos : ∀ c ∈ pairs, 0 < c.2) :
    sumCongruences product pairs =
      if ∀ c ∈ pairs, Int.gcd (product.fdiv c.2) c.2 = 1 then .ok (pairs.map (summand product)).sum
      else .error .notCoprime := by
  induction pairs with
  | nil => rfl
  | cons c rest ih =>
    obtain ⟨hc, hrest⟩ := List.forall_mem_cons.mp hpos
    rw [sumCongruences, congruenceTerm_eq hc, ih hrest]
    simp only [List.forall_mem_cons]
    by_cases hhead : Int.gcd (product.fdiv c.2) c.2 = 1
    · by_cases htail : ∀ d ∈ rest, Int.gcd (product.fdiv d.2) d.2 = 1
      · rw [if_pos hhead, if_pos htail, if_pos ⟨hhead, htail⟩]
        rfl
      · rw [if_pos hhead, if_neg htail, if_neg fun h : _ ∧ _ => htail h.2]
        rfl
    · rw [if_neg hhead, if_neg fun h : _ ∧ _ => hhead h.1]
      rfl

/-- The summand of a congruence solves it if the modulus is coprime to the product of the others. -/
theorem summand_modEq {c : ℤ × ℤ} (hc : 0 < c.2) (hcoprime : IsCoprime (product.fdiv c.2) c.2) :
    summand product c ≡ c.1 [ZMOD c.2] := by
  have hinverse := (mul_inverseResidue_modEq hc hcoprime).mul_left c.1
  rwa [mul_one, ← mul_assoc] at hinverse

/-- The summands of all other congruences are multiples of the modulus. -/
theorem sum_modEq (hpos : ∀ c ∈ pairs, 0 < c.2) {c : ℤ × ℤ} (hc : c ∈ pairs)
    (hcoprime : IsCoprime ((pairs.map Prod.snd).prod.fdiv c.2) c.2) :
    (pairs.map (summand (pairs.map Prod.snd).prod)).sum ≡ c.1 [ZMOD c.2] := by
  have hothers : ∀ d ∈ pairs.erase c, c.2 ∣ (pairs.map Prod.snd).prod.fdiv d.2 := by
    intro d hd
    have hperm : pairs.Perm (d :: c :: (pairs.erase c).erase d) :=
      (List.perm_cons_erase hc).trans
        (((List.perm_cons_erase hd).cons c).trans (List.Perm.swap d c _))
    have hd0 : 0 < d.2 := hpos d (List.mem_of_mem_erase hd)
    rw [(hperm.map Prod.snd).prod_eq, List.map_cons, List.prod_cons,
      Int.mul_fdiv_cancel_left _ hd0.ne', List.map_cons, List.prod_cons]
    exact dvd_mul_right _ _
  have hrest : c.2 ∣ ((pairs.erase c).map (summand (pairs.map Prod.snd).prod)).sum := by
    apply List.dvd_sum
    intro t ht
    obtain ⟨d, hd, rfl⟩ := List.mem_map.mp ht
    exact ((hothers d hd).mul_left _).mul_right _
  rw [((List.perm_cons_erase hc).map _).sum_eq, List.map_cons, List.sum_cons]
  calc summand (pairs.map Prod.snd).prod c +
        ((pairs.erase c).map (summand (pairs.map Prod.snd).prod)).sum
      ≡ c.1 + 0 [ZMOD c.2] :=
        (summand_modEq (hpos c hc) hcoprime).add (Int.modEq_zero_iff_dvd.mpr hrest)
    _ = c.1 := add_zero _

end Sum

/-- Whether an integer is the least from zero on that is congruent to each residue modulo its
    modulus. -/
structure SolvesLeast (x : ℤ) (residues moduli : List ℤ) : Prop where
  nonneg : 0 ≤ x
  lt_prod : x < moduli.prod
  modEq : ∀ c ∈ residues.zip moduli, x ≡ c.1 [ZMOD c.2]

section Solution

variable {residues moduli : List ℤ} (hlength : residues.length = moduli.length)
include hlength

/-- There is no second solution below the product. -/
theorem SolvesLeast.eq {x y : ℤ} (hcoprime : moduli.Pairwise IsCoprime)
    (hx : SolvesLeast x residues moduli) (hy : SolvesLeast y residues moduli) : x = y := by
  have hmodEq : x ≡ y [ZMOD moduli.prod] := by
    apply modEq_prod hcoprime
    intro m hm
    rw [← List.map_snd_zip hlength.ge] at hm
    obtain ⟨c, hc, rfl⟩ := List.mem_map.mp hm
    exact (hx.modEq c hc).trans (hy.modEq c hc).symm
  rwa [Int.ModEq, Int.emod_eq_of_lt hx.nonneg hx.lt_prod, Int.emod_eq_of_lt hy.nonneg hy.lt_prod]
    at hmodEq

variable (hne : moduli ≠ []) (hpos : ∀ m ∈ moduli, 0 < m)
include hne hpos

theorem crt_eq :
    crt residues moduli =
      (sumCongruences moduli.prod (residues.zip moduli)).map (·.fmod moduli.prod) := by
  have hpositive : (moduli.any fun m => decide (m ≤ 0)) = false := by
    simpa [List.any_eq_false] using hpos
  rw [crt, if_neg (not_not.mpr hlength), if_neg (by simpa using hne), hpositive,
    if_neg Bool.false_ne_true, ← List.prod_eq_foldl]
  dsimp only
  cases sumCongruences moduli.prod (residues.zip moduli) <;> rfl

/-- A problem that is well posed is solved exactly if the moduli are coprime in pairs. -/
theorem crt_cases :
    (moduli.Pairwise IsCoprime ∧ ∃ x, crt residues moduli = .ok x ∧ SolvesLeast x residues moduli) ∨
      ¬ moduli.Pairwise IsCoprime ∧ crt residues moduli = .error .notCoprime := by
  have hmoduli : (residues.zip moduli).map Prod.snd = moduli := List.map_snd_zip hlength.ge
  have hpairs : ∀ c ∈ residues.zip moduli, 0 < c.2 := fun c hc => hpos c.2 (List.of_mem_zip hc).2
  have hcofactors : moduli.Pairwise IsCoprime ↔
      ∀ c ∈ residues.zip moduli, Int.gcd (moduli.prod.fdiv c.2) c.2 = 1 := by
    simp only [pairwise_isCoprime_iff hpos, ← Int.isCoprime_iff_gcd_eq_one]
    conv_lhs => rw [← hmoduli]
    rw [List.forall_mem_map, hmoduli]
  rw [crt_eq hlength hne hpos, sumCongruences_eq hpairs, hcofactors]
  split_ifs with hcoprime
  · have hprod : 0 < moduli.prod := List.prod_pos hpos
    refine .inl ⟨hcoprime, _, rfl, Int.fmod_nonneg_of_pos _ hprod, Int.fmod_lt_of_pos _ hprod, ?_⟩
    intro c hc
    have hsum := sum_modEq hpairs hc
    rw [hmoduli] at hsum
    have hdvd : c.2 ∣ moduli.prod := List.dvd_prod (List.of_mem_zip hc).2
    dsimp only
    rw [Int.fmod_eq_emod_of_nonneg _ hprod.le]
    exact ((Int.mod_modEq _ _).of_dvd hdvd).trans
      (hsum (Int.isCoprime_iff_gcd_eq_one.mpr (hcoprime c hc)))
  · exact .inr ⟨hcoprime, rfl⟩

end Solution

end PrimeOrder.Integer
