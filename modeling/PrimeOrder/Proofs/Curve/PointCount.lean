import Mathlib
import PrimeOrder.Proofs.Curve.Weierstrass

namespace PrimeOrder.PointCount

open Polynomial

variable {p : ℕ} [Fact p.Prime]

/-- The pairs of coordinates that satisfy the equation of a curve. -/
def solutions (a b : ZMod p) : Finset (ZMod p × ZMod p) :=
  Finset.univ.filter fun c => c.2 ^ 2 = c.1 ^ 3 + a * c.1 + b

theorem mem_solutions {a b : ZMod p} {c : ZMod p × ZMod p} :
    c ∈ solutions a b ↔ c.2 ^ 2 = c.1 ^ 3 + a * c.1 + b := by
  simp [solutions]

/-- A curve has the point at infinity beside its solutions. -/
theorem card_point_le (a b : ZMod p) :
    Nat.card (shortWeierstrass a b).Point ≤ (solutions a b).card + 1 := by
  have hmem : ∀ P : (shortWeierstrass a b).Point,
      ShortWeierstrass.coordinates P ∈ Finset.insertNone (solutions a b) := by
    rintro (_ | ⟨x, y, h⟩)
    · exact Finset.none_mem_insertNone
    · refine Finset.some_mem_insertNone.mpr ?_
      exact mem_solutions.mpr (ShortWeierstrass.equation_iff.mp h.left)
  have hinjective : Function.Injective fun P : (shortWeierstrass a b).Point =>
      (⟨ShortWeierstrass.coordinates P, hmem P⟩ : Finset.insertNone (solutions a b)) :=
    fun P Q h => ShortWeierstrass.coordinates_injective (congrArg Subtype.val h)
  have hcard := Nat.card_le_card_of_injective _ hinjective
  rwa [Nat.card_eq_fintype_card (α := Finset.insertNone (solutions a b)), Fintype.card_coe,
    Finset.card_insertNone] at hcard

/-- A residue has two square roots, and zero has one. -/
theorem card_filter_sq_le {v y : ZMod p} (hy : y ^ 2 = v) :
    (Finset.univ.filter fun z : ZMod p => z ^ 2 = v).card ≤ if y = 0 then 1 else 2 := by
  have hsubset : (Finset.univ.filter fun z : ZMod p => z ^ 2 = v) ⊆ {y, -y} := by
    intro z hz
    have hsquare := (Finset.mem_filter.mp hz).2.trans hy.symm
    rcases sq_eq_sq_iff_eq_or_eq_neg.mp hsquare with rfl | rfl <;> simp
  split
  case isTrue hzero =>
    rw [hzero, neg_zero, Finset.pair_eq_singleton] at hsubset
    exact Finset.card_le_card hsubset
  case isFalse => exact (Finset.card_le_card hsubset).trans Finset.card_le_two

/-- The solutions with an abscissa are square roots of the right-hand side. -/
theorem card_fibre_le (a b x : ZMod p) :
    ((solutions a b).filter fun c => c.1 = x).card ≤
      (Finset.univ.filter fun y => y ^ 2 = x ^ 3 + a * x + b).card := by
  refine Finset.card_le_card_of_injOn Prod.snd ?_ ?_
  · rintro ⟨_, y⟩ hc
    obtain ⟨hmem, rfl⟩ := Finset.mem_filter.mp hc
    exact Finset.mem_coe.mpr (Finset.mem_filter.mpr ⟨Finset.mem_univ y, mem_solutions.mp hmem⟩)
  · rintro ⟨_, y⟩ hc ⟨_, y'⟩ hc' h
    obtain ⟨-, rfl⟩ := Finset.mem_filter.mp hc
    obtain ⟨-, rfl⟩ := Finset.mem_filter.mp hc'
    exact Prod.ext rfl h

/-- The right-hand side of the equation of a curve. -/
noncomputable def cubic (a b : ZMod p) : (ZMod p)[X] :=
  X ^ 3 + C a * X + C b

theorem eval_cubic (a b x : ZMod p) : (cubic a b).eval x = x ^ 3 + a * x + b := by
  simp [cubic]

theorem natDegree_cubic (a b : ZMod p) : (cubic a b).natDegree = 3 := by
  unfold cubic
  compute_degree!

theorem natDegree_derivative_cubic_le (a b : ZMod p) : (derivative (cubic a b)).natDegree ≤ 2 := by
  have hle := natDegree_derivative_le (cubic a b)
  rwa [natDegree_cubic] at hle

theorem two_mul_half (hodd : p ≠ 2) : 2 * ((p + 1) / 2) = p + 1 := by
  have hprime : p.Prime := Fact.out
  have := hprime.eq_two_or_odd
  omega

/-- The polynomial whose zeros count the points. -/
noncomputable def counter (a b : ZMod p) : (ZMod p)[X] :=
  2 • cubic a b + (X ^ p - X) * derivative (cubic a b) - 2 • cubic a b ^ ((p + 1) / 2)

section Counter

variable {a b : ZMod p}

theorem counter_eq : counter a b =
    C 2 * cubic a b + (X ^ p - X) * derivative (cubic a b) - C 2 * cubic a b ^ ((p + 1) / 2) := by
  simp only [counter, nsmul_eq_mul, Nat.cast_ofNat, map_ofNat]

/-- The power of the cubic has the greatest degree. -/
theorem natDegree_counter (hodd : p ≠ 2) : (counter a b).natDegree = 3 * ((p + 1) / 2) := by
  have hprime : p.Prime := Fact.out
  have htwo := hprime.two_le
  have hhalf := two_mul_half hodd
  have hchar : (2 : ZMod p) ≠ 0 := Ring.two_ne_zero (by rwa [ZMod.ringChar_zmod_n])
  have hpower : (C 2 * cubic a b ^ ((p + 1) / 2)).natDegree = 3 * ((p + 1) / 2) := by
    rw [natDegree_C_mul hchar, natDegree_pow, natDegree_cubic, mul_comm]
  have hcubic : (C 2 * cubic a b).natDegree ≤ p + 2 := by
    refine (natDegree_C_mul_le 2 (cubic a b)).trans ?_
    rw [natDegree_cubic]
    omega
  have hproduct : ((X ^ p - X) * derivative (cubic a b)).natDegree ≤ p + 2 := by
    have hfrobenius : (X ^ p - X : (ZMod p)[X]).natDegree ≤ p :=
      (natDegree_sub_le_of_le (natDegree_X_pow_le p) (natDegree_X_le.trans hprime.one_le)).trans
        (max_self p).le
    exact natDegree_mul_le_of_le hfrobenius (natDegree_derivative_cubic_le a b)
  have hlower := natDegree_add_le_of_degree_le hcubic hproduct
  rw [counter_eq, natDegree_sub_eq_right_of_natDegree_lt, hpower]
  rw [hpower]
  omega

theorem counter_ne_zero (hodd : p ≠ 2) : counter a b ≠ 0 := by
  intro hzero
  have hdegree := natDegree_counter (a := a) (b := b) hodd
  have hprime : p.Prime := Fact.out
  have := hprime.two_le
  rw [hzero, natDegree_zero] at hdegree
  omega

theorem isRoot_counter {x y : ZMod p} (hy : y ^ 2 = x ^ 3 + a * x + b) (hodd : p ≠ 2) :
    (counter a b).IsRoot x := by
  have hpower : (y ^ 2) ^ ((p + 1) / 2) = y ^ 2 := by
    rw [← pow_mul, two_mul_half hodd, pow_succ, ZMod.pow_card, pow_two]
  simp only [IsRoot.def, counter_eq, eval_sub, eval_add, eval_mul, eval_pow, eval_C, eval_X,
    eval_cubic, ← hy, hpower, ZMod.pow_card]
  ring

/-- The counter vanishes twice at the abscissas of points whose ordinate is not zero. -/
theorem isRoot_derivative_counter {x y : ZMod p} (hy : y ^ 2 = x ^ 3 + a * x + b) (hne : y ≠ 0)
    (hodd : p ≠ 2) : (derivative (counter a b)).IsRoot x := by
  have hhalf := two_mul_half hodd
  have hpower : (y ^ 2) ^ ((p + 1) / 2 - 1) = 1 := by
    rw [← pow_mul, Nat.mul_sub, hhalf]
    exact ZMod.pow_card_sub_one_eq_one hne
  have hcast : (2 : ZMod p) * ((p + 1) / 2 : ℕ) = 1 := by
    rw [← Nat.cast_ofNat, ← Nat.cast_mul, hhalf, Nat.cast_add, ZMod.natCast_self, Nat.cast_one,
      zero_add]
  simp only [IsRoot.def, counter_eq, derivative_sub, derivative_add, derivative_mul, derivative_pow,
    derivative_C, derivative_X, eval_sub, eval_add, eval_mul, eval_pow, eval_C, eval_X,
    eval_cubic, ← hy, hpower, ZMod.pow_card, ZMod.natCast_self, eval_zero, eval_one]
  linear_combination (-eval x (derivative (cubic a b))) * hcast

/-- There are no more points with an abscissa than the counter has zeros there. -/
theorem card_fibre_le_rootMultiplicity (hodd : p ≠ 2) (x : ZMod p) :
    ((solutions a b).filter fun c => c.1 = x).card ≤ (counter a b).rootMultiplicity x := by
  refine (card_fibre_le a b x).trans ?_
  rcases Finset.eq_empty_or_nonempty (Finset.univ.filter fun y => y ^ 2 = x ^ 3 + a * x + b) with
    hempty | ⟨y, hmem⟩
  · rw [hempty]
    exact Nat.zero_le _
  have hy : y ^ 2 = x ^ 3 + a * x + b := (Finset.mem_filter.mp hmem).2
  have hroot := isRoot_counter hy hodd
  refine (card_filter_sq_le hy).trans ?_
  split
  case isTrue hzero =>
    exact (rootMultiplicity_pos (counter_ne_zero hodd)).mpr hroot
  case isFalse hne =>
    exact (one_lt_rootMultiplicity_iff_isRoot (counter_ne_zero hodd)).mpr
      ⟨hroot, isRoot_derivative_counter hy hne hodd⟩

end Counter

/-- A curve over an odd prime has at most `3 * ((p + 1) / 2)` points beside the one at infinity. -/
theorem card_solutions_le (a b : ZMod p) (hodd : p ≠ 2) :
    (solutions a b).card ≤ 3 * ((p + 1) / 2) := by
  have hroots : (solutions a b).val.map Prod.fst ≤ (counter a b).roots := by
    rw [Multiset.le_iff_count]
    intro x
    rw [Multiset.count_map, count_roots]
    have hfibre := card_fibre_le_rootMultiplicity (a := a) (b := b) hodd x
    simp only [eq_comm (b := x)] at hfibre
    exact hfibre
  calc (solutions a b).card = Multiset.card ((solutions a b).val.map Prod.fst) :=
        (Multiset.card_map _ _).symm
    _ ≤ Multiset.card (counter a b).roots := Multiset.card_le_card hroots
    _ ≤ (counter a b).natDegree := card_roots' _
    _ = 3 * ((p + 1) / 2) := natDegree_counter hodd

end PrimeOrder.PointCount
