import Mathlib
import PrimeOrder.Proofs.Curve.PointCount

namespace PrimeOrder.PointCount

/-- The number of square roots of `v` modulo an odd prime `p`, by the criterion of Euler. -/
def squareRoots (p v : ℕ) : ℕ :=
  if v % p = 0 then 1 else if v ^ (p / 2) % p = 1 then 2 else 0

/-- The number of solutions over the integers modulo `p`, found one abscissa at a time. -/
def count (p a b : ℕ) : ℕ :=
  ∑ x ∈ Finset.range p, squareRoots p (x ^ 3 + a * x + b)

variable {p : ℕ} [Fact p.Prime]

section Count

/-- The criterion of Euler for a residue with a square root. -/
theorem pow_half_mod_eq_one (hodd : p ≠ 2) {v : ℕ} {y : ZMod p} (hy : y ^ 2 = v) (hne : y ≠ 0) :
    v ^ (p / 2) % p = 1 := by
  have hprime : p.Prime := Fact.out
  have hhalf : 2 * (p / 2) = p - 1 := by
    have := hprime.eq_two_or_odd
    omega
  have hpower : ((v ^ (p / 2) : ℕ) : ZMod p) = (1 : ℕ) := by
    rw [Nat.cast_pow, ← hy, ← pow_mul, hhalf, ZMod.pow_card_sub_one_eq_one hne, Nat.cast_one]
  have hmod := (ZMod.natCast_eq_natCast_iff' _ _ _).mp hpower
  rwa [Nat.mod_eq_of_lt hprime.one_lt] at hmod

theorem card_square_roots_le (hodd : p ≠ 2) (v : ℕ) :
    (Finset.univ.filter fun y : ZMod p => y ^ 2 = v).card ≤ squareRoots p v := by
  rcases Finset.eq_empty_or_nonempty (Finset.univ.filter fun y : ZMod p => y ^ 2 = v) with
    hempty | ⟨y, hmem⟩
  · rw [hempty]
    exact Nat.zero_le _
  have hy : y ^ 2 = v := (Finset.mem_filter.mp hmem).2
  have hzero : v % p = 0 ↔ y = 0 := by
    rw [← Nat.dvd_iff_mod_eq_zero, ← ZMod.natCast_eq_zero_iff, ← hy, sq_eq_zero_iff]
  refine (card_filter_sq_le hy).trans ?_
  by_cases hne : y = 0
  · rw [squareRoots, if_pos hne, if_pos (hzero.mpr hne)]
  · rw [squareRoots, if_neg hne, if_neg (mt hzero.mp hne), if_pos (pow_half_mod_eq_one hodd hy hne)]

theorem card_solutions_le_count (hodd : p ≠ 2) (a b : ℕ) :
    (solutions (a : ZMod p) b).card ≤ count p a b := by
  have hfibre : ∀ x : ZMod p, ((solutions (a : ZMod p) b).filter fun c => c.1 = x).card ≤
      squareRoots p (x.val ^ 3 + a * x.val + b) := by
    intro x
    refine (card_fibre_le _ _ x).trans ?_
    have hcast : x ^ 3 + a * x + b = (x.val ^ 3 + a * x.val + b : ℕ) := by
      simp only [Nat.cast_add, Nat.cast_mul, Nat.cast_pow, ZMod.natCast_zmod_val]
    rw [hcast]
    exact card_square_roots_le hodd _
  calc (solutions (a : ZMod p) b).card
      = ∑ x : ZMod p, ((solutions (a : ZMod p) b).filter fun c => c.1 = x).card :=
        Finset.card_eq_sum_card_fiberwise fun _ _ => Finset.mem_coe.mpr (Finset.mem_univ _)
    _ ≤ ∑ x : ZMod p, squareRoots p (x.val ^ 3 + a * x.val + b) :=
        Finset.sum_le_sum fun x _ => hfibre x
    _ = count p a b := by
      refine Finset.sum_nbij' ZMod.val (fun n => (n : ZMod p)) ?_ ?_ ?_ ?_ ?_
      · exact fun x _ => Finset.mem_range.mpr x.val_lt
      · exact fun n _ => Finset.mem_univ _
      · exact fun x _ => ZMod.natCast_zmod_val x
      · exact fun n hn => ZMod.val_cast_of_lt (Finset.mem_range.mp hn)
      · exact fun x _ => rfl

end Count

section Scale

/-- Dividing the coordinates by `u ^ 2` and `u ^ 3` leads from the one curve to the other. -/
theorem card_solutions_scale_le {u : ZMod p} (hu : u ≠ 0) (a b : ZMod p) :
    (solutions (u ^ 4 * a) (u ^ 6 * b)).card ≤ (solutions a b).card := by
  refine Finset.card_le_card_of_injOn (fun c => (c.1 / u ^ 2, c.2 / u ^ 3)) ?_ ?_
  · rintro ⟨x, y⟩ hc
    have hy : y ^ 2 = x ^ 3 + u ^ 4 * a * x + u ^ 6 * b := mem_solutions.mp hc
    refine Finset.mem_coe.mpr (mem_solutions.mpr ?_)
    field_simp
    linear_combination hy
  · rintro ⟨x, y⟩ - ⟨x', y'⟩ - h
    obtain ⟨hx, hy⟩ := Prod.mk.inj h
    rw [div_left_inj' (pow_ne_zero 2 hu)] at hx
    rw [div_left_inj' (pow_ne_zero 3 hu)] at hy
    exact Prod.ext hx hy

/-- The power by a quarter is a square root, up to the sign. -/
theorem sq_pow_quarter (hthree : p % 4 = 3) {x : ZMod p} (hx : x ≠ 0) :
    (x ^ ((p + 1) / 4)) ^ 2 = x ∨ (x ^ ((p + 1) / 4)) ^ 2 = -x := by
  have hexponent : (p + 1) / 4 * 2 = p / 2 + 1 := by omega
  rw [← pow_mul, hexponent, pow_succ]
  rcases ZMod.pow_div_two_eq_neg_one_or_one p hx with h | h
  · exact .inl (by rw [h, one_mul])
  · exact .inr (by rw [h, neg_one_mul])

theorem exists_pow_four_eq (hthree : p % 4 = 3) {x : ZMod p} (hx : x ≠ 0) :
    ∃ u : ZMod p, u ≠ 0 ∧ (x = u ^ 4 * 1 ∨ x = u ^ 4 * -1) := by
  have hroot : x ^ ((p + 1) / 4) ≠ 0 := pow_ne_zero _ hx
  refine ⟨_, pow_ne_zero ((p + 1) / 4) hroot, ?_⟩
  generalize hr : x ^ ((p + 1) / 4) = r at hroot
  have hfourth : (r ^ ((p + 1) / 4)) ^ 4 = r ^ 2 := by
    rw [show 4 = 2 * 2 from rfl, pow_mul]
    rcases sq_pow_quarter hthree hroot with h | h
    · rw [h]
    · rw [h, neg_sq]
  rw [hfourth, ← hr, mul_one, mul_neg_one]
  exact (sq_pow_quarter hthree hx).imp Eq.symm fun h => by rw [h, neg_neg]

/-- A bound on the counts for three linear coefficients bounds the solutions of every curve. -/
theorem card_solutions_le_of_count_le (hthree : p % 4 = 3) {k : ℕ}
    (hcount : ∀ a ∈ [0, 1, p - 1], ∀ b < p, count p a b ≤ k) (a b : ZMod p) :
    (solutions a b).card ≤ k := by
  have hprime : p.Prime := Fact.out
  have hbase : ∀ a ∈ [0, 1, p - 1], ∀ b : ZMod p, (solutions (a : ZMod p) b).card ≤ k := by
    intro a ha b
    have hle := (card_solutions_le_count (by omega) a b.val).trans (hcount a ha b.val b.val_lt)
    rwa [ZMod.natCast_zmod_val] at hle
  by_cases ha : a = 0
  · rw [ha, ← Nat.cast_zero]
    exact hbase 0 (by simp) b
  · obtain ⟨u, hu, ha⟩ := exists_pow_four_eq hthree ha
    have hb : b = u ^ 6 * (b / u ^ 6) := (mul_div_cancel₀ b (pow_ne_zero 6 hu)).symm
    rcases ha with rfl | rfl
    all_goals
      rw [hb]
      refine (card_solutions_scale_le hu _ _).trans ?_
    · rw [← Nat.cast_one]
      exact hbase 1 (by simp) _
    · have hlast := hbase (p - 1) (by simp) (b / u ^ 6)
      rwa [Nat.cast_pred hprime.pos, ZMod.natCast_self, zero_sub] at hlast

end Scale

theorem card_solutions_modulo23 [Fact (Nat.Prime 23)] (a b : ZMod 23) : (solutions a b).card ≤ 32 :=
  card_solutions_le_of_count_le (by decide) (by decide +kernel) a b

theorem card_solutions_modulo31 [Fact (Nat.Prime 31)] (a b : ZMod 31) : (solutions a b).card ≤ 44 :=
  card_solutions_le_of_count_le (by decide) (by decide +kernel) a b

theorem card_solutions_modulo43 [Fact (Nat.Prime 43)] (a b : ZMod 43) : (solutions a b).card ≤ 60 :=
  card_solutions_le_of_count_le (by decide) (by decide +kernel) a b

end PrimeOrder.PointCount
