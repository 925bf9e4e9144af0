import Mathlib
import PrimeOrder.Proofs.Group.Search
import PrimeOrder.Proofs.Random.Draws

namespace PrimeOrder

namespace Generator

open Finset (range)

theorem toNat_inj {g h : Generator} : g.state.toNat = h.state.toNat ↔ g = h := by
  rw [UInt32.toNat_inj, mk.injEq]

/-- How far the steps take a state. -/
theorem iterate_successor_modEq (n s : ℕ) :
    successor^[n] s ≡
      s + (∑ i ∈ range n, 1664525 ^ i) * (1664524 * s + 1013904223) [MOD 2 ^ 32] := by
  induction n with
  | zero =>
    rw [Finset.range_zero, Finset.sum_empty, zero_mul, add_zero]
    exact Nat.ModEq.rfl
  | succ n ih =>
    rw [Function.iterate_succ_apply', geom_sum_succ]
    calc successor (successor^[n] s) ≡ 1664525 * successor^[n] s + 1013904223 [MOD 2 ^ 32] :=
          Nat.mod_modEq _ _
      _ ≡ 1664525 * (s + (∑ i ∈ range n, 1664525 ^ i) * (1664524 * s + 1013904223)) +
            1013904223 [MOD 2 ^ 32] := (ih.mul_left _).add_right _
      _ = s + (1664525 * ∑ i ∈ range n, 1664525 ^ i + 1) * (1664524 * s + 1013904223) := by ring

/-- The powers of two in a sum of powers are those in the number of its terms. -/
theorem two_pow_dvd_geom_sum_iff {a : ℤ} (hne : a - 1 ≠ 0) (hfour : 4 ∣ a - 1) (k n : ℕ) :
    2 ^ k ∣ ∑ i ∈ range n, a ^ i ↔ (2 ^ k : ℤ) ∣ n := by
  have hodd : ¬2 ∣ a := by omega
  have hfinite : emultiplicity 2 (a - 1) ≠ ⊤ := by
    rw [← finiteMultiplicity_iff_emultiplicity_ne_top]
    exact Int.finiteMultiplicity_iff.mpr ⟨by decide, hne⟩
  have hlifted : emultiplicity 2 (∑ i ∈ range n, a ^ i) + emultiplicity 2 (a - 1) =
      emultiplicity (2 : ℤ) n + emultiplicity 2 (a - 1) := by
    have hpow := Int.two_pow_sub_pow' n hfour hodd
    rw [one_pow] at hpow
    rw [← emultiplicity_mul Int.prime_two, geom_sum_mul, hpow, add_comm]
  rw [pow_dvd_iff_le_emultiplicity, pow_dvd_iff_le_emultiplicity,
    ← ENat.add_le_add_iff_right hfinite, hlifted, ENat.add_le_add_iff_right hfinite]

/-- A generator is back in a state after a multiple of `2 ^ 32` steps only. -/
theorem iterate_step_eq_self_iff (g : Generator) (n : ℕ) : step^[n] g = g ↔ 2 ^ 32 ∣ n := by
  have hstate : successor^[n] g.state.toNat < 2 ^ 32 :=
    toNat_iterate_step n g ▸ (step^[n] g).state.toNat_lt
  have hcoprime : Nat.Coprime (2 ^ 32) (1664524 * g.state.toNat + 1013904223) := by
    apply Nat.Coprime.pow_left
    rw [Nat.coprime_two_left, Nat.odd_iff]
    omega
  have hsum : 2 ^ 32 ∣ ∑ i ∈ range n, 1664525 ^ i ↔ 2 ^ 32 ∣ n := by
    have hlifted := two_pow_dvd_geom_sum_iff (a := 1664525) (by norm_num) (by norm_num) 32 n
    exact_mod_cast hlifted
  calc step^[n] g = g ↔ successor^[n] g.state.toNat = g.state.toNat := by
        rw [← toNat_inj, toNat_iterate_step]
    _ ↔ successor^[n] g.state.toNat ≡ g.state.toNat [MOD 2 ^ 32] :=
        ⟨fun h => congrArg (· % 2 ^ 32) h, fun h => h.eq_of_lt_of_lt hstate g.state.toNat_lt⟩
    _ ↔ 2 ^ 32 ∣ (∑ i ∈ range n, 1664525 ^ i) * (1664524 * g.state.toNat + 1013904223) := by
        rw [← Nat.add_modEq_left_iff (a := g.state.toNat)]
        have hmoved := iterate_successor_modEq n g.state.toNat
        exact ⟨hmoved.symm.trans, hmoved.trans⟩
    _ ↔ 2 ^ 32 ∣ n := by rw [hcoprime.dvd_mul_right, hsum]

/-- Fewer than `2 ^ 32` steps never lead to a state twice. -/
theorem iterate_step_injOn {g : Generator} {start i j : ℕ} (hi : i < 2 ^ 32) (hj : j < 2 ^ 32)
    (heq : step^[start + i] g = step^[start + j] g) : i = j := by
  wlog hle : i ≤ j generalizing i j
  · exact (this hj hi heq.symm (Nat.le_of_not_le hle)).symm
  have hback : step^[j - i] (step^[start + i] g) = step^[start + i] g := by
    rw [← Function.iterate_add_apply, ← Nat.add_comm, Nat.add_assoc, Nat.add_sub_cancel' hle, heq]
  have hzero : j - i = 0 :=
    Nat.eq_zero_of_dvd_of_lt ((iterate_step_eq_self_iff _ _).mp hback) (by omega)
  omega

/-- From any state on, `2 ^ 32` steps lead to every state once. -/
theorem existsUnique_iterate_step (g target : Generator) (start : ℕ) :
    ∃! n, (start ≤ n ∧ n < start + 2 ^ 32) ∧ step^[n] g = target := by
  have hinjective : Function.Injective
      fun i : Fin (2 ^ 32) => (step^[start + i] g).state.toBitVec.toFin := by
    intro i j hij
    exact Fin.ext (iterate_step_injOn i.isLt j.isLt (toNat_inj.mp (congrArg Fin.val hij)))
  -- there are as many states as steps, so no state is left out
  obtain ⟨i, hi⟩ := Finite.surjective_of_injective hinjective target.state.toBitVec.toFin
  have htarget : step^[start + i] g = target := toNat_inj.mp (congrArg Fin.val hi)
  refine ⟨start + i, ⟨⟨Nat.le_add_right _ _, Nat.add_lt_add_left i.isLt _⟩, htarget⟩, ?_⟩
  rintro n ⟨⟨hstart, hend⟩, hn⟩
  obtain ⟨j, rfl⟩ := Nat.exists_eq_add_of_le hstart
  rw [iterate_step_injOn (Nat.lt_of_add_lt_add_left hend) i.isLt (hn.trans htarget.symm)]

section Loop

variable {low high : ℤ} (hrange : low ≤ high)
include hrange

/-- Every draw of a row takes the same number of steps. -/
theorem drawAt_eq_between (g : Generator) (place : ℕ) :
    RandomSource.drawAt low high g place =
      between low high (step^[place * rangeSteps low high] g) := by
  induction place generalizing g with
  | zero =>
    rw [zero_mul]
    rfl
  | succ place ih =>
    obtain ⟨drawn, hdraw, -⟩ := between_of_le hrange g
    have hfirst : RandomSource.draw low high g = .ok (drawn, step^[rangeSteps low high] g) := hdraw
    rw [RandomSource.drawAt, hfirst, Outcome.ok_bind]
    dsimp only
    rw [ih, ← Function.iterate_add_apply, Nat.succ_mul]

/-- A row of draws starts again after `2 ^ 32` of them. -/
theorem drawAt_add_two_pow (g : Generator) (place : ℕ) :
    RandomSource.drawAt low high g (place + 2 ^ 32) = RandomSource.drawAt low high g place := by
  have hcycle : step^[2 ^ 32 * rangeSteps low high] g = g :=
    (iterate_step_eq_self_iff g _).mpr (Nat.dvd_mul_right _ _)
  rw [drawAt_eq_between hrange, drawAt_eq_between hrange, Nat.add_mul, Function.iterate_add_apply,
    hcycle]

end Loop

/-- Whether the draws of a row from one range follow the steps of a generator and have used all states
    when they come back to its own. -/
structure DrawsThrough (g : Generator) (low high : ℤ) : Prop where
  takes : ∀ place, ∃ drawn, RandomSource.drawAt low high g place =
    .ok (drawn, step^[(place + 1) * rangeSteps low high] g)
  visits_all : ∀ place drawn, RandomSource.drawAt low high g place = .ok (drawn, g) →
    ∀ target, ∃ n < (place + 1) * rangeSteps low high, step^[n] g = target

theorem rangeSteps_pos (low high : ℤ) : 0 < rangeSteps low high := by
  rw [rangeSteps, Nat.ceilDiv_eq_add_pred_div]
  omega

theorem drawsThrough {low high : ℤ} (hrange : low ≤ high) (g : Generator) :
    g.DrawsThrough low high := by
  have htakes : ∀ place, ∃ drawn, RandomSource.drawAt low high g place =
      .ok (drawn, step^[(place + 1) * rangeSteps low high] g) := by
    intro place
    obtain ⟨drawn, hdraw, -⟩ := between_of_le hrange (step^[place * rangeSteps low high] g)
    refine ⟨drawn, ?_⟩
    rw [drawAt_eq_between hrange, hdraw, ← Function.iterate_add_apply, Nat.succ_mul, Nat.add_comm]
  constructor
  case takes => exact htakes
  case visits_all =>
    intro place drawn hdrawn target
    obtain ⟨drawn', hdrawn'⟩ := htakes place
    have hback : step^[(place + 1) * rangeSteps low high] g = g :=
      (Prod.mk.inj (Except.ok.inj (hdrawn'.symm.trans hdrawn))).2
    have hpos : 0 < (place + 1) * rangeSteps low high :=
      Nat.mul_pos (Nat.succ_pos place) (rangeSteps_pos low high)
    have hle := Nat.le_of_dvd hpos ((iterate_step_eq_self_iff g _).mp hback)
    obtain ⟨n, ⟨⟨-, hn⟩, htarget⟩, -⟩ := existsUnique_iterate_step g target 0
    exact ⟨n, by omega, htarget⟩

end Generator

namespace ResidueParams

/-- The bound on the draws of a search is never below their start. -/
theorem leastDraw_le (bits : ℕ) : leastDraw bits ≤ 2 * leastDraw bits - 1 := by
  have hpos : 0 < leastDraw bits := by
    rw [leastDraw]
    positivity
  omega

/-- What a search comes to at all it comes to within its limit. -/
theorem search_within_limit {isPrime : PrimalityTest} {bits count : ℕ} {g : Generator}
    {found : ResidueParams × Generator} (hfound : search isPrime bits g count = .ok found) :
    search isPrime bits g searchLimit = .ok found := by
  obtain ⟨place, -, hfirst⟩ := search_eq_ok_iff.mp hfound
  refine search_eq_ok_iff.mpr ⟨place, ?_, hfirst⟩
  by_contra hbeyond
  obtain ⟨before, rfl⟩ := Nat.exists_eq_add_of_le' (Nat.le_of_not_lt hbeyond)
  obtain ⟨⟨drawn, hdraw, hpass, -⟩, hearlier⟩ := hfirst
  -- the candidate that passes was there one round before, and failed
  obtain ⟨drawn', next, hdraw', hfails⟩ := hearlier before (by unfold searchLimit; omega)
  have hsame := (Generator.drawAt_add_two_pow (leastDraw_le bits) g before).trans hdraw'
  rw [show 2 ^ 32 = searchLimit from rfl, hdraw] at hsame
  cases hsame
  rw [hpass] at hfails
  cases hfails

end ResidueParams

namespace Generator

/-- Whether a generator goes through all states before it comes back to its own. -/
structure IsFullCycle (g : Generator) : Prop where
  returns_iff : ∀ n, step^[n] g = g ↔ 2 ^ 32 ∣ n
  visits_once : ∀ (start : ℕ) (target : Generator),
    ∃! n, (start ≤ n ∧ n < start + 2 ^ 32) ∧ step^[n] g = target
  draws : ∀ low high, low ≤ high → g.DrawsThrough low high
  search : ∀ (isPrime : PrimalityTest) (bits count : ℕ) (found : ResidueParams × Generator),
    ResidueParams.search isPrime bits g count = .ok found →
      ResidueParams.search isPrime bits g searchLimit = .ok found

/-- Whatever its seed, a generator goes through all states before it comes back to its own, and so does
    what draws from it in a loop. A search that has not found anything by then never does. -/
theorem cycle_is_full (g : Generator) : g.IsFullCycle :=
  ⟨iterate_step_eq_self_iff g, fun start target => existsUnique_iterate_step g target start,
    fun _ _ hrange => drawsThrough hrange g, fun _ _ _ _ => ResidueParams.search_within_limit⟩

end Generator

end PrimeOrder
