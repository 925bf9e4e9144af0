import Mathlib
import PrimeOrder.Random.Generator

namespace PrimeOrder.Generator

/-- The state after a state, as residues. -/
def successor (state : ℕ) : ℕ :=
  (1664525 * state + 1013904223) % 2 ^ 32

theorem toNat_ofSeed (seed : ℤ) : ((ofSeed seed).state.toNat : ℤ) = seed % 2 ^ 32 := by
  have hnonneg : 0 ≤ seed % 2 ^ 32 := Int.emod_nonneg _ (by norm_num)
  have hlt : seed % 2 ^ 32 < 2 ^ 32 := Int.emod_lt_of_pos _ (by norm_num)
  rw [ofSeed, UInt32.toNat_ofNat']
  omega

theorem toNat_step (g : Generator) : g.step.state.toNat = successor g.state.toNat := by
  simp only [step, successor, UInt32.toNat_add, UInt32.toNat_mul, UInt32.toNat_ofNat]
  omega

theorem toNat_iterate_step (n : ℕ) (g : Generator) :
    (step^[n] g).state.toNat = successor^[n] g.state.toNat := by
  have hsemi : Function.Semiconj (fun g : Generator => g.state.toNat) step successor := toNat_step
  exact hsemi.iterate_right n g

theorem upperHalf_lt (g : Generator) : g.upperHalf < 2 ^ 16 := by
  have hstate : g.state.toNat < 2 ^ 32 := g.state.toNat_lt
  rw [upperHalf, UInt32.toNat_shiftRight, Nat.shiftRight_eq_div_pow]
  exact Nat.div_lt_of_lt_mul hstate

/-- Appending to what was drawn before shifts it by sixteen bits. -/
theorem shiftLeft_or_upperHalf (n : ℕ) (g : Generator) :
    n <<< 16 ||| g.upperHalf = n * 2 ^ 16 + g.upperHalf := by
  rw [← Nat.shiftLeft_add_eq_or_of_lt g.upperHalf_lt, Nat.shiftLeft_eq]

theorem snd_chunks (acc : ℕ) (g : Generator) (count : ℕ) : (chunks acc g count).2 = step^[count] g := by
  induction count generalizing acc g with
  | zero => rfl
  | succ count ih => rw [chunks, ih, Function.iterate_succ_apply]

/-- What was drawn before stands in front of what is drawn after it. -/
theorem fst_chunks (acc : ℕ) (g : Generator) (count : ℕ) :
    (chunks acc g count).1 = acc * 2 ^ (16 * count) + (chunks 0 g count).1 := by
  induction count generalizing acc g with
  | zero => simp [chunks]
  | succ count ih =>
    rw [chunks, chunks, ih, ih (0 <<< 16 ||| g.step.upperHalf), shiftLeft_or_upperHalf,
      shiftLeft_or_upperHalf, mul_add_one, pow_add]
    ring

theorem fst_chunks_lt (g : Generator) (count : ℕ) : (chunks 0 g count).1 < 2 ^ (16 * count) := by
  induction count generalizing g with
  | zero => simp [chunks]
  | succ count ih =>
    have hupper : g.step.upperHalf + 1 ≤ 2 ^ 16 := g.step.upperHalf_lt
    rw [chunks, fst_chunks, shiftLeft_or_upperHalf, zero_mul, zero_add]
    calc g.step.upperHalf * 2 ^ (16 * count) + (chunks 0 g.step count).1
        < g.step.upperHalf * 2 ^ (16 * count) + 2 ^ (16 * count) := Nat.add_lt_add_left (ih g.step) _
      _ = (g.step.upperHalf + 1) * 2 ^ (16 * count) := by ring
      _ ≤ 2 ^ 16 * 2 ^ (16 * count) := Nat.mul_le_mul_right _ hupper
      _ = 2 ^ (16 * (count + 1)) := by rw [← pow_add, mul_add_one, add_comm]

theorem chunks_add (acc : ℕ) (g : Generator) (m n : ℕ) :
    chunks acc g (m + n) = chunks (chunks acc g m).1 (chunks acc g m).2 n := by
  induction m generalizing acc g with
  | zero => rw [zero_add, chunks]
  | succ m ih => rw [Nat.succ_add, chunks, ih, chunks]

/-- The steps that hold `k` bits are as many as sixteens cover `k`. -/
theorem bits_natCast (k : ℕ) (g : Generator) :
    g.bits k = ((chunks 0 g (k ⌈/⌉ 16)).1 / 2 ^ (16 * (k ⌈/⌉ 16) - k), step^[k ⌈/⌉ 16] g) := by
  rw [bits, Int.toNat_natCast, snd_chunks, Nat.shiftRight_eq_div_pow, Nat.ceilDiv_eq_add_pred_div]
  rfl

theorem fst_bits_lt (k : ℕ) (g : Generator) : (g.bits k).1 < 2 ^ k := by
  have hcovers : k ≤ 16 * (k ⌈/⌉ 16) := le_smul_ceilDiv (Nat.succ_pos 15)
  rw [bits_natCast]
  apply Nat.div_lt_of_lt_mul
  rw [← pow_add, Nat.sub_add_cancel hcovers]
  exact fst_chunks_lt g _

theorem snd_bits (k : ℕ) (g : Generator) : (g.bits k).2 = step^[k ⌈/⌉ 16] g := by
  rw [bits_natCast]

theorem sixteen_mul_ceilDiv (m : ℕ) : 16 * m ⌈/⌉ 16 = m :=
  smul_ceilDiv (Nat.succ_pos 15) m

theorem sixteen_mul_add_ceilDiv (m k : ℕ) : (16 * m + k) ⌈/⌉ 16 = m + k ⌈/⌉ 16 := by
  rw [Nat.ceilDiv_eq_add_pred_div, Nat.ceilDiv_eq_add_pred_div]
  omega

theorem bits_sixteen_mul (m : ℕ) (g : Generator) : g.bits (16 * m : ℕ) = chunks 0 g m := by
  rw [bits_natCast, sixteen_mul_ceilDiv, Nat.sub_self, pow_zero, Nat.div_one, ← snd_chunks 0]

/-- Bits after a multiple of sixteen are the ones that follow. -/
theorem fst_bits_add (m k : ℕ) (g : Generator) :
    (g.bits (16 * m + k : ℕ)).1 = (g.bits (16 * m : ℕ)).1 <<< k + ((step^[m] g).bits k).1 := by
  have hcovers : k ≤ 16 * (k ⌈/⌉ 16) := le_smul_ceilDiv (Nat.succ_pos 15)
  -- only the steps after the first `m` leave bits over
  have hsurplus : 16 * (m + k ⌈/⌉ 16) - (16 * m + k) = 16 * (k ⌈/⌉ 16) - k := by omega
  have hpow : 2 ^ (16 * (k ⌈/⌉ 16)) = 2 ^ k * 2 ^ (16 * (k ⌈/⌉ 16) - k) := by
    rw [← pow_add, Nat.add_sub_cancel' hcovers]
  rw [bits_sixteen_mul, bits_natCast, bits_natCast, sixteen_mul_add_ceilDiv, hsurplus, chunks_add,
    fst_chunks, hpow, ← mul_assoc, Nat.add_comm, Nat.add_mul_div_right _ _ (Nat.two_pow_pos _),
    Nat.add_comm, Nat.shiftLeft_eq, snd_chunks]

end PrimeOrder.Generator
