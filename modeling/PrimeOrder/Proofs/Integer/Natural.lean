import Mathlib
import PrimeOrder.Integer.Natural
import PrimeOrder.Proofs.Integer.MillerRabin
import PrimeOrder.Proofs.Integer.Residuosity
import PrimeOrder.Proofs.Octets

namespace PrimeOrder.Natural

section Size

theorem halvings_eq_bitLength (n : ℕ) : halvings n = Integer.bitLength n := by
  fun_induction halvings n with
  | case1 => rfl
  | case2 n hn ih =>
    rw [ih, Integer.bitLength, Integer.bitLength, if_neg (by omega : (n : ℤ) ≠ 0), Int.natAbs_natCast,
      Int.natAbs_natCast, Nat.log2_def n]
    split_ifs <;> omega

theorem sizeInBits_eq_bitLength {n : ℤ} (hn : n ≠ 0) : sizeInBits n = Integer.bitLength n := by
  rw [sizeInBits, if_neg hn, halvings_eq_bitLength, Integer.bitLength, Integer.bitLength, if_neg hn,
    Int.natAbs_natCast, if_neg (by omega : (n.natAbs : ℤ) ≠ 0)]

theorem sizeInBytes_eq_byteLength {n : ℤ} (hn : n ≠ 0) : sizeInBytes n = Integer.byteLength n := by
  have hpos : Integer.bitLength n ≠ 0 := by
    rw [Integer.bitLength, if_neg hn]
    omega
  rw [sizeInBytes, sizeInBits_eq_bitLength hn, Integer.byteLength]
  omega

end Size

section Octets

theorem value_wordOctets {n : ℕ} (hn : n < 0x100000000) : Octets.value (wordOctets n) = n := by
  simp only [wordOctets, Octets.value, List.foldl_cons, List.foldl_nil, UInt8.toNat_ofNat']
  omega

/-- The words of a number are put before the tail as they are to the base 2^32. -/
theorem value_wordsBefore (tail : Octets) (n : ℕ) :
    Octets.value (wordsBefore tail n) = n * 256 ^ tail.length + Octets.value tail := by
  fun_induction wordsBefore tail n with
  | case1 => rw [zero_mul, zero_add]
  | case2 tail n hn ih =>
    have hlength : (wordOctets (n % 0x100000000)).length = 4 := rfl
    have hsplit := Nat.div_add_mod n 0x100000000
    rw [ih, Octets.value_append, value_wordOctets (Nat.mod_lt _ (by decide)), List.length_append,
      hlength, pow_add, ← add_assoc, ← mul_assoc, ← add_mul]
    congr 2
    omega

theorem value_dropWhile_zero (octets : Octets) :
    Octets.value (octets.dropWhile (· == 0)) = Octets.value octets := by
  induction octets with
  | nil => rfl
  | cons octet rest ih =>
    by_cases hzero : octet = 0
    · subst hzero
      rw [List.dropWhile_cons_of_pos (by rfl), ih, Octets.value_cons]
      simp
    · rw [List.dropWhile_cons_of_neg (by simpa using hzero)]

theorem toOctets_zero : toOctets 0 = [0] := by
  rw [toOctets, wordsBefore, if_pos rfl]
  rfl

/-- The bytes of a number other than zero are as few as hold it. -/
theorem toOctets_eq_ofNat {n : ℕ} (hn : n ≠ 0) : toOctets n = Octets.ofNat n := by
  have hvalue : Octets.value ((wordsBefore [] n).dropWhile (· == 0)) = n := by
    rw [value_dropWhile_zero, value_wordsBefore, List.length_nil, pow_zero, mul_one]
    rfl
  have hhead : ∀ octet ∈ ((wordsBefore [] n).dropWhile (· == 0)).head?, octet ≠ 0 := by
    intro octet hoctet
    have := List.head?_dropWhile_not (· == (0 : UInt8)) (wordsBefore [] n)
    simp_all
  unfold toOctets
  split
  · rename_i hnil
    rw [hnil] at hvalue
    exact absurd hvalue.symm hn
  · rename_i hne
    cases hoctets : (wordsBefore [] n).dropWhile (· == 0) with
    | nil => exact absurd hoctets hne
    | cons octet rest =>
      rw [hoctets] at hvalue hhead
      rw [← hvalue, Octets.ofNat_value (hhead octet rfl)]

end Octets

section Power

theorem multiplyPower_eq {product modulus : ℕ} (base exponent : ℕ)
    (hproduct : product % modulus = product) :
    multiplyPower product base exponent modulus = product * base ^ exponent % modulus := by
  fun_induction multiplyPower product base exponent modulus with
  | case1 => rw [pow_zero, mul_one, hproduct]
  | case2 product base exponent hne ih =>
    have hsquare :
        (base * base % modulus) ^ (exponent / 2) ≡ base ^ (2 * (exponent / 2)) [MOD modulus] := by
      rw [pow_mul, pow_two]
      exact (Nat.mod_modEq _ _).pow _
    rw [dite_eq_ite] at ih
    by_cases hodd : exponent % 2 = 1
    · have hsplit : base ^ exponent = base * base ^ (2 * (exponent / 2)) := by
        rw [← pow_succ']
        congr 1
        omega
      rw [if_pos hodd] at ih ⊢
      rw [ih (Nat.mod_mod _ _), hsplit, ← mul_assoc]
      exact (Nat.mod_modEq _ _).mul hsquare
    · have hsplit : base ^ exponent = base ^ (2 * (exponent / 2)) := by
        congr 1
        omega
      rw [if_neg hodd] at ih ⊢
      rw [ih hproduct, hsplit]
      exact (Nat.ModEq.refl _).mul hsquare

/-- Squaring from the least significant bit on gives the powers that squaring from the most
    significant one gives. -/
theorem power_eq_powModNat (base exponent modulus : ℤ) :
    power base exponent modulus =
      Integer.powModNat (base % modulus).toNat exponent.toNat modulus.toNat := by
  rw [power, multiplyPower_eq _ _ (Nat.mod_mod _ _), Integer.powModNat_eq, Nat.mod_mul_mod, one_mul]

end Power

section Inverse

/-- Whether coefficients have opposite signs and, each taken times the divisor of the other, share the
    modulus between them. -/
def Crosses (modulus r s r' s' : ℤ) : Prop :=
  0 ≤ s ∧ s' ≤ 0 ∧ r' * s - r * s' = modulus ∨ s ≤ 0 ∧ 0 ≤ s' ∧ r * s' - r' * s = modulus

/-- A divisor is at least one, so the coefficient of the next is no greater than its share. -/
theorem Crosses.abs_le {modulus r s r' s' : ℤ} (h : Crosses modulus r s r' s') (hr : 0 < r)
    (hr' : 0 ≤ r') : |s'| ≤ modulus := by
  have hshare : |s'| ≤ r * |s'| := le_mul_of_one_le_left (abs_nonneg s') hr
  rcases h with ⟨hs, hs', heq⟩ | ⟨hs, hs', heq⟩
  · have hother : 0 ≤ r' * s := mul_nonneg hr' hs
    rw [abs_of_nonpos hs'] at hshare ⊢
    linarith
  · have hother : r' * s ≤ 0 := mul_nonpos_of_nonneg_of_nonpos hr' hs
    rw [abs_of_nonneg hs'] at hshare ⊢
    linarith

/-- What the divisions keep, for a value and a modulus: each coefficient gives its divisor up to the
    modulus and is no greater than it. -/
structure Divides (value modulus r s r' s' : ℤ) : Prop where
  nonneg : 0 ≤ r
  nonneg' : 0 ≤ r'
  gcd_eq : Int.gcd r r' = Int.gcd value modulus
  modEq : value * s ≡ r [ZMOD modulus]
  modEq' : value * s' ≡ r' [ZMOD modulus]
  crosses : Crosses modulus r s r' s'
  bound : |s| ≤ modulus
  bound' : |s'| ≤ modulus

namespace Divides

variable {value modulus r s r' s' : ℤ}

theorem start (hvalue : 0 ≤ value) (hmodulus : 0 < modulus) :
    Divides value modulus value 1 modulus 0 := by
  refine ⟨hvalue, hmodulus.le, rfl, by rw [mul_one], by simp [Int.ModEq], .inl ⟨?_, ?_, ?_⟩, ?_, ?_⟩
  · exact zero_le_one
  · exact le_refl 0
  · ring
  · rw [abs_one]
    omega
  · rw [abs_zero]
    exact hmodulus.le

/-- One division keeps all of it. -/
theorem step (h : Divides value modulus r s r' s') (hpos : 0 < r') :
    Divides value modulus r' s' (r - r.fdiv r' * r') (s - r.fdiv r' * s') := by
  have hremainder : r - r.fdiv r' * r' = r.fmod r' := by
    have := Int.mul_fdiv_add_fmod r r'
    linarith [mul_comm r' (r.fdiv r')]
  have hquotient : 0 ≤ r.fdiv r' := Int.fdiv_nonneg h.nonneg h.nonneg'
  have hnonneg : 0 ≤ r - r.fdiv r' * r' := hremainder ▸ Int.fmod_nonneg_of_pos r hpos
  have hcrosses : Crosses modulus r' s' (r - r.fdiv r' * r') (s - r.fdiv r' * s') := by
    rcases h.crosses with ⟨hs, hs', heq⟩ | ⟨hs, hs', heq⟩
    · have hproduct : r.fdiv r' * s' ≤ 0 := mul_nonpos_of_nonneg_of_nonpos hquotient hs'
      exact .inr ⟨hs', by linarith, by linarith⟩
    · have hproduct : 0 ≤ r.fdiv r' * s' := mul_nonneg hquotient hs'
      exact .inl ⟨hs', by linarith, by linarith⟩
  constructor
  case nonneg => exact h.nonneg'
  case nonneg' => exact hnonneg
  case gcd_eq => rw [← h.gcd_eq, Int.gcd_comm, Int.gcd_sub_mul_right_left]
  case modEq => exact h.modEq'
  case modEq' =>
    rw [mul_sub, mul_left_comm]
    exact h.modEq.sub (h.modEq'.mul_left _)
  case crosses => exact hcrosses
  case bound => exact h.bound'
  case bound' => exact hcrosses.abs_le hpos hnonneg

/-- The last divisor is the greatest common one, and its coefficient is no greater than the modulus. -/
theorem divideFrom (h : Divides value modulus r s r' s') (hpos : 0 < r ∨ 0 < r') :
    value * (Natural.divideFrom r s r' s').2 ≡ (Natural.divideFrom r s r' s').1 [ZMOD modulus] ∧
      (Natural.divideFrom r s r' s').1 = Int.gcd value modulus ∧
      |(Natural.divideFrom r s r' s').2| ≤ modulus := by
  fun_induction Natural.divideFrom r s r' s' with
  | case1 r s r' s' hstop =>
    obtain rfl : r' = 0 := le_antisymm hstop h.nonneg'
    refine ⟨h.modEq, ?_, h.bound⟩
    rw [← h.gcd_eq, Int.gcd_zero_right, Int.natAbs_of_nonneg h.nonneg]
  | case2 r s r' s' hgoes quotient ih =>
    exact ih (h.step (by omega)) (.inl (by omega))

end Divides

/-- A residue other than zero has an inverse modulo a prime, the least representative of its inverse
    class. -/
theorem inverse_eq_val_inv {p : ℕ} [Fact p.Prime] {n : ℤ} (hnonneg : 0 ≤ n)
    (hn : (n : ZMod p) ≠ 0) : inverse n p = .ok ((n : ZMod p)⁻¹.val : ℤ) := by
  have hp : (0 : ℤ) < p := by exact_mod_cast (Fact.out : p.Prime).pos
  obtain ⟨hmod, hgcd, hbound⟩ := (Divides.start hnonneg hp).divideFrom (.inr hp)
  have hone : (Natural.divideFrom n 1 p 0).1 = 1 := by
    have hdvd : ¬ (p : ℤ) ∣ n := by rwa [← ZMod.intCast_zmod_eq_zero_iff_dvd]
    have hcoprime := Int.isCoprime_iff_gcd_eq_one.mp
      ((Nat.prime_iff_prime_int.mp Fact.out).coprime_iff_not_dvd.mpr hdvd)
    rw [hgcd, Int.gcd_comm, hcoprime, Nat.cast_one]
  generalize hresult : Natural.divideFrom n 1 p 0 = result at *
  obtain ⟨divisor, coefficient⟩ := result
  obtain rfl : divisor = 1 := hone
  have hproduct : (n : ZMod p) * (coefficient : ZMod p) = 1 := by
    rw [← Int.cast_mul, ← Int.cast_one, ZMod.intCast_eq_intCast_iff]
    exact hmod
  have hinv : (coefficient : ZMod p) = (n : ZMod p)⁻¹ := eq_inv_of_mul_eq_one_right hproduct
  have hne : coefficient ≠ p := by
    rintro rfl
    simp at hproduct
  have hval : (if coefficient < 0 then coefficient % p else coefficient) = coefficient % p := by
    split_ifs with hnegative
    · rfl
    · rw [abs_le] at hbound
      exact (Int.emod_eq_of_lt (by omega) (by omega)).symm
  simp only [inverse, hresult, ne_eq, not_true_eq_false, if_false, hval]
  rw [← hinv, ZMod.val_intCast]

end Inverse

section Symbol

/-- The symbol of a power of two depends on its parity and on the modulus. -/
theorem jacobiSym_two_pow {n : ℕ} (hn : n % 2 = 1) (twos : ℕ) :
    jacobiSym 2 n ^ twos = if twos % 2 = 0 ∨ n % 8 = 1 ∨ n % 8 = 7 then 1 else -1 := by
  rw [jacobiSym.at_two (Nat.odd_iff.mpr hn), ZMod.χ₈_nat_eq_if_mod_eight, if_neg (by omega)]
  by_cases height : n % 8 = 1 ∨ n % 8 = 7
  · rw [if_pos height, one_pow, if_pos (.inr height)]
  · rw [if_neg height]
    by_cases heven : twos % 2 = 0
    · rw [if_pos (.inl heven), (Nat.even_iff.mpr heven).neg_one_pow]
    · rw [if_neg (by tauto), (Nat.odd_iff.mpr (by omega)).neg_one_pow]

theorem oddPart_odd {n : ℕ} (hn : n ≠ 0) : (Integer.oddPart n).1 % 2 = 1 := by
  fun_induction Integer.oddPart n with
  | case1 n h => omega
  | case2 n h half ih => exact ih (by omega)

/-- The recursion computes the Jacobi symbol. -/
theorem symbol_eq_jacobiSym (value modulus : ℕ) (hodd : modulus % 2 = 1) :
    symbol value modulus = jacobiSym value modulus := by
  fun_induction symbol value modulus with
  | case1 value modulus residue h =>
    rcases h with hone | hle
    · rw [jacobiSym.mod_left, ← Int.natCast_mod]
      simp only [residue] at hone
      rw [hone, Nat.cast_one, jacobiSym.one_left]
    · obtain rfl : modulus = 1 := by omega
      rw [jacobiSym.one_right]
  | case2 value modulus residue h hzero =>
    rw [jacobiSym.mod_left, ← Int.natCast_mod]
    simp only [residue] at hzero
    rw [hzero, Nat.cast_zero, jacobiSym.zero_left (by omega)]
  | case3 value modulus residue h hzero odd twos sign ih =>
    have hodd' : odd % 2 = 1 := oddPart_odd hzero
    have hresidue : odd * 2 ^ twos = residue := Integer.oddPart_mul_two_pow residue
    rw [jacobiSym.mod_left value, ← Int.natCast_mod, ih hodd']
    change _ = jacobiSym (residue : ℕ) modulus
    rw [← hresidue, Nat.cast_mul, Nat.cast_pow, jacobiSym.mul_left, jacobiSym.pow_left,
      Nat.cast_ofNat, jacobiSym_two_pow hodd, Int.natCast_mod, ← jacobiSym.mod_left,
      ← jacobiSym.quadratic_reciprocity_if hodd' hodd]
    simp only [and_comm (a := odd % 4 = 3), sign]
    split_ifs <;> ring

/-- The symbol is the one that halving one factor of two after the other gives. -/
theorem jacobi_eq_jacobi {m : ℤ} (hpos : 0 < m) (hodd : m % 2 = 1) (n : ℤ) :
    jacobi n m = Integer.jacobi n m := by
  obtain ⟨modulus, rfl⟩ := Int.eq_ofNat_of_zero_le hpos.le
  have hresidue : ((n % modulus).toNat : ℤ) = n % modulus :=
    Int.toNat_of_nonneg (Int.emod_nonneg n hpos.ne')
  rw [Integer.jacobi_eq_jacobiSym (by omega), jacobi, if_neg (by omega), if_neg (by omega),
    Int.toNat_natCast, symbol_eq_jacobiSym _ _ (by omega), hresidue, ← jacobiSym.mod_left]

end Symbol

end PrimeOrder.Natural
