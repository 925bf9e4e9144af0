import Mathlib
import PrimeOrder.Proofs.Integer.Size

namespace PrimeOrder.Integer

variable {x : ℤ}

theorem testBit_natCast (x : ℤ) (i : ℕ) : testBit x i = .ok (x.natAbs.testBit i) := by
  rw [testBit, if_neg (Int.natCast_nonneg i).not_gt, Int.toNat_natCast]

theorem testBit_of_bitLength_le {i : ℤ} (hi : bitLength x ≤ i) : testBit x i = .ok false := by
  obtain ⟨j, rfl⟩ := Int.eq_ofNat_of_zero_le ((Int.natCast_nonneg (bitLength x)).trans hi)
  have hlt : x.natAbs < 2 ^ j := bitLength_le_iff.mp (Int.ofNat_le.mp hi)
  rw [testBit_natCast, Nat.testBit_eq_false_of_lt hlt]

theorem bitLength_of_ne_zero (hx : x ≠ 0) : bitLength x = x.natAbs.log2 + 1 :=
  if_neg hx

/-- The highest bit of an integer other than zero is set. -/
theorem testBit_bitLength_sub_one (hx : x ≠ 0) : testBit x (bitLength x - 1) = .ok true := by
  rw [bitLength_of_ne_zero hx, Nat.cast_add_one, add_sub_cancel_right, testBit_natCast,
    Nat.testBit_log2 (Int.natAbs_ne_zero.mpr hx)]

/-- The indices of the bits that are set. -/
def setBits (x : ℤ) : Finset ℕ :=
  (Finset.range (bitLength x)).filter fun i => testBit x i = .ok true

/-- No bit that is set is missed. -/
theorem mem_setBits {i : ℕ} : i ∈ setBits x ↔ testBit x i = .ok true := by
  rw [setBits, Finset.mem_filter, Finset.mem_range, and_iff_right_iff_imp]
  intro hset
  by_contra hbeyond
  rw [testBit_of_bitLength_le (Int.ofNat_le.mpr (not_lt.mp hbeyond))] at hset
  cases hset

theorem sum_setBits (x : ℤ) : ∑ i ∈ setBits x, 2 ^ i = x.natAbs := by
  have hindices : setBits x = x.natAbs.bitIndices.toFinset := by
    ext i
    simp [mem_setBits, testBit_natCast]
  rw [hindices, Finset.sum_toFinset_bitIndices_two_pow]

theorem bitLength_neg (x : ℤ) : bitLength (-x) = bitLength x := by
  simp only [bitLength, neg_eq_zero, Int.natAbs_neg]

theorem byteLength_neg (x : ℤ) : byteLength (-x) = byteLength x := by
  rw [byteLength, bitLength_neg, byteLength]

theorem testBit_neg (x i : ℤ) : testBit (-x) i = testBit x i := by
  rw [testBit, Int.natAbs_neg, testBit]

theorem log2Floor_of_pos (hx : 0 < x) : log2Floor x = .ok (bitLength x - 1) :=
  if_neg hx.not_ge

theorem log2Floor_of_nonpos (hx : x ≤ 0) : log2Floor x = .error .logarithmOfNonPositive :=
  if_pos hx

theorem bitLength_sub_one_bounds (hx : 0 < x) :
    2 ^ (bitLength x - 1) ≤ x ∧ x < 2 ^ (bitLength x - 1 + 1) := by
  obtain ⟨n, rfl⟩ := Int.eq_ofNat_of_zero_le hx.le
  obtain ⟨k, hk⟩ : ∃ k, bitLength n = k + 1 := ⟨_, bitLength_of_ne_zero hx.ne'⟩
  obtain ⟨hlow, hhigh⟩ := bitLength_eq_succ_iff.mp hk
  rw [hk, Nat.add_sub_cancel]
  exact ⟨by exact_mod_cast hlow, by exact_mod_cast hhigh⟩

theorem isLeast_byteLength_magnitude (x : ℤ) : IsLeast {m : ℕ | |x| < 256 ^ m} (byteLength x) := by
  have hholds : ∀ m : ℕ, |x| < 256 ^ m ↔ byteLength x ≤ m := by
    intro m
    rw [byteLength_le_iff, Int.abs_eq_natAbs]
    exact_mod_cast Iff.rfl
  exact ⟨(hholds _).mpr le_rfl, fun m hm => (hholds m).mp hm⟩

theorem fitsMachineWord_eq_true_iff : fitsMachineWord x = true ↔ -2 ^ 63 ≤ x ∧ x < 2 ^ 63 := by
  rw [fitsMachineWord, Bool.and_eq_true, decide_eq_true_eq, decide_eq_true_eq]
  rfl

theorem fitsMachineWord_iff_bitLength :
    fitsMachineWord x = true ↔ bitLength x ≤ 63 ∨ x = -2 ^ 63 := by
  rw [fitsMachineWord_eq_true_iff, bitLength_le_iff]
  omega

/-- The negation of a signed word is one as well, the least word apart. -/
theorem fitsMachineWord_neg_eq_iff :
    fitsMachineWord (-x) = fitsMachineWord x ↔ x.natAbs ≠ 2 ^ 63 := by
  rw [Bool.eq_iff_iff, fitsMachineWord_eq_true_iff, fitsMachineWord_eq_true_iff]
  omega

/-- Whether all that is measured of an integer agrees with one binary expansion of its magnitude. The
    sign plays a part only where it has to: non-positive integers have no logarithm, and the least
    signed word is not the negation of one. -/
structure MeasuresBits (x : ℤ) : Prop where
  bit_beyond : ∀ i : ℤ, bitLength x ≤ i → testBit x i = .ok false
  highest_bit : x ≠ 0 → testBit x (bitLength x - 1) = .ok true
  mem_setBits : ∀ i : ℕ, i ∈ setBits x ↔ testBit x i = .ok true
  sum_setBits : ∑ i ∈ setBits x, 2 ^ i = |x|
  bitLength_neg : bitLength (-x) = bitLength x
  byteLength_neg : byteLength (-x) = byteLength x
  testBit_neg : ∀ i : ℤ, testBit (-x) i = testBit x i
  fitsMachineWord_neg : fitsMachineWord (-x) = fitsMachineWord x ↔ x.natAbs ≠ 2 ^ 63
  logarithm : 0 < x → ∃ k, log2Floor x = .ok k ∧ 2 ^ k ≤ x ∧ x < 2 ^ (k + 1) ∧
    (k : ℤ) = bitLength x - 1
  no_logarithm : x ≤ 0 → ∃ e, log2Floor x = .error e ∧ e.report.1 = .invalidArgument
  isLeast_byteLength : IsLeast {m : ℕ | |x| < 256 ^ m} (byteLength x)
  fitsMachineWord_iff : fitsMachineWord x = true ↔ bitLength x ≤ 63 ∨ x = -2 ^ 63

/-- The measurements of every integer describe the binary expansion of its magnitude, and agree on its
    negation wherever the sign plays no part. -/
theorem measuresBits (x : ℤ) : MeasuresBits x := by
  constructor
  case bit_beyond => exact fun _ => testBit_of_bitLength_le
  case highest_bit => exact testBit_bitLength_sub_one
  case mem_setBits => exact fun _ => mem_setBits
  case sum_setBits =>
    rw [Int.abs_eq_natAbs]
    exact_mod_cast sum_setBits x
  case bitLength_neg => exact bitLength_neg x
  case byteLength_neg => exact byteLength_neg x
  case testBit_neg => exact testBit_neg x
  case fitsMachineWord_neg => exact fitsMachineWord_neg_eq_iff
  case logarithm =>
    intro hx
    obtain ⟨hlow, hhigh⟩ := bitLength_sub_one_bounds hx
    have hpos := bitLength_of_ne_zero hx.ne'
    exact ⟨_, log2Floor_of_pos hx, hlow, hhigh, by omega⟩
  case no_logarithm => exact fun hx => ⟨_, log2Floor_of_nonpos hx, rfl⟩
  case isLeast_byteLength => exact isLeast_byteLength_magnitude x
  case fitsMachineWord_iff => exact fitsMachineWord_iff_bitLength

/-- Two measurements tell some integers from their negations: only the negative one of two words fits,
    and only the positive one of two integers has a logarithm. -/
theorem not_measured_alike_two_pow_63 :
    fitsMachineWord (-2 ^ 63) ≠ fitsMachineWord (2 ^ 63) ∧
      (log2Floor (2 ^ 63)).isOk ≠ (log2Floor (-2 ^ 63)).isOk := by
  decide

/-- Minus ten is minus two minus eight. -/
example : setBits (-10) = {1, 3} := by decide

end PrimeOrder.Integer
