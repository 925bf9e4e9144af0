import Mathlib
import PrimeOrder.Proofs.Octets.Signed

namespace PrimeOrder.Octets

section Length

variable {n : ℤ} {length : ℕ}

theorem ofInteger_of_lt (hn : 0 ≤ n) (hlt : n < 256 ^ length) :
    ofInteger n length = .ok (writeBefore [] n.toNat length) := by
  obtain ⟨m, rfl⟩ := Int.eq_ofNat_of_zero_le hn
  apply ofInteger_natCast
  rw [Integer.byteLength_le_iff, Int.natAbs_natCast]
  exact_mod_cast hlt

theorem ofInteger_of_not_lt (hout : ¬(0 ≤ n ∧ n < 256 ^ length)) :
    ofInteger n length = .error .tooLargeForLength := by
  rcases lt_or_ge n 0 with hnegative | hnonneg
  · rw [ofInteger, if_pos hnegative]
  · obtain ⟨m, rfl⟩ := Int.eq_ofNat_of_zero_le hnonneg
    have hbeyond : ¬Integer.byteLength m ≤ length := by
      rw [Integer.byteLength_le_iff, Int.natAbs_natCast]
      exact fun hlt => hout ⟨hnonneg, by exact_mod_cast hlt⟩
    rw [ofInteger, if_neg hnonneg.not_gt, if_pos (Int.natCast_nonneg length), Int.toNat_natCast,
      Int.toNat_natCast, ofNatOfLength, if_neg hbeyond]

/-- What is written has the length that was asked for and stands for the integer. -/
theorem length_and_value_of_ofInteger {octets : Octets} (hok : ofInteger n length = .ok octets) :
    octets.length = length ∧ (value octets : ℤ) = n := by
  by_cases hin : 0 ≤ n ∧ n < 256 ^ length
  · obtain ⟨m, rfl⟩ := Int.eq_ofNat_of_zero_le hin.1
    have hlt : m < 256 ^ length := by exact_mod_cast hin.2
    rw [ofInteger_of_lt hin.1 hin.2, Except.ok.injEq, Int.toNat_natCast] at hok
    rw [← hok, value_writeBefore_nil (Integer.byteLength_le_iff.mpr hlt), length_writeBefore]
    exact ⟨rfl, rfl⟩
  · rw [ofInteger_of_not_lt hin] at hok
    cases hok

end Length

/-- Every string is what is written for its number in its length. -/
theorem ofInteger_value (octets : Octets) : ofInteger (value octets) octets.length = .ok octets := by
  have hfits : Integer.byteLength (value octets) ≤ octets.length :=
    Integer.byteLength_le_iff.mpr (value_lt octets)
  rw [ofInteger_natCast hfits, writeBefore_value, List.append_nil]

/-- Whether the strings of a length are the numbers below the power of 256, and these are what can be
    written in that length. -/
structure CodesNumbers (length : ℕ) : Prop where
  written_iff : ∀ n, (∃ octets, ofInteger n length = .ok octets) ↔ 0 ≤ n ∧ n < 256 ^ length
  refused_iff : ∀ n, (∃ e, ofInteger n length = .error e ∧ e.report.1 = .invalidArgument) ↔
    ¬(0 ≤ n ∧ n < 256 ^ length)
  reads_back : ∀ n octets, ofInteger n length = .ok octets →
    octets.length = length ∧ (value octets : ℤ) = n
  writes_back : ∀ octets : Octets, octets.length = length → ofInteger (value octets) length = .ok octets
  bijOn : Set.BijOn (fun octets : Octets => (value octets : ℤ)) {octets | octets.length = length}
    (Set.Ico 0 (256 ^ length))

theorem codesNumbers (length : ℕ) : CodesNumbers length := by
  have hback : ∀ octets : Octets, octets.length = length →
      ofInteger (value octets) length = .ok octets := by
    rintro octets rfl
    exact ofInteger_value octets
  constructor
  case written_iff =>
    intro n
    by_cases hin : 0 ≤ n ∧ n < 256 ^ length
    · simp [ofInteger_of_lt hin.1 hin.2, hin]
    · simp [ofInteger_of_not_lt hin, hin]
  case refused_iff =>
    intro n
    by_cases hin : 0 ≤ n ∧ n < 256 ^ length
    · simp [ofInteger_of_lt hin.1 hin.2, hin]
    · exact ⟨fun _ => hin, fun _ => ⟨_, ofInteger_of_not_lt hin, rfl⟩⟩
  case reads_back => exact fun _ _ => length_and_value_of_ofInteger
  case writes_back => exact hback
  case bijOn =>
    refine ⟨?_, fun first hfirst second hsecond heq => ?_, fun n hn => ?_⟩
    · rintro octets rfl
      have hlt : (value octets : ℤ) < 256 ^ octets.length := by exact_mod_cast value_lt octets
      exact ⟨Int.natCast_nonneg _, hlt⟩
    · have hsame := hback first hfirst
      dsimp only at heq
      rw [heq, hback second hsecond] at hsame
      exact (Except.ok.inj hsame).symm
    · exact ⟨_, length_and_value_of_ofInteger (ofInteger_of_lt hn.1 hn.2)⟩

/-- No length below the number of bytes takes a number, and this one does. -/
theorem isLeast_byteLength {n : ℤ} (hn : 0 ≤ n) :
    IsLeast {width : ℤ | ∃ octets, ofInteger n width = .ok octets} (Integer.byteLength n) := by
  obtain ⟨m, rfl⟩ := Int.eq_ofNat_of_zero_le hn
  constructor
  · exact ⟨_, ofInteger_natCast le_rfl⟩
  · rintro width ⟨octets, hok⟩
    unfold ofInteger ofNatOfLength at hok
    split_ifs at hok with _ _ hfits
    rw [Int.toNat_natCast] at hfits
    omega

/-- A string of as few bytes as hold a number has no zero in front. -/
theorem ne_zero_of_ofInteger {n : ℤ} {first : UInt8} {rest : Octets}
    (hok : ofInteger n (Integer.byteLength n) = .ok (first :: rest)) : first ≠ 0 := by
  rintro rfl
  obtain ⟨hlength, hvalue⟩ := length_and_value_of_ofInteger hok
  have hshorter : Integer.byteLength n ≤ rest.length := by
    rw [Integer.byteLength_le_iff, ← hvalue, Int.natAbs_natCast, value_cons, UInt8.toNat_zero,
      zero_mul, zero_add]
    exact value_lt rest
  rw [List.length_cons] at hlength
  omega

theorem exists_ofInteger_byteLength {n : ℤ} (hn : 0 < n) :
    ∃ first rest, ofInteger n (Integer.byteLength n) = .ok (first :: rest) ∧ first ≠ 0 := by
  obtain ⟨octets, hok⟩ := (isLeast_byteLength hn.le).1
  cases octets with
  | nil =>
    obtain ⟨-, hvalue⟩ := length_and_value_of_ofInteger hok
    exact absurd hvalue hn.ne
  | cons first rest => exact ⟨first, rest, hok, ne_zero_of_ofInteger hok⟩

/-- In every length the strings are the numbers below the power of 256. A number takes the length of its
    bytes and none below, and starts with a byte that is not zero there. The parts of a string are digits of
    its number. -/
theorem strings_are_numbers (length : ℕ) (n : ℤ) (front back : Octets) :
    CodesNumbers length ∧
    (0 ≤ n → IsLeast {width : ℤ | ∃ octets, ofInteger n width = .ok octets}
      (Integer.byteLength n)) ∧
    (0 < n → ∃ first rest, ofInteger n (Integer.byteLength n) = .ok (first :: rest) ∧ first ≠ 0) ∧
    value (front ++ back) = value front * 256 ^ back.length + value back :=
  ⟨codesNumbers length, isLeast_byteLength, exists_ofInteger_byteLength, value_append front back⟩

/-- The first number of two bytes, and the first that two bytes do not hold. -/
theorem strings_are_numbers_256 :
    (0 < (256 : ℤ) ∧ Integer.byteLength 256 = 2 ∧
      IsLeast {width : ℤ | ∃ octets, ofInteger 256 width = .ok octets} (Integer.byteLength 256) ∧
      ∃ first rest, ofInteger 256 (Integer.byteLength 256) = .ok (first :: rest) ∧ first ≠ 0) ∧
    (∃ e, ofInteger (256 ^ 2) (2 : ℕ) = .error e ∧ e.report.1 = .invalidArgument) ∧
    value ([1] ++ [0, 0]) = value [1] * 256 ^ 2 + value [0, 0] := by
  obtain ⟨htwo, hleast, hfirst, happend⟩ := strings_are_numbers 2 256 [1] [0, 0]
  refine ⟨⟨by decide, by decide, hleast (by decide), hfirst (by decide)⟩, ?_, happend⟩
  exact (htwo.refused_iff _).mpr fun h => lt_irrefl _ h.2

end PrimeOrder.Octets
