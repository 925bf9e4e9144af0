import Mathlib
import PrimeOrder.Number.Encoding
import PrimeOrder.Proofs.Octets
import PrimeOrder.Proofs.Outcome
import PrimeOrder.Proofs.Text.Numeral
import PrimeOrder.Value.Encoding

namespace PrimeOrder

namespace Octets

/-- A number is written into every length that holds it. -/
theorem ofInteger_natCast {n length : ℕ} (hfits : Integer.byteLength n ≤ length) :
    ofInteger n length = .ok (writeBefore [] n length) := by
  rw [ofInteger, if_neg (Int.natCast_nonneg n).not_gt, if_pos (Int.natCast_nonneg length),
    Int.toNat_natCast, Int.toNat_natCast, ofNatOfLength, if_pos hfits]

/-- No byte of a number is lost in a length that holds it. -/
theorem value_writeBefore_nil {n length : ℕ} (hfits : Integer.byteLength n ≤ length) :
    value (writeBefore [] n length) = n := by
  have hlt : n < 256 ^ length := Integer.byteLength_le_iff.mp hfits
  rw [value_writeBefore, Nat.mod_eq_of_lt hlt, List.length_nil, pow_zero, mul_one]
  rfl

end Octets

namespace SignedOctets

/-- The integer that a magnitude and a sign stand for. -/
def toInt (data : SignedOctets) : ℤ :=
  if data.negative then -(data.magnitude.value : ℤ) else data.magnitude.value

theorem natAbs_toInt (data : SignedOctets) : data.toInt.natAbs = data.magnitude.value := by
  unfold toInt
  split <;> simp

/-- The sign shows in the integer, but for that of zero. -/
theorem toInt_neg_iff {data : SignedOctets} :
    data.toInt < 0 ↔ data.negative = true ∧ data.magnitude.value ≠ 0 := by
  unfold toInt
  split
  case isTrue hnegative => simp [hnegative, Nat.pos_iff_ne_zero]
  case isFalse hpositive => simp [hpositive]

/-- The bytes that an integer is written into, and its sign. -/
def ofInt (x : ℤ) (length : ℕ) : SignedOctets :=
  ⟨Octets.writeBefore [] x.natAbs length, decide (x < 0)⟩

theorem length_ofInt (x : ℤ) (length : ℕ) : (ofInt x length).magnitude.length = length :=
  Octets.length_writeBefore [] x.natAbs length

theorem toInt_ofInt {x : ℤ} {length : ℕ} (hfits : Integer.byteLength x ≤ length) :
    (ofInt x length).toInt = x := by
  have hfits : Integer.byteLength x.natAbs ≤ length :=
    (Integer.byteLength_mono (Int.natAbs_natCast _).le).trans hfits
  rw [toInt, ofInt, Octets.value_writeBefore_nil hfits]
  exact Text.Numeral.signed_natAbs x

/-- Nothing but the sign of zero is lost when an integer is taken from its bytes. -/
theorem ofInt_toInt {data : SignedOctets} (hzero : data.magnitude.value = 0 → data.negative = false) :
    ofInt data.toInt data.magnitude.length = data := by
  have hmagnitude : Octets.writeBefore [] data.toInt.natAbs data.magnitude.length = data.magnitude := by
    rw [natAbs_toInt, Octets.writeBefore_value, List.append_nil]
  have hnegative : decide (data.toInt < 0) = data.negative := by
    rw [Bool.eq_iff_iff, decide_eq_true_eq, toInt_neg_iff, and_iff_left_iff_imp]
    intro htrue hvalue
    rw [hzero hvalue] at htrue
    cases htrue
  rw [ofInt, hmagnitude, hnegative]

theorem byteLength_toInt_le (data : SignedOctets) :
    Integer.byteLength data.toInt ≤ data.magnitude.length := by
  rw [Integer.byteLength_le_iff, natAbs_toInt]
  exact Octets.value_lt _

theorem encode_of_lt {x length : ℤ} (hshort : length < Integer.byteLength x) :
    encode x (some length) = .error (.bufferTooShort length (Integer.byteLength x)) :=
  if_pos hshort

theorem encode_of_le {x : ℤ} {length : ℕ} (hfits : Integer.byteLength x ≤ length) :
    encode x (some length) = .ok (ofInt x length) := by
  have hwrite : Octets.ofInteger x.natAbs length = .ok (Octets.writeBefore [] x.natAbs length) :=
    Octets.ofInteger_natCast ((Integer.byteLength_mono (Int.natAbs_natCast _).le).trans hfits)
  rw [encode, Option.getD_some, if_neg (by omega), hwrite]
  rfl

theorem read_none (magnitude : Octets) (negative : Bool) :
    read magnitude negative none = .ok (toInt ⟨magnitude, negative⟩) := rfl

/-- Only a length beyond the bytes is refused, and one that is not negative keeps as many of them. -/
theorem read_some (magnitude : Octets) (negative : Bool) (length : ℤ) :
    read magnitude negative (some length) =
      if (magnitude.length : ℤ) < length then .error .missingOctets
      else .ok (toInt ⟨leading magnitude length, negative⟩) := rfl

theorem leading_append (magnitude rest : Octets) :
    leading (magnitude ++ rest) magnitude.length = magnitude := by
  rw [leading, if_pos (Int.natCast_nonneg _), Int.toNat_natCast, List.take_left']
  rfl

/-- A magnitude is read back from the front of a longer string. -/
theorem read_append (data : SignedOctets) (rest : Octets) :
    read (data.magnitude ++ rest) data.negative (some data.magnitude.length) = .ok data.toInt := by
  have hlength : ¬((data.magnitude ++ rest).length : ℤ) < data.magnitude.length := by
    rw [List.length_append]
    omega
  rw [read_some, if_neg hlength, leading_append]

end SignedOctets

namespace Value

/-- Whether a value given as a sign contradicts the recorded one: it is there and is not equal to it. -/
def Contradicts (v : Value) (recorded : Bool) : Prop :=
  v ≠ .null ∧ ∀ x, v = .number x → x.toInt ≠ (Number.truth recorded).toInt

theorem all_signBeside_iff {v : Value} {recorded : Bool} :
    (v.signBeside recorded).all (· == recorded) = true ↔ ¬v.Contradicts recorded := by
  unfold signBeside Contradicts
  split
  case h_1 => simp
  case h_2 x =>
    by_cases hx : x.toInt = (Number.truth recorded).toInt
    · simp [hx]
    · simp [hx]
  case h_3 hnull hnumber => cases recorded <;> simp_all

/-- A sign that does not contradict the recorded one changes nothing. -/
theorem decode?_signedOctets {data : SignedOctets} {sign : Value} (hsign : ¬sign.Contradicts data.negative)
    (length : Option ℤ) :
    (signedOctets data).decode? length sign =
      some (SignedOctets.read data.magnitude data.negative length) := by
  rw [decode?, SignedOctets.decode, if_pos (all_signBeside_iff.mpr hsign)]

theorem decode?_of_contradicts {data : SignedOctets} {sign : Value}
    (hsign : sign.Contradicts data.negative) (length : Option ℤ) :
    (signedOctets data).decode? length sign = some (.error .conflictingSign) := by
  have hall : ¬(sign.signBeside data.negative).all (· == data.negative) = true :=
    fun h => all_signBeside_iff.mp h hsign
  rw [decode?, SignedOctets.decode, if_neg hall]

theorem truth_bool (b : Bool) : (bool b).truth = b := by
  cases b <;> rfl

theorem decode?_of_octets? {v : Value} {magnitude : Octets} (hv : v.octets? = some magnitude)
    (length : Option ℤ) (sign : Value) :
    v.decode? length sign = some (SignedOctets.read magnitude sign.truth length) := by
  unfold decode?
  split
  case h_1 => cases hv
  case h_2 => rw [hv, Option.map_some]

end Value

namespace SignedOctets

/-- Bytes are refused exactly for a length beyond them. -/
theorem exists_read_invalid_iff {magnitude : Octets} (negative : Bool) {length : Option ℤ} :
    (∃ e, read magnitude negative length = .error e ∧ e.report.1 = .invalidArgument) ↔
      ∃ n ∈ length, (magnitude.length : ℤ) < n := by
  cases length with
  | none => simp [read_none]
  | some n =>
    rw [read_some]
    split_ifs with hbeyond
    · exact ⟨fun _ => ⟨n, rfl, hbeyond⟩, fun _ => ⟨_, rfl, rfl⟩⟩
    · simpa using hbeyond

/-- Whether bytes with a sign are what is written for the integer that is read from them, zero with a
    minus sign apart, and are refused exactly for a contradicting sign or a length beyond them. -/
structure ReadsExactly (data : SignedOctets) : Prop where
  writes_back : (data.magnitude.value = 0 → data.negative = false) →
    ∃ n, (Value.signedOctets data).decode? none .null = some (.ok n) ∧
      ∀ x length : Number, x.toInt = n → length.toInt = data.magnitude.length →
        x.encode (some length) = .ok data
  refused_iff : ∀ (length : Option ℤ) (sign : Value),
    (∃ e, (Value.signedOctets data).decode? length sign = some (.error e) ∧
      e.report.1 = .invalidArgument) ↔
      sign.Contradicts data.negative ∨ ∃ n ∈ length, (data.magnitude.length : ℤ) < n

end SignedOctets

namespace Number

variable {x length : Number}

theorem encode_of_lt (hshort : length.toInt < Integer.byteLength x.toInt) :
    x.encode (some length) = .error (.bufferTooShort length (Integer.byteLength x.toInt)) := by
  unfold encode
  rw [Option.map_some, SignedOctets.encode_of_lt hshort]

theorem encode_of_le {n : ℕ} (hlength : length.toInt = n) (hfits : Integer.byteLength x.toInt ≤ n) :
    x.encode (some length) = .ok (.ofInt x.toInt n) := by
  unfold encode
  rw [Option.map_some, hlength, SignedOctets.encode_of_le hfits]

/-- A length that is too small is refused, unless it is too long to be written. -/
theorem exists_encode_eq_error (hshort : length.toInt < Integer.byteLength x.toInt) :
    ∃ e, x.encode (some length) = .error e ∧
      e.report = if length.isLong then Error.decimalTooLong.report
        else (.invalidArgument, length.text ++ " bytes cannot hold a " ++
          toString (Integer.byteLength x.toInt) ++ "-byte value") := by
  exact ⟨_, encode_of_lt hshort, Error.report_of_numbers_eq rfl⟩

theorem exists_encode_invalid_iff :
    (∃ e, x.encode (some length) = .error e ∧ e.report.1 = .invalidArgument) ↔
      length.toInt < Integer.byteLength x.toInt ∧ length.isLong = false := by
  rcases lt_or_ge length.toInt (Integer.byteLength x.toInt) with hshort | hfits
  · rw [Outcome.exists_invalid_iff (exists_encode_eq_error hshort)]
    exact (and_iff_right hshort).symm
  · obtain ⟨n, hn⟩ : ∃ n : ℕ, length.toInt = n := Int.eq_ofNat_of_zero_le (by omega)
    have hok : x.encode (some length) = .ok (.ofInt x.toInt n) := encode_of_le hn (by omega)
    simp [hok, hfits.not_gt]

/-- Whether a number is written into exactly the bytes it is asked to be written into, whenever they hold
    its magnitude, and read back from them, also from the front of more bytes if its sign is given besides.
    Fewer bytes are refused. -/
structure WritesExactly (x length : Number) : Prop where
  refused_iff : (∃ e, x.encode (some length) = .error e ∧ e.report.1 = .invalidArgument) ↔
    length.toInt < Integer.byteLength x.toInt ∧ length.isLong = false
  refusal : length.toInt < Integer.byteLength x.toInt →
    ∃ e, x.encode (some length) = .error e ∧
      e.report = if length.isLong then Error.decimalTooLong.report
        else (.invalidArgument, length.text ++ " bytes cannot hold a " ++
          toString (Integer.byteLength x.toInt) ++ "-byte value")
  reads_back : Integer.byteLength x.toInt ≤ length.toInt →
    ∃ data, x.encode (some length) = .ok data ∧ data.magnitude.length = length.toInt ∧
      (Value.signedOctets data).decode? none .null = some (.ok x.toInt) ∧
      ∀ rest : Octets, (Value.octets (data.magnitude ++ rest)).decode? (some length.toInt)
        (.bool (decide (x.toInt < 0))) = some (.ok x.toInt)

theorem writesExactly (x length : Number) : x.WritesExactly length := by
  constructor
  case refused_iff => exact exists_encode_invalid_iff
  case refusal => exact exists_encode_eq_error
  case reads_back =>
    intro hfits
    obtain ⟨n, hn⟩ : ∃ n : ℕ, length.toInt = n := Int.eq_ofNat_of_zero_le (by omega)
    have hfits : Integer.byteLength x.toInt ≤ n := by omega
    have hlength := SignedOctets.length_ofInt x.toInt n
    have hvalue := SignedOctets.toInt_ofInt hfits
    refine ⟨_, encode_of_le hn hfits, ?_, ?_, fun rest => ?_⟩
    · rw [hlength, hn]
    · rw [Value.decode?_signedOctets (fun h => h.1 rfl), SignedOctets.read_none, hvalue]
    · have hread := SignedOctets.read_append (.ofInt x.toInt n) rest
      rw [hlength, hvalue] at hread
      rw [hn, Value.decode?_of_octets? rfl, Value.truth_bool, ← hread]
      rfl

end Number

theorem SignedOctets.readsExactly (data : SignedOctets) : data.ReadsExactly := by
  constructor
  case writes_back =>
    intro hzero
    refine ⟨data.toInt, Value.decode?_signedOctets (fun h => h.1 rfl) none, ?_⟩
    intro x length hx hlength
    rw [Number.encode_of_le hlength (hx ▸ data.byteLength_toInt_le), hx, ofInt_toInt hzero]
  case refused_iff =>
    intro length sign
    by_cases hsign : sign.Contradicts data.negative
    · rw [Value.decode?_of_contradicts hsign]
      exact ⟨fun _ => .inl hsign, fun _ => ⟨_, rfl, rfl⟩⟩
    · rw [Value.decode?_signedOctets hsign, or_iff_right hsign,
        ← exists_read_invalid_iff data.negative]
      simp only [Option.some.injEq]

/-- Every number is written into every length that holds it and read back from there, and all bytes with a
    sign are written again for what they stand for, zero with a minus sign apart. What is refused are lengths
    that do not hold the number, contradicting signs and lengths beyond the bytes. -/
theorem Number.encode_decode_exact (x length : Number) (data : SignedOctets) {v : Value}
    {magnitude : Octets} (hv : v.octets? = some magnitude) :
    x.WritesExactly length ∧ data.ReadsExactly ∧
    ∀ (n : Option ℤ) (sign : Value),
      (∃ e, v.decode? n sign = some (.error e) ∧ e.report.1 = .invalidArgument) ↔
        ∃ l ∈ n, (magnitude.length : ℤ) < l := by
  refine ⟨writesExactly x length, data.readsExactly, fun n sign => ?_⟩
  rw [Value.decode?_of_octets? hv, ← SignedOctets.exists_read_invalid_iff sign.truth]
  simp only [Option.some.injEq]

/-- Minus 300 in two bytes and in three, and not in one. -/
theorem Number.encode_decode_exact_minus300 :
    (Value.octets [1, 44, 255]).octets? = some [1, 44, 255] ∧
    (Integer.byteLength (-300) ≤ 3 ∧
      Number.encode (-300 : ℤ) (some (3 : ℤ)) = .ok ⟨[0, 1, 44], true⟩ ∧
      (Value.signedOctets ⟨[0, 1, 44], true⟩).decode? none .null = some (.ok (-300)) ∧
      (Value.octets [0, 1, 44, 255]).decode? (some 3) (.bool true) = some (.ok (-300))) ∧
    (∃ e, Number.encode (-300 : ℤ) (some (1 : ℤ)) = .error e ∧
      e.report = (.invalidArgument, "1 bytes cannot hold a 2-byte value")) ∧
    (∃ n, (Value.signedOctets ⟨[1, 44], true⟩).decode? none .null = some (.ok n) ∧
      ∀ x length : Number, x.toInt = n → length.toInt = 2 →
        x.encode (some length) = .ok ⟨[1, 44], true⟩) ∧
    (∃ e, (Value.signedOctets ⟨[1, 44], true⟩).decode? none (.bool false) = some (.error e) ∧
      e.report.1 = .invalidArgument) ∧
    ∃ e, (Value.octets [1, 44, 255]).decode? (some 4) .null = some (.error e) ∧
      e.report.1 = .invalidArgument := by
  have hraw : (Value.octets [1, 44, 255]).octets? = some [1, 44, 255] := rfl
  have hwritten : Number.encode (-300 : ℤ) (some (3 : ℤ)) = .ok ⟨[0, 1, 44], true⟩ := by
    decide +kernel
  obtain ⟨hthree, hbytes, hlengths⟩ :=
    encode_decode_exact (-300 : ℤ) (3 : ℤ) ⟨[1, 44], true⟩ hraw
  obtain ⟨hone, -⟩ := encode_decode_exact (-300 : ℤ) (1 : ℤ) ⟨[1, 44], true⟩ hraw
  refine ⟨hraw, ⟨by decide, hwritten, ?_⟩, ?_, hbytes.writes_back (by decide), ?_, ?_⟩
  · obtain ⟨data, hdata, -, hback, hfront⟩ := hthree.reads_back (by decide)
    cases hwritten.symm.trans hdata
    exact ⟨hback, hfront [255]⟩
  · obtain ⟨e, he, hreport⟩ := hone.refusal (by decide)
    exact ⟨e, he, hreport.trans (by decide +kernel)⟩
  · refine (hbytes.refused_iff none _).mpr (.inl ⟨by simp, ?_⟩)
    rintro x ⟨⟩
    decide
  · exact (hlengths (some 4) .null).mpr ⟨4, rfl, by decide⟩

/-- A negative length that is too long to be written is not refused as an argument. -/
theorem Number.not_refused_for_length_ten_pow :
    (-10 ^ 4300 : ℤ) < Integer.byteLength 0 ∧
      ¬∃ e, Number.encode (0 : ℤ) (some (-10 ^ 4300 : ℤ)) = .error e ∧
        e.report.1 = .invalidArgument := by
  have hnegative : (-10 ^ 4300 : ℤ) < 0 := neg_neg_of_pos (by positivity)
  have hlong : Text.Numeral.isLong (-10 ^ 4300) = true := by
    rw [Text.Numeral.isLong_eq_true_iff, Int.natAbs_neg]
    exact Text.Numeral.isLong_eq_true_iff.mp Text.Numeral.isLong_ten_pow
  -- the power is not to be computed
  generalize (-10 ^ 4300 : ℤ) = length at hnegative hlong ⊢
  constructor
  · exact hnegative.trans_le (Int.natCast_nonneg _)
  · intro hrefused
    obtain ⟨-, hshort⟩ := exists_encode_invalid_iff.mp hrefused
    rw [isLong, hlong] at hshort
    cases hshort

end PrimeOrder
