import Mathlib
import PrimeOrder.Proofs.Outcome
import PrimeOrder.Proofs.Text.Blank
import PrimeOrder.Proofs.Text.Numeral
import PrimeOrder.Text.Hexadecimal

namespace PrimeOrder.Text.Hexadecimal

/-- Whether a character is the digit of a value, in either case. -/
def IsDigit (d : ℕ) (c : Char) : Prop :=
  d < 16 ∧ (c = d.digitChar ∨ c = d.digitChar.toUpper)

/-- Whether a text is at least one digit, with their value. -/
inductive IsMagnitude : ℕ → List Char → Prop
  | digits {row : List ℕ} {text : List Char} (hne : text ≠ []) (h : List.Forall₂ IsDigit row text) :
    IsMagnitude (Nat.ofDigits 16 row.reverse) text

/-- Whether a text is a magnitude after an optional mark. -/
inductive IsUnsigned : ℕ → List Char → Prop
  | plain {n : ℕ} {text : List Char} (h : IsMagnitude n text) : IsUnsigned n text
  | marked {n : ℕ} {mark : Char} {text : List Char} (hmark : mark = 'x' ∨ mark = 'X')
    (h : IsMagnitude n text) : IsUnsigned n ('0' :: mark :: text)

/-- Whether a text without blanks is a numeral of an integer: a marked or unmarked magnitude after an optional
    minus sign. -/
inductive IsNumeral : ℤ → List Char → Prop
  | plain {n : ℕ} {text : List Char} (h : IsUnsigned n text) : IsNumeral n text
  | negative {n : ℕ} {text : List Char} (h : IsUnsigned n text) : IsNumeral (-n) ('-' :: text)

instance (d : ℕ) : DecidablePred (IsDigit d) :=
  fun c => inferInstanceAs (Decidable (d < 16 ∧ (c = d.digitChar ∨ c = d.digitChar.toUpper)))

theorem toNat_lt_of_digitValue? {c : Char} {d : ℕ} (h : digitValue? c = some d) : c.toNat < 128 := by
  unfold digitValue? at h
  split_ifs at h with hdecimal hlower hupper
  · exact lt_of_le_of_lt (UInt32.le_iff_toNat_le.mp hdecimal.2) (by decide)
  · exact lt_of_le_of_lt (UInt32.le_iff_toNat_le.mp hlower.2) (by decide)
  · exact lt_of_le_of_lt (UInt32.le_iff_toNat_le.mp hupper.2) (by decide)

theorem digitValue?_eq_some_iff {c : Char} {d : ℕ} : digitValue? c = some d ↔ IsDigit d c := by
  constructor
  · intro h
    have hc := toNat_lt_of_digitValue? h
    have hall : ∀ n < 128, ∀ d ∈ digitValue? (Char.ofNat n), IsDigit d (Char.ofNat n) := by
      decide +kernel
    rw [← Char.ofNat_toNat c] at h ⊢
    exact hall c.toNat hc d h
  · rintro ⟨hd, rfl | rfl⟩
    · revert d
      decide +kernel
    · revert d
      decide +kernel

theorem mapM_digitValue?_eq_some_iff {text : List Char} {row : List ℕ} :
    text.mapM digitValue? = some row ↔ List.Forall₂ IsDigit row text := by
  induction text generalizing row with
  | nil => simp [eq_comm]
  | cons c text ih =>
    have hstep : (c :: text).mapM digitValue? = some row ↔
        ∃ d rest, digitValue? c = some d ∧ text.mapM digitValue? = some rest ∧ d :: rest = row := by
      rw [List.mapM_cons]
      simp [Option.bind_eq_some_iff]
    rw [hstep]
    simp only [digitValue?_eq_some_iff, ih]
    constructor
    · rintro ⟨d, rest, hd, hrest, rfl⟩
      exact .cons hd hrest
    · rintro (_ | ⟨hd, hrest⟩)
      exact ⟨_, _, hd, hrest, rfl⟩

theorem digits?_eq_some_iff {text : List Char} {n : ℕ} :
    digits? text = some n ↔ IsMagnitude n text := by
  constructor
  · intro h
    unfold digits? at h
    split_ifs at h with hempty
    obtain ⟨row, hrow, rfl⟩ := Option.map_eq_some_iff.mp h
    rw [Numeral.value_eq_ofDigits]
    exact .digits (fun hnil => hempty (by rw [hnil]; rfl)) (mapM_digitValue?_eq_some_iff.mp hrow)
  · rintro ⟨hne, hrow⟩
    rw [digits?, if_neg (by simpa using hne), mapM_digitValue?_eq_some_iff.mpr hrow, Option.map_some,
      Numeral.value_eq_ofDigits]

/-- A mark is no digit. -/
theorem not_isMagnitude_marked {n : ℕ} {mark : Char} {rest : List Char}
    (hmark : mark = 'x' ∨ mark = 'X') :
    ¬IsMagnitude n ('0' :: mark :: rest) := by
  rintro ⟨-, _ | ⟨-, _ | ⟨hdigit, -⟩⟩⟩
  rw [← digitValue?_eq_some_iff] at hdigit
  rcases hmark with rfl | rfl <;> cases hdigit

theorem magnitude?_eq_some_iff {text : List Char} {n : ℕ} :
    magnitude? text = some n ↔ IsUnsigned n text := by
  unfold magnitude?
  split
  case h_1 rest =>
    rw [digits?_eq_some_iff]
    constructor
    · exact fun h => .marked (.inl rfl) h
    · rintro (h | ⟨-, h⟩)
      · exact absurd h (not_isMagnitude_marked (.inl rfl))
      · exact h
  case h_2 rest =>
    rw [digits?_eq_some_iff]
    constructor
    · exact fun h => .marked (.inr rfl) h
    · rintro (h | ⟨-, h⟩)
      · exact absurd h (not_isMagnitude_marked (.inr rfl))
      · exact h
  case h_3 hlower hupper =>
    rw [digits?_eq_some_iff]
    constructor
    · exact .plain
    · rintro (h | ⟨rfl | rfl, h⟩)
      · exact h
      · exact absurd rfl (hlower _)
      · exact absurd rfl (hupper _)

/-- A sign is no digit. -/
theorem not_isUnsigned_signed {n : ℕ} {rest : List Char} : ¬IsUnsigned n ('-' :: rest) := by
  rintro ⟨-, _ | ⟨hdigit, -⟩⟩
  rw [← digitValue?_eq_some_iff] at hdigit
  cases hdigit

theorem integer?_eq_some_iff {text : List Char} {n : ℤ} :
    integer? text = some n ↔ IsNumeral n text := by
  unfold integer?
  split
  case h_1 rest =>
    rw [Option.map_eq_some_iff]
    constructor
    · rintro ⟨m, hm, rfl⟩
      exact .negative (magnitude?_eq_some_iff.mp hm)
    · rintro (h | h)
      · exact absurd h not_isUnsigned_signed
      · exact ⟨_, magnitude?_eq_some_iff.mpr h, rfl⟩
  case h_2 hsign =>
    rw [Option.map_eq_some_iff]
    constructor
    · rintro ⟨m, hm, rfl⟩
      exact .plain (magnitude?_eq_some_iff.mp hm)
    · rintro (h | h)
      · exact ⟨_, magnitude?_eq_some_iff.mpr h, rfl⟩
      · exact absurd rfl (hsign _)

/-- A text without its blanks. -/
def withoutBlanks (text : String) : List Char :=
  text.toList.filter fun c => !isBlank c

theorem read_eq_ok_iff {text : String} {n : ℤ} :
    read text = .ok n ↔ IsNumeral n (withoutBlanks text) := by
  rw [← integer?_eq_some_iff, withoutBlanks, read]
  cases integer? (text.toList.filter fun c => !isBlank c) with
  | none => simp
  | some m => simp

/-- What is no numeral is refused and shown as it came. -/
theorem read_of_forall_not {text : String} (h : ∀ n, ¬IsNumeral n (withoutBlanks text)) :
    read text = .error (.notHexadecimal (Quoted.ofString text)) := by
  rw [read]
  cases hn : integer? (text.toList.filter fun c => !isBlank c) with
  | none => rfl
  | some n => exact absurd (integer?_eq_some_iff.mp hn) (h n)

/-- The shortest numeral is a numeral. -/
theorem isNumeral_of_isCanonical {n : ℤ} {text : List Char} (h : Numeral.IsCanonical 16 n text) :
    IsNumeral n text := by
  have hmagnitude : ∀ digits, Numeral.IsReduced 16 digits →
      IsMagnitude (Nat.ofDigits 16 digits.reverse) (digits.map Nat.digitChar) := by
    intro digits hdigits
    refine .digits (by simpa using hdigits.ne_nil) ?_
    rw [List.forall₂_map_right_iff, List.forall₂_same]
    exact fun d hd => ⟨hdigits.lt_base d hd, .inl rfl⟩
  cases h with
  | unsigned h => exact .plain (.plain (hmagnitude _ h))
  | negative h hne => exact .negative (.plain (hmagnitude _ h))

theorem withoutBlanks_of_isCanonical {n : ℤ} {text : String}
    (h : Numeral.IsCanonical 16 n text.toList) : withoutBlanks text = text.toList := by
  rw [withoutBlanks, List.filter_eq_self]
  intro c hc
  rcases h.eq_or_exists_digit hc with rfl | ⟨d, hd, rfl⟩
  · rfl
  · rw [isBlank_digitChar hd]
    rfl

theorem isCanonical_toList_iff {n : ℤ} {text : String} :
    Numeral.IsCanonical 16 n text.toList ↔ text = write n := by
  rw [Numeral.isCanonical_iff (by norm_num), write, ← String.toList_inj, String.toList_ofList]

theorem read_write (n : ℤ) : read (write n) = .ok n := by
  have hcanonical : Numeral.IsCanonical 16 n (write n).toList := isCanonical_toList_iff.mpr rfl
  rw [read_eq_ok_iff, withoutBlanks_of_isCanonical hcanonical]
  exact isNumeral_of_isCanonical hcanonical

theorem write_injective : Function.Injective write := by
  intro m n h
  have hread := read_write m
  rw [h, read_write] at hread
  exact (Except.ok.inj hread).symm

/-- Exactly the numerals are read, as what they stand for, and all else is refused. What is written is read
    back, and what was read is written as its shortest numeral, alike exactly for the texts of one integer. -/
theorem read_iff_isNumeral (text : String) :
    (∀ n, read text = .ok n ↔ IsNumeral n (withoutBlanks text)) ∧
    ((∀ n, ¬IsNumeral n (withoutBlanks text)) → ∃ e, read text = .error e ∧
      e.report = (.invalidArgument, "not a hexadecimal string: " ++ Quoted.ofString text)) ∧
    (∀ n, read (write n) = .ok n) ∧
    ∀ n, read text = .ok n →
      (∀ shortest : String,
        Numeral.IsCanonical 16 n shortest.toList ↔ (read text).map write = .ok shortest) ∧
      ∀ other, (read other).map write = (read text).map write ↔ read other = .ok n := by
  refine ⟨fun n => read_eq_ok_iff, fun h => ⟨_, read_of_forall_not h, rfl⟩, read_write, fun n hn => ?_⟩
  rw [hn, Outcome.map_ok]
  refine ⟨fun shortest => ?_, fun other => ?_⟩
  · rw [isCanonical_toList_iff, Except.ok.injEq, eq_comm]
  · rw [Outcome.map_eq_ok_iff]
    constructor
    · rintro ⟨m, hm, hwrite⟩
      rwa [write_injective hwrite] at hm
    · exact fun hother => ⟨n, hother, rfl⟩

/-- Minus 255 with blanks, a mark and digits of both cases, and with zeros. Two signs are refused. -/
theorem read_iff_isNumeral_minus255 :
    (read " -0X\tfF" = .ok (-255) ∧ IsNumeral (-255) (withoutBlanks " -0X\tfF")) ∧
    (Numeral.IsCanonical 16 (-255) "-ff".toList ∧ (read " -0X\tfF").map write = .ok "-ff") ∧
    (read "-00FF" = .ok (-255) ∧ (read "-00FF").map write = (read " -0X\tfF").map write) ∧
    (∀ n, ¬IsNumeral n (withoutBlanks "--1")) ∧
    ∃ e, read "--1" = .error e ∧ e.report = (.invalidArgument, "not a hexadecimal string: '--1'") := by
  obtain ⟨hmarked, -, -, hwritten⟩ := read_iff_isNumeral " -0X\tfF"
  obtain ⟨htwo, hrefused, -⟩ := read_iff_isNumeral "--1"
  have hread : read " -0X\tfF" = .ok (-255) := rfl
  have hzeros : read "-00FF" = .ok (-255) := rfl
  have hwrite : (read " -0X\tfF").map write = .ok "-ff" := by decide +kernel
  have hnone : ∀ n, ¬IsNumeral n (withoutBlanks "--1") := by
    intro n hn
    cases (htwo n).mpr hn
  obtain ⟨hshortest, halike⟩ := hwritten _ hread
  refine ⟨⟨hread, (hmarked _).mp hread⟩, ⟨(hshortest _).mpr hwrite, hwrite⟩,
    ⟨hzeros, (halike _).mpr hzeros⟩, hnone, ?_⟩
  obtain ⟨e, he, hreport⟩ := hrefused hnone
  exact ⟨e, he, hreport.trans (by decide +kernel)⟩

end PrimeOrder.Text.Hexadecimal
