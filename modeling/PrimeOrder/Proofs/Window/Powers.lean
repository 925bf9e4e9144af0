import Mathlib
import PrimeOrder.Proofs.Outcome
import PrimeOrder.Window.Powers

namespace PrimeOrder.Window

/-- A digit is the remainder of what is left of the exponent above the start of its window. -/
theorem digit_eq (width shift exponent : ℕ) :
    digit width shift exponent = exponent / 2 ^ shift % 2 ^ width := by
  rw [digit, Nat.shiftRight_eq_div_pow, Nat.one_shiftLeft]

theorem digit_lt (width shift exponent : ℕ) : digit width shift exponent < 2 ^ width := by
  rw [digit_eq]
  exact Nat.mod_lt _ (Nat.two_pow_pos width)

/-- The lowest bits of an exponent are its digit in the last window and the bits below. -/
theorem mod_two_pow_add (exponent shift width : ℕ) :
    exponent % 2 ^ (shift + width) =
      exponent % 2 ^ shift + 2 ^ shift * digit width shift exponent := by
  rw [digit_eq, pow_add, Nat.mod_mul]

theorem widthFor_pos (bits : ℤ) : 0 < widthFor bits := by
  unfold widthFor
  split_ifs <;> decide

/-- As many windows as are used for a number of bits have that many bits. -/
theorem le_windows_mul_width {width : ℕ} (hwidth : 0 < width) (bits : ℕ) :
    bits ≤ (bits + width - 1) / width * width := by
  rw [← Nat.ceilDiv_eq_add_pred_div, mul_comm]
  exact le_smul_ceilDiv hwidth

namespace Law

variable {α M : Type} [CommMonoid M]

/-- Whether an operation gives an element in normal form that reads as a member of the monoid. -/
def Gives (made : α → Prop) (read : α → M) (outcome : Except Error α) (m : M) : Prop :=
  ∃ z, outcome = .ok z ∧ made z ∧ read z = m

/-- Whether a law multiplies the elements of some set as a commutative monoid multiplies what they
    read as, with products in normal form. -/
structure Computes (L : Law α) (member made : α → Prop) (read : α → M) : Prop where
  made_one : made L.one
  read_one : read L.one = 1
  mul_gives : ∀ x y, member x → member y → Gives made read (L.mul x y) (read x * read y)
  member_of_made : ∀ x, made x → member x

/-- Whether a row has, for every digit of a window, a member that reads as the power by the digit. -/
structure HoldsPowers (member : α → Prop) (read : α → M) (a : M) (width : ℕ) (row : List α) :
    Prop where
  length_eq : row.length = 2 ^ width
  member_getElem : ∀ i (h : i < row.length), member row[i]
  read_getElem : ∀ i (h : i < row.length), read row[i] = a ^ i

namespace HoldsPowers

variable {member : α → Prop} {read : α → M} {a : M} {width : ℕ} {row : List α}

theorem getD_spec (hrow : HoldsPowers member read a width row) {d : ℕ} (hd : d < 2 ^ width)
    (default : α) : member (row.getD d default) ∧ read (row.getD d default) = a ^ d := by
  have hlt : d < row.length := by rwa [hrow.length_eq]
  rw [List.getD_eq_getElem row default hlt]
  exact ⟨hrow.member_getElem d hlt, hrow.read_getElem d hlt⟩

theorem getLastD_spec (hrow : HoldsPowers member read a width row) (default : α) :
    member (row.getLastD default) ∧ read (row.getLastD default) = a ^ (2 ^ width - 1) := by
  have hpos : 0 < row.length := by
    rw [hrow.length_eq]
    exact Nat.two_pow_pos width
  have hne : row ≠ [] := List.ne_nil_of_length_pos hpos
  rw [List.getLastD_eq_getLast?, List.getLast?_eq_some_getLast hne, Option.getD_some,
    List.getLast_eq_getElem]
  refine ⟨hrow.member_getElem _ _, ?_⟩
  rw [hrow.read_getElem, hrow.length_eq]

end HoldsPowers

namespace Computes

variable {L : Law α} {member made : α → Prop} {read : α → M}

/-- The products after an element read as that element times the powers of the base. -/
theorem continuePowers_spec (hL : L.Computes member made read) {base last : α} (hbase : member base)
    (hlast : member last) (count : ℕ) :
    ∃ rest, L.continuePowers base last count = .ok rest ∧ rest.length = count ∧
      ∀ i (h : i < rest.length), member rest[i] ∧ read rest[i] = read last * read base ^ (i + 1) := by
  induction count generalizing last with
  | zero => exact ⟨[], rfl, rfl, fun i h => absurd h (Nat.not_lt_zero i)⟩
  | succ count ih =>
    obtain ⟨next, hnext, hmade, hread⟩ := hL.mul_gives _ _ hlast hbase
    obtain ⟨rest, hrest, hlength, hentries⟩ := ih (hL.member_of_made next hmade)
    refine ⟨next :: rest, ?_, by rw [List.length_cons, hlength], ?_⟩
    · rw [continuePowers, hnext, Outcome.ok_bind, hrest]
      rfl
    · intro i h
      cases i with
      | zero =>
        refine ⟨hL.member_of_made next hmade, ?_⟩
        rw [List.getElem_cons_zero, hread, zero_add, pow_one]
      | succ i =>
        obtain ⟨hmember, hentry⟩ := hentries i (Nat.lt_of_succ_lt_succ h)
        refine ⟨hmember, ?_⟩
        rw [List.getElem_cons_succ, hentry, hread, mul_assoc, ← pow_succ']

theorem powers_spec (hL : L.Computes member made read) {base : α} (hbase : member base) {width : ℕ}
    (hwidth : 0 < width) :
    ∃ row, L.powers base width = .ok row ∧ HoldsPowers member read (read base) width row := by
  obtain ⟨rest, hrest, hlength, hentries⟩ :=
    hL.continuePowers_spec hbase hbase (1 <<< width - 2)
  refine ⟨L.one :: base :: rest, by rw [powers, hrest]; rfl, ?_, ?_, ?_⟩
  · have htwo : 2 ^ 1 ≤ 2 ^ width := Nat.pow_le_pow_right (by decide) hwidth
    rw [List.length_cons, List.length_cons, hlength, Nat.one_shiftLeft]
    omega
  · intro i h
    match i with
    | 0 => exact hL.member_of_made _ hL.made_one
    | 1 => exact hbase
    | i + 2 => exact (hentries i (by simpa using h)).1
  · intro i h
    match i with
    | 0 => rw [List.getElem_cons_zero, hL.read_one, pow_zero]
    | 1 => exact (pow_one _).symm
    | i + 2 =>
      rw [List.getElem_cons_succ, List.getElem_cons_succ, (hentries i (by simpa using h)).2,
        ← pow_succ']

/-- Looking a digit up multiplies by the power that belongs to it, also by that of zero. -/
theorem mulDigit_gives (hL : L.Computes member made read) {a : M} {width : ℕ} {row : List α}
    (hrow : HoldsPowers member read a width row) {d : ℕ} (hd : d < 2 ^ width) {x : α} (hx : made x) :
    Gives made read (L.mulDigit row d x) (read x * a ^ d) := by
  obtain ⟨hmember, hread⟩ := hrow.getD_spec hd L.one
  unfold mulDigit
  by_cases hzero : d = 0
  · rw [if_pos hzero, hzero, pow_zero, mul_one]
    exact ⟨x, rfl, hx, rfl⟩
  · rw [if_neg hzero, ← hread]
    exact hL.mul_gives x _ (hL.member_of_made x hx) hmember

end Computes

end Law

end PrimeOrder.Window
