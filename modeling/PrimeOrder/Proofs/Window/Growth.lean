import Mathlib
import PrimeOrder.Proofs.Integer.Size
import PrimeOrder.Proofs.Window.Powers
import PrimeOrder.Window.Table

namespace PrimeOrder.Window.Table

variable {α : Type} {L : Law α} {width : ℕ} {t u : Table α}

/-- Rows can be added at once or in two goes. -/
theorem addRows_add {m : ℕ} (h : t.addRows L width m = (.ok (), u)) (n : ℕ) :
    t.addRows L width (m + n) = u.addRows L width n := by
  induction m generalizing t with
  | zero =>
    cases h
    rw [Nat.zero_add]
  | succ m ih =>
    rw [addRows] at h
    rw [Nat.succ_add, addRows]
    generalize t.addRow L width = added at h ⊢
    obtain ⟨outcome, grown⟩ := added
    cases outcome with
    | error e => cases h
    | ok _ => exact ih h

theorem rows_addRow (h : t.addRow L width = (.ok (), u)) :
    u.width = t.width ∧ ∃ row, u.rows = t.rows ++ [row] := by
  unfold addRow at h
  split at h
  · cases h
  · dsimp only at h
    split at h
    · cases h
    · cases h
      exact ⟨rfl, _, rfl⟩

/-- What is added comes after the rows that are there. -/
theorem rows_addRows {n : ℕ} (h : t.addRows L width n = (.ok (), u)) :
    u.width = t.width ∧ ∃ extra, extra.length = n ∧ u.rows = t.rows ++ extra := by
  induction n generalizing t with
  | zero =>
    cases h
    exact ⟨rfl, [], rfl, (List.append_nil _).symm⟩
  | succ n ih =>
    rw [addRows] at h
    generalize hadded : t.addRow L width = added at h
    obtain ⟨outcome, grown⟩ := added
    cases outcome with
    | error e => cases h
    | ok _ =>
      obtain ⟨hwidth, row, hrow⟩ := rows_addRow hadded
      obtain ⟨hwidth', extra, hlength, hrows⟩ := ih h
      refine ⟨hwidth'.trans hwidth, row :: extra, by rw [List.length_cons, hlength], ?_⟩
      rw [hrows, hrow, List.append_assoc, List.singleton_append]

theorem mulRows_zero (rows : List (List α)) (x : α) : mulRows L width 0 x rows = .ok x := by
  induction rows with
  | nil => rfl
  | cons row rest ih =>
    have hdigit : digit width 0 0 = 0 := by rw [digit_eq, Nat.zero_div, Nat.zero_mod]
    rw [mulRows, hdigit, Law.mulDigit, if_pos rfl, Outcome.ok_bind, Nat.zero_shiftRight, ih]

/-- Rows above the bits of the exponent multiply by nothing. -/
theorem mulRows_append {rows : List (List α)} {exponent : ℕ}
    (hexponent : exponent < 2 ^ (width * rows.length)) (extra : List (List α)) (x : α) :
    mulRows L width exponent x (rows ++ extra) = mulRows L width exponent x rows := by
  induction rows generalizing exponent x with
  | nil =>
    obtain rfl : exponent = 0 := Nat.lt_one_iff.mp hexponent
    exact mulRows_zero extra x
  | cons row rest ih =>
    have hrest : exponent >>> width < 2 ^ (width * rest.length) := by
      rw [Nat.shiftRight_eq_div_pow, Nat.div_lt_iff_lt_mul (Nat.two_pow_pos width), ← pow_add]
      rwa [List.length_cons, Nat.mul_succ] at hexponent
    rw [List.cons_append, mulRows, mulRows]
    exact congrArg (L.mulDigit row _ x >>= ·) (funext fun product => ih hrest product)

/-- The number of rows that the digits of an exponent fill. -/
def rowsFor (width : ℕ) (exponent : ℤ) : ℕ :=
  (Integer.bitLength exponent + width - 1) / width

theorem toNat_lt_two_pow_rowsFor (hwidth : 0 < width) (exponent : ℤ) :
    exponent.toNat < 2 ^ (width * rowsFor width exponent) := by
  have hreach := le_windows_mul_width hwidth (Integer.bitLength exponent)
  rw [mul_comm] at hreach
  have hbits : exponent.natAbs < 2 ^ (width * rowsFor width exponent) :=
    Integer.bitLength_le_iff.mp hreach
  omega

theorem power_of_addRows (hwidth : 0 < width) (ht : t.width = width) {exponent : ℤ}
    (hexponent : 0 ≤ exponent)
    (hu : t.addRows L width (rowsFor width exponent - t.rows.length) = (.ok (), u)) :
    t.power L exponent = (mulRows L width exponent.toNat L.one u.rows, u) := by
  have hsigned : ¬ exponent < 0 := by omega
  have hzero : ¬ (width : ℤ) = 0 := by omega
  have hnegative : ¬ (width : ℤ) < 0 := by omega
  rw [rowsFor] at hu
  simp only [Table.power, ht, if_neg hsigned, if_neg hzero, if_neg hnegative, Int.toNat_natCast, hu]

/-- Whether a table is that of a base without rows with some rows added. -/
def GrownFrom (L : Law α) (base : α) (width : ℕ) (t : Table α) : Prop :=
  ∃ count, (empty base width).addRows L width count = (.ok (), t)

variable {base : α}

theorem grownFrom_empty : GrownFrom L base width (empty base width) :=
  ⟨0, rfl⟩

/-- A power by a grown table is the one by a new table, and the table has grown further at most. -/
theorem GrownFrom.power (ht : GrownFrom L base width t) (hwidth : 0 < width)
    (hgrow : ∀ count, ∃ grown, (empty base width).addRows L width count = (.ok (), grown))
    {exponent : ℤ} (hexponent : 0 ≤ exponent) :
    (t.power L exponent).1 = ((empty base width).power L exponent).1 ∧
      GrownFrom L base width (t.power L exponent).2 := by
  obtain ⟨count, hcount⟩ := ht
  obtain ⟨hsame, extra, hlength, hrows⟩ := rows_addRows hcount
  obtain rfl : t.rows = extra := hrows
  obtain ⟨v, hv⟩ := hgrow (rowsFor width exponent)
  obtain ⟨u, hu⟩ := hgrow (count + (rowsFor width exponent - count))
  have hgrown : t.addRows L width (rowsFor width exponent - t.rows.length) = (.ok (), u) := by
    rw [hlength, ← addRows_add hcount, hu]
  -- the grown table has at least the rows that the new one is given
  have hfurther : v.addRows L width (count - rowsFor width exponent) = (.ok (), u) := by
    rw [← addRows_add hv, ← hu]
    congr 1
    omega
  obtain ⟨-, least, hleast, hleastRows⟩ := rows_addRows hv
  obtain rfl : v.rows = least := hleastRows
  obtain ⟨-, extra, -, hextra⟩ := rows_addRows hfurther
  have hsmall := toNat_lt_two_pow_rowsFor hwidth exponent
  rw [← hleast] at hsmall
  rw [power_of_addRows hwidth hsame hexponent hgrown, power_of_addRows hwidth rfl hexponent hv,
    hextra, mulRows_append hsmall]
  exact ⟨rfl, _, hu⟩

end PrimeOrder.Window.Table
