import Mathlib
import PrimeOrder.Proofs.Window.Growth

namespace PrimeOrder.Window

variable {α M : Type} [CommMonoid M]

/-- Whether rows hold, one window after the other, the powers of a member of the monoid. -/
def HoldWindows (member : α → Prop) (read : α → M) (a : M) (width : ℕ) (rows : List (List α)) : Prop :=
  ∀ i (h : i < rows.length), Law.HoldsPowers member read (a ^ 2 ^ (width * i)) width rows[i]

/-- Whether a table is one of the powers of a member of the monoid. -/
structure Table.Of (member : α → Prop) (read : α → M) (a : M) (width : ℕ) (t : Table α) : Prop where
  width_eq : t.width = width
  rows : HoldWindows member read a width t.rows
  member_pending : member t.pending
  read_pending : read t.pending = a ^ 2 ^ (width * t.rows.length)

namespace HoldWindows

variable {member : α → Prop} {read : α → M} {a : M} {width : ℕ} {row : List α}
  {rows : List (List α)}

theorem head (h : HoldWindows member read a width (row :: rows)) :
    Law.HoldsPowers member read a width row := by
  have hfirst := h 0 (Nat.zero_lt_succ _)
  rwa [Nat.mul_zero, pow_zero, pow_one] at hfirst

/-- After the first window come those of the power by `2 ^ width`. -/
theorem tail (h : HoldWindows member read a width (row :: rows)) :
    HoldWindows member read (a ^ 2 ^ width) width rows := by
  intro i hi
  have hnext := h (i + 1) (Nat.succ_lt_succ hi)
  rwa [Nat.mul_succ, Nat.add_comm, pow_add, pow_mul] at hnext

theorem append (h : HoldWindows member read a width rows)
    (hrow : Law.HoldsPowers member read (a ^ 2 ^ (width * rows.length)) width row) :
    HoldWindows member read a width (rows ++ [row]) := by
  intro i hi
  rcases Nat.lt_or_ge i rows.length with hlt | hge
  · rw [List.getElem_append_left hlt]
    exact h i hlt
  · obtain rfl : i = rows.length := by
      rw [List.length_append, List.length_singleton] at hi
      omega
    rwa [List.getElem_concat_length rfl]

end HoldWindows

namespace Table.Of

variable {L : Law α} {member made : α → Prop} {read : α → M} {a : M} {width : ℕ} {t : Table α}

theorem empty {base : α} (hbase : member base) (width : ℕ) :
    Of member read (read base) width (Table.empty base width) :=
  ⟨rfl, fun _ h => absurd h (Nat.not_lt_zero _), hbase, by simp [Table.empty]⟩

/-- A row can always be added, and what the row after it is built from is its last power times the
    base of the row. -/
theorem addRow (hL : L.Computes member made read) (hwidth : 0 < width)
    (ht : Of member read a width t) :
    ∃ grown, t.addRow L width = (.ok (), grown) ∧ Of member read a width grown ∧
      grown.rows.length = t.rows.length + 1 := by
  obtain ⟨row, hrow, hpowers⟩ := hL.powers_spec ht.member_pending hwidth
  obtain ⟨hlast, hlastRead⟩ := hpowers.getLastD_spec t.pending
  obtain ⟨next, hnext, hmade, hread⟩ := hL.mul_gives _ _ hlast ht.member_pending
  rw [ht.read_pending] at hpowers
  refine ⟨⟨t.width, t.rows ++ [row], next⟩, ?_, ⟨ht.width_eq, ht.rows.append hpowers,
    hL.member_of_made next hmade, ?_⟩, by rw [List.length_append, List.length_singleton]⟩
  · simp only [Table.addRow, hrow, hnext]
  · have hpos : 2 ^ width - 1 + 1 = 2 ^ width := Nat.sub_add_cancel Nat.one_le_two_pow
    rw [hread, hlastRead, ← pow_succ, hpos, ht.read_pending, ← pow_mul, ← pow_add,
      List.length_append, List.length_singleton, Nat.mul_succ]

theorem addRows (hL : L.Computes member made read) (hwidth : 0 < width) (count : ℕ)
    (ht : Of member read a width t) :
    ∃ grown, t.addRows L width count = (.ok (), grown) ∧ Of member read a width grown ∧
      grown.rows.length = t.rows.length + count := by
  induction count generalizing t with
  | zero => exact ⟨t, rfl, ht, rfl⟩
  | succ count ih =>
    obtain ⟨next, hnext, hof, hlength⟩ := ht.addRow hL hwidth
    obtain ⟨grown, hgrown, hgrownOf, hgrownLength⟩ := ih hof
    refine ⟨grown, ?_, hgrownOf, by omega⟩
    simp only [Table.addRows, hnext, hgrown]

end Table.Of

namespace Table

variable {L : Law α} {member made : α → Prop} {read : α → M} {a : M} {width : ℕ}

/-- Going through the rows multiplies by the power by what the exponent has in their windows. -/
theorem mulRows_gives (hL : L.Computes member made read) {rows : List (List α)}
    (hrows : HoldWindows member read a width rows) (exponent : ℕ) {x : α} (hx : made x) :
    Law.Gives made read (mulRows L width exponent x rows)
      (read x * a ^ (exponent % 2 ^ (width * rows.length))) := by
  induction rows generalizing a exponent x with
  | nil => exact ⟨x, rfl, hx, by simp [Nat.mod_one]⟩
  | cons row rest ih =>
    obtain ⟨product, hproduct, hmade, hread⟩ :=
      hL.mulDigit_gives hrows.head (digit_lt width 0 exponent) hx
    have hdigit : digit width 0 exponent = exponent % 2 ^ width := by
      rw [digit_eq, pow_zero, Nat.div_one]
    have hrest : digit (width * rest.length) width exponent =
        (exponent >>> width) % 2 ^ (width * rest.length) := by
      rw [digit_eq, Nat.shiftRight_eq_div_pow]
    rw [mulRows, hproduct, Outcome.ok_bind, List.length_cons, Nat.mul_succ, Nat.add_comm,
      mod_two_pow_add, hrest, pow_add, pow_mul, ← mul_assoc, ← hdigit, ← hread]
    exact ih hrows.tail (exponent >>> width) hmade

/-- For a power a table of a base grows to the rows that the exponent needs, unless it has them, and
    stays one of the base. The power is then what its rows multiply to. -/
theorem Of.exists_grown (hL : L.Computes member made read) (hwidth : 0 < width) {t : Table α}
    (ht : Of member read a width t) {exponent : ℤ} (hexponent : 0 ≤ exponent) :
    ∃ grown, t.power L exponent = (mulRows L width exponent.toNat L.one grown.rows, grown) ∧
      Of member read a width grown ∧ t.rows <+: grown.rows ∧
      grown.rows.length = max t.rows.length (rowsFor width exponent) := by
  obtain ⟨grown, hgrown, hof, hlength⟩ :=
    ht.addRows hL hwidth (rowsFor width exponent - t.rows.length)
  obtain ⟨-, extra, -, hrows⟩ := rows_addRows hgrown
  exact ⟨grown, power_of_addRows hwidth ht.width_eq hexponent hgrown, hof, ⟨extra, hrows.symm⟩,
    by omega⟩

/-- A power by the table of a base is the power of the base, and the table stays one of the base. -/
theorem Of.power (hL : L.Computes member made read) (hwidth : 0 < width) {t : Table α}
    (ht : Of member read a width t) {exponent : ℤ} (hexponent : 0 ≤ exponent) :
    Law.Gives made read (t.power L exponent).1 (a ^ exponent.toNat) ∧
      Of member read a width (t.power L exponent).2 := by
  obtain ⟨grown, hgrown, hof, -, hlength⟩ := ht.exists_grown hL hwidth hexponent
  -- the rows that are there now have all bits of the exponent
  have hreach : rowsFor width exponent ≤ grown.rows.length := by omega
  have hsmall : exponent.toNat < 2 ^ (width * grown.rows.length) :=
    (toNat_lt_two_pow_rowsFor hwidth exponent).trans_le
      (Nat.pow_le_pow_right (by decide) (Nat.mul_le_mul_left width hreach))
  have hpower := mulRows_gives hL hof.rows exponent.toNat hL.made_one
  rw [Nat.mod_eq_of_lt hsmall, hL.read_one, one_mul] at hpower
  rw [hgrown]
  exact ⟨hpower, hof⟩

end Table

end PrimeOrder.Window
