import Mathlib
import PrimeOrder.Proofs.Window.Table

namespace PrimeOrder.Window

variable {α M : Type} [CommMonoid M] {L : Law α} {member made : α → Prop} {read : α → M} {a : M}

namespace Law

/-- A law computes on the elements in normal form alone. -/
theorem Computes.onMade (hL : L.Computes member made read) : L.Computes made made read :=
  ⟨hL.made_one, hL.read_one,
    fun x y hx hy => hL.mul_gives x y (hL.member_of_made x hx) (hL.member_of_made y hy),
    fun _ hx => hx⟩

omit [CommMonoid M] in
/-- Where what they read as tells elements in normal form apart, there is one outcome only for what
    such an element reads as. -/
theorem Gives.eq_ok (hinjective : ∀ x y, made x → made y → read x = read y → x = y)
    {outcome : Except Error α} (houtcome : Gives made read outcome a) {x : α} (hx : made x)
    (hread : read x = a) : outcome = .ok x := by
  obtain ⟨z, rfl, hz, hzread⟩ := houtcome
  rw [hinjective z x hz hx (hzread.trans hread.symm)]

end Law

namespace Table

/-- The table after powers by some exponents, one after the other. -/
def after (L : Law α) (t : Table α) : List ℤ → Table α
  | [] => t
  | k :: rest => after L (t.power L k).2 rest

/-- The number of rows that exponents need: as many as the longest of them fills windows. An exponent
    below zero is refused and needs none. -/
def rowsNeeded (width : ℕ) : List ℤ → ℕ
  | [] => 0
  | k :: rest => max (if k < 0 then 0 else Integer.bitLength k ⌈/⌉ width) (rowsNeeded width rest)

/-- Whether every row of a table has, for each digit of its window, the product of as many copies of a
    base as the digit stands for there, and the product that the next row starts from is pending. -/
structure HoldsCopies (copies : ℕ → Except Error α) (width : ℕ) (t : Table α) : Prop where
  length_row : ∀ i (hi : i < t.rows.length), t.rows[i].length = 2 ^ width
  entry : ∀ i (hi : i < t.rows.length) j (hj : j < t.rows[i].length),
    copies (j * 2 ^ (width * i)) = .ok t.rows[i][j]
  pending : copies (2 ^ (width * t.rows.length)) = .ok t.pending

/-- Whether a table is what powers of a base by some exponents leave behind: it holds copies of the
    base in as many rows as the exponents needed. It gives every power as a product of copies, without
    touching a row that is there, and refuses exponents below zero without touching anything. -/
structure RecordsPowers (L : Law α) (copies : ℕ → Except Error α) (width : ℕ) (exponents : List ℤ)
    (t : Table α) : Prop extends t.HoldsCopies copies width where
  length_rows : t.rows.length = rowsNeeded width exponents
  power_eq_copies : ∀ n : ℕ, (t.power L n).1 = copies n
  keeps_rows : ∀ k : ℤ, t.rows <+: (t.power L k).2.rows
  refuses_negative : ∀ k < 0, ∃ error,
    t.power L k = (.error error, t) ∧ error.report.1 = .invalidArgument

theorem power_of_neg (L : Law α) (t : Table α) {k : ℤ} (hk : k < 0) :
    t.power L k = (.error .unreducedExponent, t) :=
  if_pos hk

theorem rowsFor_eq_ceilDiv (width : ℕ) (k : ℤ) :
    rowsFor width k = Integer.bitLength k ⌈/⌉ width :=
  (Nat.ceilDiv_eq_add_pred_div _ _).symm

variable {width : ℕ} {t : Table α}

/-- A power leaves the rows of the longest exponent so far, and a table of the base. -/
theorem Of.after (hL : L.Computes member made read) (hwidth : 0 < width)
    (ht : t.Of member read a width) (exponents : List ℤ) :
    (t.after L exponents).Of member read a width ∧
      (t.after L exponents).rows.length = max t.rows.length (rowsNeeded width exponents) := by
  induction exponents generalizing t with
  | nil => exact ⟨ht, (Nat.max_zero _).symm⟩
  | cons k rest ih =>
    rw [Table.after, rowsNeeded]
    by_cases hk : k < 0
    · rw [power_of_neg L t hk, if_pos hk, Nat.zero_max]
      exact ih ht
    · obtain ⟨grown, hgrown, hof, -, hlength⟩ := ht.exists_grown hL hwidth (not_lt.mp hk)
      rw [hgrown, if_neg hk, ← rowsFor_eq_ceilDiv, ← max_assoc, ← hlength]
      exact ih hof

/-- The rows of a table of a base are made of products of copies of the base. -/
theorem Of.holdsCopies (hinjective : ∀ x y, made x → made y → read x = read y → x = y)
    (ht : t.Of made read a width) {copies : ℕ → Except Error α}
    (hcopies : ∀ n, Law.Gives made read (copies n) (a ^ n)) : t.HoldsCopies copies width := by
  constructor
  case length_row => exact fun i hi => (ht.rows i hi).length_eq
  case entry =>
    intro i hi j hj
    refine (hcopies _).eq_ok hinjective ((ht.rows i hi).member_getElem j hj) ?_
    rw [(ht.rows i hi).read_getElem j hj, ← pow_mul, mul_comm]
  case pending => exact (hcopies _).eq_ok hinjective ht.member_pending ht.read_pending

/-- However a table of a base in normal form was used, it records the powers of its base. -/
theorem recordsPowers_after (hL : L.Computes member made read)
    (hinjective : ∀ x y, made x → made y → read x = read y → x = y) {base : α} (hbase : made base)
    {copies : ℕ → Except Error α} (hcopies : ∀ n, Law.Gives made read (copies n) (read base ^ n))
    (hwidth : 0 < width) (exponents : List ℤ) :
    ((empty base width).after L exponents).RecordsPowers L copies width exponents := by
  have hempty : (empty base width).Of made read (read base) width := .empty hbase width
  obtain ⟨hof, hlength⟩ := hempty.after hL.onMade hwidth exponents
  constructor
  case toHoldsCopies => exact hof.holdsCopies hinjective hcopies
  case length_rows => exact hlength.trans (Nat.zero_max _)
  case power_eq_copies =>
    intro n
    obtain ⟨⟨z, hz, hmade, hread⟩, -⟩ := hof.power hL.onMade hwidth (Int.natCast_nonneg n)
    rw [hz, (hcopies n).eq_ok hinjective hmade hread]
  case keeps_rows =>
    intro k
    by_cases hk : k < 0
    · rw [power_of_neg L _ hk]
    · obtain ⟨grown, hgrown, -, hrows, -⟩ := hof.exists_grown hL.onMade hwidth (not_lt.mp hk)
      rw [hgrown]
      exact hrows
  case refuses_negative => exact fun k hk => ⟨_, power_of_neg L _ hk, rfl⟩

end Table

end PrimeOrder.Window
