import Mathlib
import PrimeOrder.Text.Numeral

namespace PrimeOrder.Text.Numeral

theorem isLong_eq_true_iff {n : ℤ} : isLong n = true ↔ 10 ^ digitLimit ≤ n.natAbs := by
  rw [isLong, decide_eq_true_eq, ← not_le, Nat.length_toDigits_le_iff (by norm_num) (by decide), not_lt]

/-- The least natural number that is too long. -/
theorem isLong_ten_pow : isLong (10 ^ digitLimit) = true := by
  rw [isLong_eq_true_iff, Int.natAbs_pow, show Int.natAbs 10 = 10 from rfl]

/-- An integer is its magnitude with its sign. -/
theorem signed_natAbs (n : ℤ) : signed (decide (n < 0)) n.natAbs = n := by
  unfold signed
  split
  case isTrue hneg =>
    have := of_decide_eq_true hneg
    omega
  case isFalse hpos =>
    have : ¬n < 0 := fun h => hpos (decide_eq_true h)
    omega

theorem value_singleton (base d : ℕ) : value base [d] = d := by
  simp [value]

/-- The digits of a row, read from the last one on, have its number as their value. -/
theorem value_eq_ofDigits (base : ℕ) (digits : List ℕ) :
    value base digits = Nat.ofDigits base digits.reverse := by
  induction digits using List.reverseRecOn with
  | nil => rfl
  | append_singleton front last ih =>
    rw [value_append_singleton, ih, List.reverse_append, List.reverse_singleton, List.singleton_append,
      Nat.ofDigits_cons]
    ring

/-- Zeros in front of a row do not count. -/
theorem value_replicate_append (base zeros : ℕ) (digits : List ℕ) :
    value base (List.replicate zeros 0 ++ digits) = value base digits := by
  induction digits using List.reverseRecOn with
  | nil =>
    rw [List.append_nil, value_eq_ofDigits, List.reverse_replicate]
    exact Nat.ofDigits_replicate_zero
  | append_singleton front last ih =>
    rw [← List.append_assoc, value_append_singleton, ih, value_append_singleton]

/-- Whether a row has no zero in front that could be left out. -/
structure IsReduced (base : ℕ) (digits : List ℕ) : Prop where
  ne_nil : digits ≠ []
  lt_base : ∀ d ∈ digits, d < base
  eq_of_head : digits.head? = some 0 → digits = [0]

namespace IsReduced

variable {base : ℕ}

theorem singleton {d : ℕ} (hd : d < base) : IsReduced base [d] := by
  constructor
  case ne_nil => exact List.cons_ne_nil d []
  case lt_base => simpa using hd
  case eq_of_head => simp

theorem append_singleton {front : List ℕ} {d : ℕ} (hfront : IsReduced base front) (hne : front ≠ [0])
    (hd : d < base) : IsReduced base (front ++ [d]) := by
  constructor
  case ne_nil => simp
  case lt_base =>
    intro c hc
    rcases List.mem_append.mp hc with hc | hc
    · exact hfront.lt_base c hc
    · rw [List.mem_singleton.mp hc]
      exact hd
  case eq_of_head =>
    intro hhead
    rw [List.head?_append_of_ne_nil _ hfront.ne_nil] at hhead
    exact absurd (hfront.eq_of_head hhead) hne

/-- What is before the last digit of a row is a row, and not that of zero. -/
theorem of_append_singleton {front : List ℕ} {d : ℕ} (h : IsReduced base (front ++ [d]))
    (hne : front ≠ []) : IsReduced base front ∧ front ≠ [0] := by
  have hhead : front.head? ≠ some 0 := by
    intro hzero
    have hlength := congrArg List.length
      (h.eq_of_head ((List.head?_append_of_ne_nil _ hne).trans hzero))
    rw [List.length_append, List.length_singleton, List.length_singleton] at hlength
    exact hne (List.length_eq_zero_iff.mp (by omega))
  refine ⟨⟨hne, fun c hc => h.lt_base c (List.mem_append_left _ hc),
    fun hzero => absurd hzero hhead⟩, ?_⟩
  rintro rfl
  exact hhead rfl

/-- Only the row of zero has the value zero. -/
theorem value_pos {digits : List ℕ} (h : IsReduced base digits) (hne : digits ≠ [0]) :
    0 < value base digits := by
  induction digits using List.reverseRecOn with
  | nil => exact absurd rfl h.ne_nil
  | append_singleton front last ih =>
    have hlast : last < base := h.lt_base last (by simp)
    rw [value_append_singleton]
    by_cases hfront : front = []
    · subst hfront
      have : last ≠ 0 := fun hzero => hne (by rw [hzero]; rfl)
      omega
    · obtain ⟨hreduced, hzero⟩ := h.of_append_singleton hfront
      have := Nat.mul_pos (ih hreduced hzero) (Nat.zero_lt_of_lt hlast)
      omega

/-- The digits of a number are its only row without needless zeros. -/
theorem toDigits_value {digits : List ℕ} (hbase : 1 < base) (h : IsReduced base digits) :
    Nat.toDigits base (value base digits) = digits.map Nat.digitChar := by
  induction digits using List.reverseRecOn with
  | nil => exact absurd rfl h.ne_nil
  | append_singleton front last ih =>
    have hlast : last < base := h.lt_base last (by simp)
    rw [value_append_singleton, List.map_append, List.map_singleton]
    by_cases hfront : front = []
    · subst hfront
      rw [show value base [] = 0 from rfl, zero_mul, zero_add, Nat.toDigits_of_lt_base hlast]
      rfl
    · obtain ⟨hreduced, hzero⟩ := h.of_append_singleton hfront
      rw [mul_comm, ← Nat.toDigits_append_toDigits hbase (hreduced.value_pos hzero) hlast, ih hreduced,
        Nat.toDigits_of_lt_base hlast]

end IsReduced

/-- Every number has a row without needless zeros. -/
theorem exists_isReduced {base : ℕ} (hbase : 1 < base) (n : ℕ) :
    ∃ digits, IsReduced base digits ∧ value base digits = n := by
  induction n using Nat.strong_induction_on with
  | _ n ih =>
    by_cases hsmall : n < base
    · exact ⟨[n], .singleton hsmall, value_singleton base n⟩
    · have hdiv : n / base < n := Nat.div_lt_self (by omega) hbase
      obtain ⟨front, hfront, hvalue⟩ := ih (n / base) hdiv
      have hne : front ≠ [0] := by
        rintro rfl
        have hpos : 0 < n / base := Nat.div_pos (by omega) (by omega)
        rw [← hvalue, value_singleton] at hpos
        exact absurd hpos (lt_irrefl 0)
      refine ⟨front ++ [n % base], hfront.append_singleton hne (Nat.mod_lt n (by omega)), ?_⟩
      rw [value_append_singleton, hvalue, mul_comm]
      exact Nat.div_add_mod n base

theorem exists_toDigits_eq_map {base : ℕ} (hbase : 1 < base) (n : ℕ) :
    ∃ digits, IsReduced base digits ∧ value base digits = n ∧
      Nat.toDigits base n = digits.map Nat.digitChar := by
  obtain ⟨digits, hreduced, rfl⟩ := exists_isReduced hbase n
  exact ⟨digits, hreduced, rfl, hreduced.toDigits_value hbase⟩

/-- Whether a text is the shortest numeral of an integer: digits without needless zeros, the letters among
    them lower-case, after a minus sign if the integer is negative. -/
inductive IsCanonical (base : ℕ) : ℤ → List Char → Prop
  | unsigned {digits : List ℕ} (h : IsReduced base digits) :
    IsCanonical base (Nat.ofDigits base digits.reverse : ℕ) (digits.map Nat.digitChar)
  | negative {digits : List ℕ} (h : IsReduced base digits) (hne : digits ≠ [0]) :
    IsCanonical base (-(Nat.ofDigits base digits.reverse : ℕ)) ('-' :: digits.map Nat.digitChar)

/-- What is written is the one shortest numeral. -/
theorem isCanonical_iff {base : ℕ} (hbase : 1 < base) {n : ℤ} {text : List Char} :
    IsCanonical base n text ↔ text = write base n := by
  constructor
  · intro h
    cases h with
    | unsigned h =>
      rw [← value_eq_ofDigits, write, if_neg (Int.natCast_nonneg _).not_gt, Int.natAbs_natCast,
        h.toDigits_value hbase]
    | negative h hne =>
      have hneg : -(value base _ : ℤ) < 0 := neg_neg_of_pos (Int.natCast_pos.mpr (h.value_pos hne))
      rw [← value_eq_ofDigits, write, if_pos hneg, Int.natAbs_neg, Int.natAbs_natCast,
        h.toDigits_value hbase]
  · rintro rfl
    obtain ⟨digits, hreduced, hvalue, hdigits⟩ := exists_toDigits_eq_map hbase n.natAbs
    rw [write, hdigits]
    split_ifs with hneg
    · have hn : n = -(Nat.ofDigits base digits.reverse) := by
        rw [← value_eq_ofDigits, hvalue]
        omega
      have hne : digits ≠ [0] := by
        rintro rfl
        rw [value_singleton] at hvalue
        omega
      rw [hn]
      exact .negative hreduced hne
    · have hn : n = Nat.ofDigits base digits.reverse := by
        rw [← value_eq_ofDigits, hvalue]
        omega
      rw [hn]
      exact .unsigned hreduced

/-- What is written are digits, and a minus sign at most. -/
theorem IsCanonical.eq_or_exists_digit {base : ℕ} {n : ℤ} {text : List Char} (h : IsCanonical base n text)
    {c : Char} (hc : c ∈ text) : c = '-' ∨ ∃ d < base, c = d.digitChar := by
  have hdigit : ∀ digits, IsReduced base digits → c ∈ digits.map Nat.digitChar →
      ∃ d < base, c = d.digitChar := by
    intro digits hreduced hmem
    obtain ⟨d, hd, rfl⟩ := List.mem_map.mp hmem
    exact ⟨d, hreduced.lt_base d hd, rfl⟩
  cases h with
  | unsigned h => exact .inr (hdigit _ h hc)
  | negative h hne => exact (List.mem_cons.mp hc).imp id (hdigit _ h)

end PrimeOrder.Text.Numeral
