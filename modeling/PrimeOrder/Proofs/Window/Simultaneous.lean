import Mathlib
import PrimeOrder.Proofs.Integer.Size
import PrimeOrder.Proofs.Window.Powers
import PrimeOrder.Window.Simultaneous

namespace PrimeOrder.Window.Law

variable {α M : Type} [CommMonoid M]

/-- Whether a product so far stands for a value. Where there is none yet it stands for one. -/
def StandsFor (made : α → Prop) (read : α → M) : Option α → M → Prop
  | none, m => m = 1
  | some x, m => made x ∧ read x = m

/-- Whether a row beside an exponent belongs to a base beside the same exponent. -/
def RowOf (member : α → Prop) (read : α → M) (width : ℕ) (row : List α × ℕ) (term : α × ℕ) : Prop :=
  row.2 = term.2 ∧ HoldsPowers member read (read term.1) width row.1

namespace Computes

variable {L : Law α} {member made : α → Prop} {read : α → M}

/-- A product so far is taken for the neutral element where there is none yet. -/
theorem getD_one (hL : L.Computes member made read) {x : Option α} {m : M}
    (hx : StandsFor made read x m) : made (x.getD L.one) ∧ read (x.getD L.one) = m := by
  cases x with
  | none =>
    obtain rfl : m = 1 := hx
    exact ⟨hL.made_one, hL.read_one⟩
  | some x => exact hx

theorem square_gives (hL : L.Computes member made read) {x : α} (hx : made x) (count : ℕ) :
    Gives made read (L.square x count) (read x ^ 2 ^ count) := by
  induction count generalizing x with
  | zero => exact ⟨x, rfl, hx, by rw [pow_zero, pow_one]⟩
  | succ count ih =>
    have hmember := hL.member_of_made x hx
    obtain ⟨squared, hsquared, hmade, hread⟩ := hL.mul_gives x x hmember hmember
    rw [square, hsquared, Outcome.ok_bind, pow_succ', pow_mul, pow_two, ← hread]
    exact ih hmade

/-- Squaring once for each bit of a window raises to the power `2 ^ width`, also where there is
    nothing to square yet. -/
theorem shift_spec (hL : L.Computes member made read) (width : ℕ) {x : Option α} {m : M}
    (hx : StandsFor made read x m) :
    ∃ y, L.shift width x = .ok y ∧ StandsFor made read y (m ^ 2 ^ width) := by
  cases x with
  | none =>
    obtain rfl : m = 1 := hx
    exact ⟨none, rfl, one_pow _⟩
  | some x =>
    obtain ⟨hmade, rfl⟩ := hx
    obtain ⟨squared, hsquared, hstands⟩ := hL.square_gives hmade width
    exact ⟨some squared, by rw [shift, hsquared]; rfl, hstands⟩

theorem rowsOf_spec (hL : L.Computes member made read) {width : ℕ} (hwidth : 0 < width)
    {terms : List (α × ℕ)} (hterms : ∀ term ∈ terms, member term.1) :
    ∃ rows, L.rowsOf width terms = .ok rows ∧ rows.Forall₂ (RowOf member read width) terms := by
  induction terms with
  | nil => exact ⟨[], rfl, .nil⟩
  | cons term terms ih =>
    obtain ⟨rows, hrows, hholds⟩ := ih fun t ht => hterms t (List.mem_cons_of_mem term ht)
    obtain ⟨row, hrow, hpowers⟩ := hL.powers_spec (hterms term List.mem_cons_self) hwidth
    refine ⟨(row, term.2) :: rows, ?_, .cons ⟨rfl, hpowers⟩ hholds⟩
    rw [rowsOf, hrow, Outcome.ok_bind, hrows]
    rfl

/-- One window multiplies by the powers of all bases by their digits in it. -/
theorem mulDigits_spec (hL : L.Computes member made read) {width : ℕ} (start : ℕ)
    {rows : List (List α × ℕ)} {terms : List (α × ℕ)}
    (hrows : rows.Forall₂ (RowOf member read width) terms) {x : Option α} {m : M}
    (hx : StandsFor made read x m) :
    ∃ y, L.mulDigits width start x rows = .ok y ∧ StandsFor made read y
      (m * (terms.map fun term => read term.1 ^ digit width start term.2).prod) := by
  induction hrows generalizing x m with
  | nil => exact ⟨x, rfl, by rwa [List.map_nil, List.prod_nil, mul_one]⟩
  | @cons row term rows terms hrow _ ih =>
    obtain ⟨hexponent, hpowers⟩ := hrow
    obtain ⟨hmember, hread⟩ := hpowers.getD_spec (digit_lt width start term.2) L.one
    rw [mulDigits, hexponent, List.map_cons, List.prod_cons, ← mul_assoc]
    by_cases hzero : digit width start term.2 = 0
    · rw [if_pos hzero, hzero, pow_zero, mul_one]
      exact ih hx
    · obtain ⟨hmade, hvalue⟩ := hL.getD_one hx
      obtain ⟨product, hproduct, hstands⟩ :=
        hL.mul_gives _ _ (hL.member_of_made _ hmade) hmember
      rw [if_neg hzero, hproduct, Outcome.ok_bind]
      rw [hvalue, hread] at hstands
      exact ih hstands

/-- Going through the lowest windows raises the value so far to the power of two with as many bits,
    and multiplies it by the powers by what the exponents have in these windows. -/
theorem descend_gives (hL : L.Computes member made read) {width : ℕ}
    {rows : List (List α × ℕ)} {terms : List (α × ℕ)}
    (hrows : rows.Forall₂ (RowOf member read width) terms) (count : ℕ) {x : Option α} {m : M}
    (hx : StandsFor made read x m) :
    Gives made read (L.descend width rows x count)
      (m ^ 2 ^ (count * width) *
        (terms.map fun term => read term.1 ^ (term.2 % 2 ^ (count * width))).prod) := by
  induction count generalizing x m with
  | zero =>
    have hvalue := hL.getD_one hx
    exact ⟨_, rfl, hvalue.1, by simp [hvalue.2, Nat.mod_one]⟩
  | succ count ih =>
    obtain ⟨y, hy, hyvalue⟩ := hL.shift_spec width hx
    obtain ⟨z, hz, hzvalue⟩ := hL.mulDigits_spec (count * width) hrows hyvalue
    have hsplit : ∀ term : α × ℕ, read term.1 ^ (term.2 % 2 ^ ((count + 1) * width)) =
        (read term.1 ^ digit width (count * width) term.2) ^ 2 ^ (count * width) *
          read term.1 ^ (term.2 % 2 ^ (count * width)) := by
      intro term
      rw [add_one_mul, mod_two_pow_add, pow_add, mul_comm, pow_mul']
    have hpow : m ^ 2 ^ ((count + 1) * width) = (m ^ 2 ^ width) ^ 2 ^ (count * width) := by
      rw [← pow_mul, ← pow_add, add_one_mul, add_comm]
    -- the power by `2 ^ (count * width)` of the digits of this window is the power of their product
    have hproduct := List.prod_map_hom terms
      (fun term => read term.1 ^ digit width (count * width) term.2)
      (powMonoidHom (2 ^ (count * width)))
    simp only [Function.comp_def, powMonoidHom_apply] at hproduct
    rw [descend, hy, Outcome.ok_bind, hz, Outcome.ok_bind]
    simp only [hsplit]
    rw [List.prod_map_mul, hproduct, hpow, ← mul_assoc, ← mul_pow]
    exact ih hzvalue

end Computes

theorem le_foldl_max (lengths : α × ℕ → ℕ) (terms : List (α × ℕ)) (least : ℕ) :
    least ≤ terms.foldl (fun acc term => Nat.max acc (lengths term)) least ∧
      ∀ term ∈ terms,
        lengths term ≤ terms.foldl (fun acc term => Nat.max acc (lengths term)) least := by
  induction terms generalizing least with
  | nil => exact ⟨le_rfl, fun _ h => absurd h List.not_mem_nil⟩
  | cons first rest ih =>
    obtain ⟨hleast, hrest⟩ := ih (Nat.max least (lengths first))
    refine ⟨(Nat.le_max_left _ _).trans hleast, fun term hterm => ?_⟩
    rcases List.mem_cons.mp hterm with rfl | hterm
    · exact (Nat.le_max_right _ _).trans hleast
    · exact hrest term hterm

theorem lt_two_pow_greatestLength {terms : List (α × ℕ)} {term : α × ℕ} (hterm : term ∈ terms) :
    term.2 < 2 ^ greatestLength terms := by
  have hlength : Integer.bitLength term.2 ≤ greatestLength terms :=
    (le_foldl_max (fun term => Integer.bitLength term.2) terms 0).2 term hterm
  rwa [Integer.bitLength_le_iff, Int.natAbs_natCast] at hlength

theorem Computes.productOfPowers_gives {L : Law α} {member made : α → Prop} {read : α → M}
    (hL : L.Computes member made read) {terms : List (α × ℕ)}
    (hterms : ∀ term ∈ terms, member term.1) :
    Gives made read (L.productOfPowers terms) (terms.map fun term => read term.1 ^ term.2).prod := by
  unfold productOfPowers
  by_cases hzero : greatestLength terms = 0
  · have hprod : (terms.map fun term => read term.1 ^ term.2).prod = 1 := by
      refine List.prod_eq_one fun m hm => ?_
      obtain ⟨term, hterm, rfl⟩ := List.mem_map.mp hm
      have hexponent := lt_two_pow_greatestLength hterm
      rw [hzero, pow_zero, Nat.lt_one_iff] at hexponent
      rw [hexponent, pow_zero]
    rw [if_pos hzero, hprod]
    exact ⟨_, rfl, hL.made_one, hL.read_one⟩
  · have hwidth := widthFor_pos (greatestLength terms)
    obtain ⟨rows, hrows, hholds⟩ := hL.rowsOf_spec hwidth hterms
    have hstart : StandsFor made read none (1 : M) := rfl
    have hdescend := hL.descend_gives hholds ((greatestLength terms +
      widthFor (greatestLength terms) - 1) / widthFor (greatestLength terms)) hstart
    -- the windows reach beyond the greatest exponent
    have hreach := le_windows_mul_width hwidth (greatestLength terms)
    have hpowers : (terms.map fun term => read term.1 ^ (term.2 % 2 ^
        ((greatestLength terms + widthFor (greatestLength terms) - 1) /
          widthFor (greatestLength terms) * widthFor (greatestLength terms)))) =
        terms.map fun term => read term.1 ^ term.2 :=
      List.map_congr_left fun term hterm => by
        rw [Nat.mod_eq_of_lt
          ((lt_two_pow_greatestLength hterm).trans_le (Nat.pow_le_pow_right (by decide) hreach))]
    rw [hpowers, one_pow, one_mul] at hdescend
    simp only [if_neg hzero, hrows, Outcome.ok_bind]
    exact hdescend

end PrimeOrder.Window.Law
