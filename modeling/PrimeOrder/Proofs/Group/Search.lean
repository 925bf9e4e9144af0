import Mathlib
import PrimeOrder.Proofs.Group.Range

namespace PrimeOrder

/-- The number drawn at a place of a row of draws from one range, and the source after it. -/
def RandomSource.drawAt {σ : Type} [RandomSource σ] (low high : ℤ) (s : σ) :
    ℕ → Except Error (ℤ × σ)
  | 0 => draw low high s
  | place + 1 => do
    let (_, next) ← draw low high s
    drawAt low high next place

theorem RandomSource.drawAt_succ {σ : Type} [RandomSource σ] {low high first : ℤ} {s next : σ}
    (h : draw low high s = .ok (first, next)) (place : ℕ) :
    drawAt low high s (place + 1) = drawAt low high next place := by
  rw [drawAt, h]
  rfl

theorem RandomSource.KeepsBounds.drawAt {σ : Type} [RandomSource σ] (hσ : KeepsBounds σ)
    {low high : ℤ} (hrange : low ≤ high) {s next : σ} {place : ℕ} {drawn : ℤ}
    (h : RandomSource.drawAt low high s place = .ok (drawn, next)) : low ≤ drawn ∧ drawn ≤ high := by
  induction place generalizing s with
  | zero => exact hσ _ _ _ _ _ hrange h
  | succ place ih =>
    obtain ⟨⟨first, after⟩, -, hrest⟩ := Outcome.bind_eq_ok_iff.mp h
    exact ih hrest

namespace ResidueParams

/-- The candidate that a drawn number gives: the number itself if it is odd, or the one after it. -/
def candidate (drawn : ℤ) : ℤ :=
  drawn + (1 - drawn % 2)

/-- Whether a candidate is taken for an order. -/
def passes (isPrime : PrimalityTest) (order : ℤ) : Bool :=
  isPrime order && isPrime (2 * order + 1)

theorem passes_of_prime {q : ℕ} (hq : q.Prime) (hp : (2 * q + 1).Prime) :
    passes (fun x => decide x.toNat.Prime) q = true := by
  have hsafe : (2 * (q : ℤ) + 1).toNat = 2 * q + 1 := by omega
  simp only [passes, Bool.and_eq_true, decide_eq_true_eq, Int.toNat_natCast, hsafe]
  exact ⟨hq, hp⟩

/-- The least number that is drawn for a size in bits. -/
def leastDraw (bits : ℕ) : ℤ :=
  2 ^ (bits - 2)

/-- The parameters that are made of a candidate. -/
def ofOrder (bits : ℕ) (order : ℤ) : ResidueParams :=
  ⟨2 * order + 1, order, 4, "generated-" ++ toString bits⟩

/-- Whether parameters and a source are what a search comes to from a source: those of the first
    candidate in the row of draws that passes, and the source after its draw. -/
def IsFirst {σ : Type} [RandomSource σ] (isPrime : PrimalityTest) (bits : ℕ) (s : σ) (place : ℕ)
    (found : ResidueParams × σ) : Prop :=
  (∃ drawn, RandomSource.drawAt (leastDraw bits) (2 * leastDraw bits - 1) s place =
      .ok (drawn, found.2) ∧ passes isPrime (candidate drawn) = true ∧
      found.1 = ofOrder bits (candidate drawn)) ∧
    ∀ earlier < place, ∃ drawn next,
      RandomSource.drawAt (leastDraw bits) (2 * leastDraw bits - 1) s earlier = .ok (drawn, next) ∧
        passes isPrime (candidate drawn) = false

variable {σ : Type} [RandomSource σ] {isPrime : PrimalityTest} {bits : ℕ} {s : σ}

theorem search_succ (isPrime : PrimalityTest) (bits : ℕ) (s : σ) (count : ℕ) :
    search isPrime bits s (count + 1) =
      (RandomSource.draw (leastDraw bits) (2 * leastDraw bits - 1) s >>= fun drawn =>
        if passes isPrime (candidate drawn.1) then .ok (ofOrder bits (candidate drawn.1), drawn.2)
        else search isPrime bits drawn.2 count) := by
  have hleast : ((1 <<< (bits - 2) : ℕ) : ℤ) = leastDraw bits := by
    rw [Nat.shiftLeft_eq, one_mul, Nat.cast_pow, leastDraw]
    rfl
  rw [search, hleast]
  rfl

theorem isFirst_zero_iff {found : ResidueParams × σ} :
    IsFirst isPrime bits s 0 found ↔
      ∃ drawn, RandomSource.draw (leastDraw bits) (2 * leastDraw bits - 1) s =
        .ok (drawn, found.2) ∧ passes isPrime (candidate drawn) = true ∧
        found.1 = ofOrder bits (candidate drawn) :=
  and_iff_left fun _ h => absurd h (Nat.not_lt_zero _)

/-- The first candidate to pass is a later one exactly if that of the first draw fails and it is the
    first from the source after this draw. -/
theorem isFirst_succ_iff {place : ℕ} {found : ResidueParams × σ} :
    IsFirst isPrime bits s (place + 1) found ↔
      ∃ drawn next, RandomSource.draw (leastDraw bits) (2 * leastDraw bits - 1) s =
        .ok (drawn, next) ∧ passes isPrime (candidate drawn) = false ∧
        IsFirst isPrime bits next place found := by
  constructor
  · rintro ⟨hpasses, hearlier⟩
    obtain ⟨drawn, next, hdraw, hfails⟩ := hearlier 0 (Nat.succ_pos _)
    have hlater := RandomSource.drawAt_succ hdraw
    refine ⟨drawn, next, hdraw, hfails, ?_, fun earlier hlt => ?_⟩
    · simpa only [hlater] using hpasses
    · simpa only [hlater] using hearlier (earlier + 1) (by omega)
  · rintro ⟨drawn, next, hdraw, hfails, hpasses, hearlier⟩
    have hlater := RandomSource.drawAt_succ hdraw
    refine ⟨by simpa only [hlater] using hpasses, ?_⟩
    rintro (_ | earlier) hlt
    · exact ⟨drawn, next, hdraw, hfails⟩
    · simpa only [hlater] using hearlier earlier (by omega)

/-- A search finds what belongs to the first candidate that passes, if it comes to one at all. -/
theorem search_eq_ok_iff {count : ℕ} {found : ResidueParams × σ} :
    search isPrime bits s count = .ok found ↔
      ∃ place < count, IsFirst isPrime bits s place found := by
  induction count generalizing s with
  | zero =>
    constructor
    · intro h
      cases h
    · rintro ⟨_, h, -⟩
      exact absurd h (Nat.not_lt_zero _)
  | succ count ih =>
    rw [search_succ, Outcome.bind_eq_ok_iff, Nat.exists_lt_succ_left]
    constructor
    · rintro ⟨⟨drawn, next⟩, hdraw, hfound⟩
      dsimp only at hfound
      split_ifs at hfound with hpass
      · cases hfound
        exact .inl (isFirst_zero_iff.mpr ⟨drawn, hdraw, hpass, rfl⟩)
      · obtain ⟨place, hplace, hfirst⟩ := ih.mp hfound
        have hfails := Bool.eq_false_of_not_eq_true hpass
        exact .inr ⟨place, hplace, isFirst_succ_iff.mpr ⟨drawn, next, hdraw, hfails, hfirst⟩⟩
    · rintro (hzero | ⟨place, hplace, hsucc⟩)
      · obtain ⟨drawn, hdraw, hpass, heq⟩ := isFirst_zero_iff.mp hzero
        exact ⟨_, hdraw, by rw [if_pos hpass, ← heq]⟩
      · obtain ⟨drawn, next, hdraw, hfails, hfirst⟩ := isFirst_succ_iff.mp hsucc
        refine ⟨(drawn, next), hdraw, ?_⟩
        rw [hfails, if_neg Bool.false_ne_true]
        exact ih.mpr ⟨place, hplace, hfirst⟩

/-- What is found for a size: parameters of exactly that size that pass the validation. -/
structure IsGenerated (isPrime : PrimalityTest) (bits : ℕ) (s : ResidueParams) : Prop where
  modulus_eq : s.modulus = 2 * s.order + 1
  generator_eq : s.generator = 4
  order_odd : s.order % 2 = 1
  modulus_bits : Integer.bitLength s.modulus = bits
  order_bits : Integer.bitLength s.order = bits - 1
  isValid : s.isValid isPrime = true

/-- Four is a square, so its power by half of what comes before a prime is one. -/
theorem four_pow_eq_one {p q : ℕ} (hp : p.Prime) (hsafe : p = 2 * q + 1) (hq : 0 < q) :
    ((4 : ℤ) : ZMod p) ^ q = 1 := by
  have : Fact p.Prime := ⟨hp⟩
  have htwo : (2 : ZMod p) ≠ 0 := by
    apply Ring.two_ne_zero
    rw [ZMod.ringChar_zmod_n]
    omega
  calc ((4 : ℤ) : ZMod p) ^ q = 2 ^ (p - 1) := by
        rw [show p - 1 = 2 * q by omega, pow_mul]
        norm_num
    _ = 1 := ZMod.pow_card_sub_one_eq_one htwo

theorem isValid_ofOrder (hprime : isPrime.IsSound) {order : ℤ} (hthree : 3 ≤ order)
    (hpass : passes isPrime order = true) : (ofOrder bits order).isValid isPrime = true := by
  rw [passes, Bool.and_eq_true] at hpass
  have hp := hprime _ hpass.2
  have hsafe : (2 * order + 1).toNat = 2 * order.toNat + 1 := by omega
  have hpow := (powModNat_eq_one_iff (by norm_num) hp.one_lt).mpr
    (four_pow_eq_one hp hsafe (by omega))
  simp only [isValid, ofOrder, beq_self_eq_true, Bool.true_and, Bool.and_eq_true]
  exact ⟨⟨⟨⟨⟨decide_eq_true (by omega), hpass.1⟩, hpass.2⟩, rfl⟩, decide_eq_true (by omega)⟩,
    beq_iff_eq.mpr hpow⟩

/-- The range of the draws is that of the orders with one bit less than the size, and a draw that is
    made odd stays in it. -/
theorem candidate_bounds {drawn : ℤ} (hlow : leastDraw bits ≤ drawn)
    (hhigh : drawn ≤ 2 * leastDraw bits - 1) :
    candidate drawn % 2 = 1 ∧ leastDraw bits ≤ candidate drawn ∧
      candidate drawn ≤ 2 * leastDraw bits - 1 := by
  unfold candidate
  omega

theorem isGenerated_ofOrder (hprime : isPrime.IsSound) {n : ℕ} {order : ℤ}
    (hodd : order % 2 = 1) (hlow : leastDraw (n + 4) ≤ order)
    (hhigh : order ≤ 2 * leastDraw (n + 4) - 1) (hpass : passes isPrime order = true) :
    (ofOrder (n + 4) order).IsGenerated isPrime (n + 4) := by
  have hleast : leastDraw (n + 4) = 4 * ((2 ^ n : ℕ) : ℤ) := by
    rw [leastDraw, show n + 4 - 2 = n + 2 by omega, pow_add]
    push_cast
    ring
  have hpos : 0 < 2 ^ n := by positivity
  rw [hleast] at hlow hhigh
  constructor
  case modulus_eq => rfl
  case generator_eq => rfl
  case order_odd => exact hodd
  case modulus_bits =>
    refine Integer.bitLength_eq_succ_iff.mpr ?_
    simp only [ofOrder, pow_succ]
    omega
  case order_bits =>
    refine Integer.bitLength_eq_succ_iff.mpr ?_
    simp only [ofOrder, pow_succ]
    omega
  case isValid => exact isValid_ofOrder hprime (by omega) hpass

/-- Whatever a search finds is the first that passes, has the size that was asked for and is valid. -/
theorem isGenerated_of_search (hprime : isPrime.IsSound) (hσ : RandomSource.KeepsBounds σ)
    (hbits : 4 ≤ bits) {count : ℕ} {found : ResidueParams × σ}
    (hfound : search isPrime bits s count = .ok found) :
    found.1.IsGenerated isPrime bits ∧ ∃ place < count, IsFirst isPrime bits s place found := by
  obtain ⟨place, hplace, hfirst⟩ := search_eq_ok_iff.mp hfound
  refine ⟨?_, place, hplace, hfirst⟩
  obtain ⟨n, rfl⟩ := Nat.exists_eq_add_of_le' hbits
  obtain ⟨⟨drawn, hdraw, hpass, heq⟩, -⟩ := hfirst
  have hpos : (0 : ℤ) < leastDraw (n + 4) := by
    rw [leastDraw]
    positivity
  obtain ⟨hlow, hhigh⟩ := hσ.drawAt (by omega) hdraw
  obtain ⟨hodd, hlow', hhigh'⟩ := candidate_bounds hlow hhigh
  rw [heq]
  exact isGenerated_ofOrder hprime hodd hlow' hhigh' hpass

end ResidueParams

end PrimeOrder
