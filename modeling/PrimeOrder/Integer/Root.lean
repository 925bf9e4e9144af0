import PrimeOrder.Error

namespace PrimeOrder.Integer

/-- The floor of a square root and what is left: `n = root * root + remainder` with
    `remainder ≤ 2 * root`. -/
structure FloorRoot where
  root : Nat
  remainder : Nat
  deriving Repr, DecidableEq

/-- The square root of `n`, rounded down, with its remainder. -/
def floorRoot (n : Nat) : FloorRoot :=
  if n = 0 then ⟨0, 0⟩
  else
    let quarter := floorRoot (n / 4)
    let root := 2 * quarter.root
    let remainder := 4 * quarter.remainder + n % 4
    let step := 2 * root + 1
    if step ≤ remainder then ⟨root + 1, remainder - step⟩ else ⟨root, remainder⟩
termination_by n
decreasing_by omega

/-- The root and its remainder make up `n`, and the remainder is too small for a greater root. -/
theorem floorRoot_bounds (n : Nat) :
    n = (floorRoot n).root * (floorRoot n).root + (floorRoot n).remainder ∧
      (floorRoot n).remainder ≤ 2 * (floorRoot n).root := by
  fun_induction floorRoot n with
  | case1 => exact ⟨rfl, Nat.le_refl 0⟩
  | case2 n hn quarter root remainder step hstep ih =>
    obtain ⟨hsum, hsmall⟩ := ih
    have hdiv := Nat.div_add_mod n 4
    have hmod := Nat.mod_lt n (show 0 < 4 by decide)
    refine ⟨?_, by grind⟩
    simp only [root, remainder, step, quarter] at *
    generalize floorRoot (n / 4) = q at *
    grind
  | case3 n hn quarter root remainder step hstep ih =>
    obtain ⟨hsum, hsmall⟩ := ih
    have hdiv := Nat.div_add_mod n 4
    have hmod := Nat.mod_lt n (show 0 < 4 by decide)
    refine ⟨?_, by grind⟩
    simp only [root, remainder, step, quarter] at *
    generalize floorRoot (n / 4) = q at *
    grind

/-- The square root of a non-negative integer, rounded down, with its remainder. -/
def isqrtWithRemainder (x : Int) : Except Error FloorRoot :=
  if x < 0 then .error .rootOfNegative else .ok (floorRoot x.toNat)

/-- The square root of a non-negative integer, rounded down. -/
def isqrt (x : Int) : Except Error Nat :=
  (isqrtWithRemainder x).map FloorRoot.root

end PrimeOrder.Integer
