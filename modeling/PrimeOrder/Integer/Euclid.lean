import PrimeOrder.Error

namespace PrimeOrder.Integer

/-- A common divisor of two integers `a` and `b` and how they combine to it:
    `a * x + b * y = divisor`. -/
structure Bezout where
  divisor : Int
  x : Int
  y : Int
  deriving Repr, DecidableEq

/-- A floor remainder is smaller than the divisor in magnitude, whatever the signs. -/
theorem natAbs_fmod_lt (a : Int) {b : Int} (hb : b ≠ 0) : (a.fmod b).natAbs < b.natAbs := by
  rcases Int.lt_or_gt_of_ne hb with hneg | hpos
  · have hlower := Int.fmod_nonneg_of_pos (-a) (Int.neg_pos_of_neg hneg)
    have hupper := Int.fmod_lt_of_pos (-a) (Int.neg_pos_of_neg hneg)
    rw [Int.neg_fmod_neg] at hlower hupper
    omega
  · have hlower := Int.fmod_nonneg_of_pos a hpos
    have hupper := Int.fmod_lt_of_pos a hpos
    omega

/-- One run of the Euclidean algorithm. The coefficients `(x₀, y₀)` belong to `a` and `(x₁, y₁)` to
    `b`; each step replaces `b` by the remainder of `a` modulo `b`. -/
def xgcdFrom (a b x₀ y₀ x₁ y₁ : Int) : Bezout :=
  if b = 0 then ⟨a, x₀, y₀⟩
  else
    let quotient := a.fdiv b
    xgcdFrom b (a.fmod b) x₁ y₁ (x₀ - quotient * x₁) (y₀ - quotient * y₁)
termination_by b.natAbs
decreasing_by exact natAbs_fmod_lt a ‹_›

/-- The greatest common divisor of two integers with its coefficients. -/
def xgcd (a b : Int) : Bezout :=
  xgcdFrom a b 1 0 0 1

/-- The inverse in `[0, |modulus|)` of a value modulo a non-zero integer, if there is one. -/
def reciprocal? (value modulus : Int) : Option Nat :=
  let size : Int := modulus.natAbs
  let bezout := xgcd (value.fmod size) size
  if bezout.divisor = 1 then some (bezout.x.fmod size).toNat else none

/-- The inverse of `a` in `[0, n)`. -/
def modInverse (a n : Int) : Except Error Int :=
  if n ≤ 0 then .error .nonPositiveModulus
  else
    let bezout := xgcd (a.fmod n) n
    if bezout.divisor = 1 then .ok (bezout.x.fmod n)
    else .error (.noInverse (.integer a) (.integer n) (.integer bezout.divisor))

/-- One summand of a simultaneous solution: it is congruent to the residue modulo its own modulus
    and to zero modulo the others. -/
def congruenceTerm (product : Int) (congruence : Int × Int) : Except Error Int :=
  let cofactor := product.fdiv congruence.2
  match modInverse cofactor congruence.2 with
  | .ok inverse => .ok (congruence.1 * cofactor * inverse)
  | .error (.noInverse ..) => .error .notCoprime
  | .error e => .error e

/-- The sum of the summands of all congruences. -/
def sumCongruences (product : Int) : List (Int × Int) → Except Error Int
  | [] => .ok 0
  | congruence :: rest => do
    let term ← congruenceTerm product congruence
    let sum ← sumCongruences product rest
    pure (term + sum)

/-- The least non-negative integer that is congruent to each residue modulo its modulus. The moduli
    have to be positive and pairwise coprime. -/
def crt (residues moduli : List Int) : Except Error Int :=
  if residues.length ≠ moduli.length then .error .unequalCongruences
  else if moduli.isEmpty then .error .noCongruence
  else if moduli.any fun modulus => decide (modulus ≤ 0) then .error .nonPositiveModuli
  else do
    let product := moduli.foldl (· * ·) 1
    let sum ← sumCongruences product (residues.zip moduli)
    pure (sum.fmod product)

end PrimeOrder.Integer
