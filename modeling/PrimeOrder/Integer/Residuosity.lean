import PrimeOrder.Integer.Power

namespace PrimeOrder.Integer

/-- A sign times the Jacobi symbol of `a` over an odd `b`. Factors of two are taken out of `a` by
    the supplementary law, and an odd `a` changes places with `b` by reciprocity. -/
def symbolFrom (a b : Nat) (sign : Int) : Int :=
  if a = 0 then
    if b = 1 then sign else 0
  else if a % 2 = 0 then
    symbolFrom (a / 2) b (if b % 8 = 3 ∨ b % 8 = 5 then -sign else sign)
  else
    symbolFrom (b % a) a (if a % 4 = 3 ∧ b % 4 = 3 then -sign else sign)
termination_by a
decreasing_by
  · omega
  · exact Nat.mod_lt b (by omega)

/-- The Jacobi symbol of a value over an odd positive modulus. -/
def jacobi (value modulus : Int) : Except Error Int :=
  if modulus ≤ 0 ∨ modulus % 2 = 0 then .error .symbolModulus
  else .ok (symbolFrom (value % modulus).toNat modulus.toNat 1)

/-- The two roots of a square, one the negative of the other. Neither is preferred. -/
structure SquareRoots where
  first : Int
  second : Int
  deriving Repr, DecidableEq

/-- The square roots of `a` modulo a prime `p` that is three modulo four. Whether `a` is a square is
    not checked: for a non-square the pair holds the roots of `-a`. -/
def sqrtModPrime (a p : Int) : Except Error SquareRoots :=
  if p.fmod 4 ≠ 3 then .error (.notThreeModFour (.integer p))
  else do
    let root ← residuePower a ((p + 1).fdiv 4) p
    pure ⟨root, (p - root).fmod p⟩

end PrimeOrder.Integer
