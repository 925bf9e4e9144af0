import PrimeOrder.Integer.Euclid
import PrimeOrder.Integer.Size

namespace PrimeOrder.Integer

/-- The power of a base by repeated squaring, reduced at every step. -/
def powModNat (base exponent modulus : Nat) : Nat :=
  if exponent = 0 then 1 % modulus
  else
    let root := powModNat base (exponent / 2) modulus
    let square := root * root % modulus
    if exponent % 2 = 0 then square else square * base % modulus
termination_by exponent
decreasing_by omega

/-- The power of a base to a non-negative exponent. The bases `0`, `1` and `-1` take an exponent of
    any size, because their powers do not grow; the others take an unsigned machine word. -/
def powExact (base exponent : Int) : Except Error Int :=
  if exponent < 0 then .error .negativeExponent
  else if exponent = 0 then .ok 1
  else if base = 0 ∨ base = 1 then .ok base
  else if base = -1 then .ok (if exponent % 2 = 0 then 1 else -1)
  else if unsignedWordBound ≤ exponent then .error .exponentTooLarge
  else
    let magnitude := Nat.pow base.natAbs exponent.toNat
    .ok (if base < 0 ∧ exponent % 2 = 1 then -(magnitude : Int) else magnitude)

/-- The residue of a power modulo a non-zero `modulus`, with the sign of the modulus. -/
def residuePower (base exponent modulus : Int) : Except Error Int :=
  let size := modulus.natAbs
  let start := (base % modulus).toNat
  if 0 ≤ exponent then
    .ok ((powModNat start exponent.toNat size : Int).fmod modulus)
  else
    match reciprocal? base size with
    | none => .error .baseNotInvertible
    | some inverse => .ok ((powModNat inverse exponent.natAbs size : Int).fmod modulus)

/-- The residue in `[0, modulus)` of a power. A negative exponent needs a base that is invertible
    modulo `modulus`. -/
def powMod (base exponent modulus : Int) : Except Error Int :=
  if modulus ≤ 0 then .error .nonPositiveModulus else residuePower base exponent modulus

end PrimeOrder.Integer
