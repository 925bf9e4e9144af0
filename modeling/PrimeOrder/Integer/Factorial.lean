import PrimeOrder.Integer.Size

namespace PrimeOrder.Integer

/-- Multiplies `product` by `count` consecutive numbers from `factor` on, and gives up at the first
    product that is no machine word. -/
def boundedProduct (product factor : Nat) : Nat → Option Nat
  | 0 => some product
  | count + 1 =>
    let next := product * factor
    if fitsMachineWord next then boundedProduct next (factor + 1) count else none

/-- The factorial of `n` if it is a machine word. -/
def factorial (n : Int) : Except Error Nat :=
  if n < 0 then .error .factorialOfNegative
  else
    match boundedProduct 1 2 (n.toNat - 1) with
    | some product => .ok product
    | none => .error (.factorialTooLarge (.integer n))

/-- The product of the numbers from one to `n`. -/
def factorialNat : Nat → Nat
  | 0 => 1
  | n + 1 => (n + 1) * factorialNat n

/-- The factorial of an unsigned machine word `n`, of any size. -/
def factorialExact (n : Int) : Except Error Nat :=
  if n < 0 then .error .factorialOfNegative
  else if unsignedWordBound ≤ n then .error .doesNotFitWord
  else .ok (factorialNat n.toNat)

end PrimeOrder.Integer
