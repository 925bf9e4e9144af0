import PrimeOrder.Error

namespace PrimeOrder.Integer

/-- The number of bits of `|x|`; zero has none. -/
def bitLength (x : Int) : Nat :=
  if x = 0 then 0 else x.natAbs.log2 + 1

/-- The number of bytes that hold `|x|`. -/
def byteLength (x : Int) : Nat :=
  (bitLength x + 7) / 8

/-- The exponent of the greatest power of two that is at most `n`. -/
def log2Floor (n : Int) : Except Error Nat :=
  if n ≤ 0 then .error .logarithmOfNonPositive else .ok (bitLength n - 1)

/-- Whether the bit of `|x|` at an index, counted from the least significant one, is set. -/
def testBit (x index : Int) : Except Error Bool :=
  if index < 0 then .error .negativeBitIndex else .ok (x.natAbs.testBit index.toNat)

/-- The number of values of a machine word with the sign bit clear. -/
def machineWordBound : Int := 0x8000000000000000

/-- The number of values of a machine word without a sign. -/
def unsignedWordBound : Int := 0x10000000000000000

/-- Whether `x` is a signed 64-bit integer. -/
def fitsMachineWord (x : Int) : Bool :=
  decide (-machineWordBound ≤ x) && decide (x < machineWordBound)

end PrimeOrder.Integer
