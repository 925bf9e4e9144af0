import PrimeOrder.Integer.Size

namespace PrimeOrder

/-- The state of a generator. -/
structure Generator where
  state : UInt32
  deriving Repr, DecidableEq

namespace Generator

/-- The generator whose state is the seed modulo `2 ^ 32`. -/
def ofSeed (seed : Int) : Generator :=
  ⟨UInt32.ofNat (seed % 0x100000000).toNat⟩

/-- The generator one step later. -/
def step (g : Generator) : Generator :=
  ⟨1664525 * g.state + 1013904223⟩

/-- The sixteen bits that the present state yields. -/
def upperHalf (g : Generator) : Nat :=
  (g.state >>> 16).toNat

/-- Steps `count` times and appends sixteen bits to `acc` after each step. -/
def chunks (acc : Nat) (g : Generator) : Nat → Nat × Generator
  | 0 => (acc, g)
  | count + 1 => chunks (acc <<< 16 ||| g.step.upperHalf) g.step count

/-- A number of `k` random bits; none if `k` is not positive. It takes as many steps as hold `k`
    bits and drops the surplus low bits. -/
def bits (k : Int) (g : Generator) : Nat × Generator :=
  let count := (k.toNat + 15) / 16
  let drawn := chunks 0 g count
  (drawn.1 >>> (16 * count - k.toNat), drawn.2)

/-- A number from `low` to `high`. Sixty-four bits more than the range needs are drawn, so that the
    remainder is nearly uniform. -/
def between (low high : Int) (g : Generator) : Except Error (Int × Generator) :=
  if high < low then .error .emptyDraw
  else
    let size := high - low + 1
    let drawn := bits (Integer.bitLength size + 64) g
    .ok (low + (drawn.1 : Int) % size, drawn.2)

/-- Steps `count` times and lists the upper byte of the state after each step. -/
def octets (g : Generator) : Nat → List UInt8 × Generator
  | 0 => ([], g)
  | count + 1 =>
    let rest := octets g.step count
    (UInt8.ofNat (g.step.upperHalf / 256) :: rest.1, rest.2)

end Generator

end PrimeOrder
