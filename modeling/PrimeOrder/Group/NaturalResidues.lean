import PrimeOrder.Group.Element
import PrimeOrder.Integer.Natural
import PrimeOrder.Random.Source

namespace PrimeOrder.NaturalResidues

/-- Whether the modulus is a safe prime and the generator has the order of the subgroup. -/
def isValid (isPrime : PrimalityTest) (s : ResidueParams) : Bool :=
  if s.modulus ≠ 2 * s.order + 1 ∨ s.modulus < 7 then false
  else if !(isPrime s.order && isPrime s.modulus) then false
  else decide (1 < s.generator) && decide (s.generator < s.modulus) &&
    Natural.power s.generator s.order s.modulus == 1

/-- Whether a number is a residue other than zero and a square. -/
def inSubgroup (s : ResidueParams) (n : Int) : Bool :=
  decide (0 < n) && decide (n < s.modulus) && Natural.power n s.order s.modulus == 1

/-- A number in `[1, p)`, which has to be in the subgroup if that is checked. What is asked for is
    held before it is looked at. -/
def generate (s : ResidueParams) (check : Bool) (n : Int) : Except Error Int := do
  let held ← Engine.natural.hold n
  if held ≤ 0 ∨ s.modulus ≤ held then .error (.outsideResidues (Engine.natural.number held))
  else if check && !inSubgroup s held then .error (.outsideSubgroup (Engine.natural.number held))
  else .ok held

/-- The product of two residues. -/
def mul (s : ResidueParams) (m n : Int) : Int :=
  (m * n) % s.modulus

/-- The inverse of a residue. -/
def inverse (s : ResidueParams) (n : Int) : Except Error Int :=
  Natural.inverse n s.modulus

/-- The power of a residue by a reduced exponent. -/
def power (s : ResidueParams) (n exponent : Int) : Int :=
  Natural.power n exponent s.modulus

/-- The greatest number of bytes that one element can encode: the marker and the bytes stay below
    the order. -/
def encodingLimit (s : ResidueParams) : Nat :=
  (Natural.sizeInBits s.order - 9) / 8

/-- The residue that encodes a byte string. Of a number and its negative exactly one is a square. -/
def encode (s : ResidueParams) (data : Octets) : Except Error Int :=
  if encodingLimit s < data.length then .error (.encodingTooLong data.length (encodingLimit s))
  else do
    let n : Int := Octets.value (encodingMarker :: data)
    let symbol ← Natural.jacobi n s.modulus
    pure (if symbol = 1 then n else s.modulus - n)

/-- The byte string that a residue encodes. -/
def decode (s : ResidueParams) (n : Int) : Except Error Octets :=
  let folded := if n ≤ s.order then n else s.modulus - n
  match Natural.toOctets folded.toNat with
  | [] => .error .notEncoded
  | octet :: data => if octet = encodingMarker then .ok data else .error .notEncoded

/-- The bytes of a residue in the width of the modulus. -/
def image (s : ResidueParams) (n : Int) : Except Error Octets :=
  Octets.ofInteger n (Natural.sizeInBytes s.modulus)

section Search

variable {σ : Type} [RandomSource σ]

/-- Draws `count` bytes one by one and gives the number that they stand for behind `high`. -/
def drawOctets (high : Int) (s : σ) : Nat → Except Error (Int × σ)
  | 0 => .ok (high, s)
  | count + 1 => do
    let (octet, next) ← RandomSource.draw 0 255 s
    drawOctets (high * 256 + octet) next count

/-- The number of the upper bits of a drawn byte, put before a number that fills `bits` bits. -/
def drawExtraBits (low : Int) (bits extra : Nat) (s : σ) : Except Error (Int × σ) :=
  if extra = 0 then .ok (low, s)
  else do
    let (octet, next) ← RandomSource.draw 0 255 s
    pure ((octet >>> (8 - extra)) <<< bits + low, next)

/-- Draws an odd number of exactly `bits` bits: as many whole bytes as fit below the highest bit and
    what is missing from one byte more. -/
def drawOdd (bits : Nat) (s : σ) : Except Error (Int × σ) := do
  let count := (bits - 1) / 8
  let (low, after) ← drawOctets 0 s count
  let (drawn, next) ← drawExtraBits low (8 * count) ((bits - 1) % 8) after
  let highest : Int := 1 <<< (bits - 1)
  pure (highest + drawn + (1 - drawn % 2), next)

/-- The parameters of the first safe prime among the odd numbers that a source draws for its half. -/
def search (isPrime : PrimalityTest) (bits : Nat) (s : σ) :
    Nat → Except Error (ResidueParams × σ)
  | 0 => .error (.searchExhausted bits)
  | count + 1 => do
    let (order, next) ← drawOdd (bits - 1) s
    let modulus := 2 * order + 1
    if isPrime order && isPrime modulus then
      pure (⟨modulus, order, 4, "generated-" ++ toString bits⟩, next)
    else search isPrime bits next count

end Search

end PrimeOrder.NaturalResidues
