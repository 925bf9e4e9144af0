import PrimeOrder.Group.Element
import PrimeOrder.Integer.Primality

namespace PrimeOrder

/-- Whether the modulus is a safe prime and the generator has the order of the subgroup. -/
def ResidueParams.isValid (isPrime : PrimalityTest) (s : ResidueParams) : Bool :=
  s.modulus == 2 * s.order + 1 && decide (7 ≤ s.modulus) && isPrime s.order &&
    isPrime s.modulus && decide (1 < s.generator) && decide (s.generator < s.modulus) &&
    Integer.powModNat s.generator.toNat s.order.toNat s.modulus.toNat == 1

namespace SignedResidues

/-- Whether a number is a residue other than zero and a square. -/
def inSubgroup (s : ResidueParams) (n : Int) : Bool :=
  decide (0 < n) && decide (n < s.modulus) &&
    Integer.powModNat n.toNat s.order.toNat s.modulus.toNat == 1

/-- A number in `[1, p)`, whose power by the order has to be one if that is checked. -/
def generate (s : ResidueParams) (check : Bool) (n : Int) : Except Error Int :=
  if n ≤ 0 ∨ s.modulus ≤ n then .error (.outsideResidues (Engine.signed.number n))
  else if check && Integer.powModNat n.toNat s.order.toNat s.modulus.toNat != 1 then
    .error (.outsideSubgroup (Engine.signed.number n))
  else .ok n

/-- The product of two residues. -/
def mul (s : ResidueParams) (m n : Int) : Int :=
  (m * n).fmod s.modulus

/-- The inverse of a residue. -/
def inverse (s : ResidueParams) (n : Int) : Except Error Int :=
  match Integer.reciprocal? n s.modulus with
  | some reciprocal => .ok reciprocal
  | none => .error .noReciprocal

/-- The power of a residue by a reduced exponent. -/
def power (s : ResidueParams) (n exponent : Int) : Int :=
  Integer.powModNat (n % s.modulus).toNat exponent.toNat s.modulus.toNat

/-- The greatest number of bytes that one element can encode: the marker and the bytes stay below
    the order. -/
def encodingLimit (s : ResidueParams) : Nat :=
  (Integer.bitLength s.order - 9) / 8

/-- The residue that encodes a byte string. Of a number and its negative exactly one is a square. -/
def encode (s : ResidueParams) (data : Octets) : Except Error Int :=
  if encodingLimit s < data.length then .error (.encodingTooLong data.length (encodingLimit s))
  else do
    let n : Int := Octets.value (encodingMarker :: data)
    let symbol ← Integer.jacobi n s.modulus
    pure (if symbol = 1 then n else s.modulus - n)

/-- The byte string that a residue encodes. -/
def decode (s : ResidueParams) (n : Int) : Except Error Octets :=
  let folded := if n ≤ s.order then n else s.modulus - n
  match Octets.ofNat folded.toNat with
  | [] => .error .notEncoded
  | octet :: data => if octet = encodingMarker then .ok data else .error .notEncoded

/-- The bytes of a residue in the width of the modulus. -/
def image (s : ResidueParams) (n : Int) : Except Error Octets :=
  Octets.ofInteger n (Integer.byteLength s.modulus)

end SignedResidues

end PrimeOrder
