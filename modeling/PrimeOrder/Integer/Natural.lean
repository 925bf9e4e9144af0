import PrimeOrder.Integer.Primality
import PrimeOrder.Octets.Basic

namespace PrimeOrder.Natural

/-- The number of times that a number can be halved before it is zero. -/
def halvings (n : Nat) : Nat :=
  if n = 0 then 0 else halvings (n / 2) + 1
termination_by n
decreasing_by omega

/-- The number of bits that a number is written in. Zero takes one. -/
def sizeInBits (n : Int) : Nat :=
  if n = 0 then 1 else halvings n.natAbs

/-- The number of bytes that a number is written in. Zero takes one. -/
def sizeInBytes (n : Int) : Nat :=
  (sizeInBits n - 1) / 8 + 1

/-- The four bytes of a word. -/
def wordOctets (n : Nat) : Octets :=
  [UInt8.ofNat (n / 0x1000000), UInt8.ofNat (n / 0x10000), UInt8.ofNat (n / 0x100), UInt8.ofNat n]

/-- The bytes of a number word by word, put before `tail`. -/
def wordsBefore (tail : Octets) (n : Nat) : Octets :=
  if n = 0 then tail else wordsBefore (wordOctets (n % 0x100000000) ++ tail) (n / 0x100000000)
termination_by n
decreasing_by omega

/-- The bytes of a number without leading zeros. Zero has a single byte. -/
def toOctets (n : Nat) : Octets :=
  match (wordsBefore [] n).dropWhile (· == 0) with
  | [] => [0]
  | octets => octets

/-- Multiplies `product` by the power of a base, squaring the base for every bit of the exponent. -/
def multiplyPower (product base exponent modulus : Nat) : Nat :=
  if exponent = 0 then product
  else
    multiplyPower (if exponent % 2 = 1 then product * base % modulus else product)
      (base * base % modulus) (exponent / 2) modulus
termination_by exponent
decreasing_by omega

/-- The power of a base modulo a positive modulus. -/
def power (base exponent modulus : Int) : Int :=
  multiplyPower (1 % modulus.toNat) (base % modulus).toNat exponent.toNat modulus.toNat

/-- Divides two numbers until nothing is left, from a coefficient for each. Gives the last divisor and
    its coefficient. -/
def divideFrom (r s r' s' : Int) : Int × Int :=
  if r' ≤ 0 then (r, s)
  else
    let quotient := r.fdiv r'
    divideFrom r' s' (r - quotient * r') (s - quotient * s')
termination_by r'.toNat
decreasing_by
  have hdiv := Int.mul_fdiv_add_fmod r r'
  have hlt := Int.fmod_lt_of_pos r (by omega : 0 < r')
  rw [Int.mul_comm] at hdiv
  omega

/-- The inverse of a value modulo a positive modulus. A negative coefficient is raised by the modulus
    until it is not. -/
def inverse (value modulus : Int) : Except Error Int :=
  let (divisor, coefficient) := divideFrom value 1 modulus 0
  if divisor ≠ 1 then .error .noInverseValue
  else .ok (if coefficient < 0 then coefficient % modulus else coefficient)

/-- The Jacobi symbol over an odd modulus. The sign is that of the powers of two in the residue and of
    its exchange with the modulus. -/
def symbol (value modulus : Nat) : Int :=
  let residue := value % modulus
  if residue = 1 ∨ modulus ≤ 1 then 1
  else if residue = 0 then 0
  else
    let odd := (Integer.oddPart residue).1
    let twos := (Integer.oddPart residue).2
    let sign : Int := if twos % 2 = 0 ∨ modulus % 8 = 1 ∨ modulus % 8 = 7 then 1 else -1
    (if modulus % 4 = 3 ∧ odd % 4 = 3 then -sign else sign) * symbol (modulus % odd) odd
termination_by modulus
decreasing_by
  have hlt := Nat.mod_lt value (by omega : modulus > 0)
  exact Nat.lt_of_le_of_lt (Integer.oddPart_le _) hlt

/-- The Jacobi symbol of a value over an odd positive modulus. -/
def jacobi (value modulus : Int) : Except Error Int :=
  if modulus ≤ 0 then .error .symbolOfNonPositive
  else if modulus % 2 = 0 then .error .symbolOfEven
  else .ok (symbol (value % modulus).toNat modulus.toNat)

end PrimeOrder.Natural
