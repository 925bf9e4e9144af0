import PrimeOrder.Integer.Power
import PrimeOrder.Integer.Size
import PrimeOrder.Random.Generator

namespace PrimeOrder

/-- A primality test, given by the integers it accepts. -/
abbrev PrimalityTest := Int → Bool

namespace Integer

/-- The odd part of a positive number and how often two divides it. -/
def oddPart (n : Nat) : Nat × Nat :=
  if n = 0 ∨ n % 2 = 1 then (n, 0)
  else
    let half := oddPart (n / 2)
    (half.1, half.2 + 1)
termination_by n
decreasing_by omega

theorem oddPart_le (n : Nat) : (oddPart n).1 ≤ n := by
  fun_induction oddPart n with
  | case1 => exact Nat.le_refl _
  | case2 n _ _ ih => exact Nat.le_trans ih (Nat.div_le_self n 2)

/-- Whether `x` or one of its next squarings, `count` numbers in all, is `-1` modulo `n`. -/
def reachesMinusOne (n x : Nat) : Nat → Bool
  | 0 => false
  | count + 1 => x == n - 1 || reachesMinusOne n (x * x % n) count

/-- Whether a base fails to betray `n`: modulo a prime, the squarings that lead from the power of
    the base to the odd part of `n - 1` up to one pass through `-1`, unless they start at one. -/
def passesBase (n base : Nat) : Bool :=
  let residue := base % n
  if residue = 0 then true
  else
    let split := oddPart (n - 1)
    let power := powModNat residue split.1 n
    power == 1 || reachesMinusOne n power split.2

/-- The primes that are tried as divisors. -/
def smallPrimes : List Nat :=
  [2, 3, 5, 7, 11, 13, 17, 19, 23, 29, 31, 37, 41, 43, 47, 53, 59, 61, 67, 71, 73, 79, 83, 89, 97,
    101, 103, 107, 109, 113, 127, 131, 137, 139, 149, 151, 157, 163, 167, 173, 179, 181, 191, 193,
    197, 199, 211, 223, 227, 229, 233, 239, 241, 251]

/-- The bases that every number is tested with. -/
def fixedBases : List Nat :=
  [2, 3, 5, 7, 11, 13, 17, 19, 23, 29, 31, 37]

/-- Bases of 64 bits drawn from a generator. -/
def drawnBases (g : Generator) : Nat → List Nat
  | 0 => []
  | count + 1 =>
    let drawn := g.bits 64
    drawn.1 :: drawnBases drawn.2 count

/-- Whether no base betrays a number that no small prime divides. -/
def passesBases (n : Nat) : Bool :=
  fixedBases.all (passesBase n) && (drawnBases (Generator.ofSeed n) 12).all (passesBase n)

/-- The probabilistic primality test of the library. It accepts every prime. -/
def millerRabin : PrimalityTest := fun x =>
  if x < 2 then false
  else
    let n := x.toNat
    match smallPrimes.find? fun p => n % p == 0 with
    | some p => n == p
    | none => passesBases n

/-- Whether a test accepts `x` after a positive number of rounds, which is an unsigned machine word.
    The test decides by itself how often it looks; numbers below two are never prime. -/
def isProbablePrime (isPrime : PrimalityTest) (x rounds : Int) : Except Error Bool :=
  if rounds ≤ 0 then .error .nonPositiveRounds
  else if x < 2 then .ok false
  else if unsignedWordBound ≤ rounds then .error .doesNotFitWord
  else .ok (isPrime x)

end Integer

end PrimeOrder
