import PrimeOrder.Integer.Factorial
import PrimeOrder.Integer.Residuosity

namespace PrimeOrder.Number

/-- A common divisor of two numbers and how they combine to it, each in its form. -/
structure Combination where
  divisor : Number
  x : Number
  y : Number
  deriving Repr, DecidableEq

/-- The greatest common divisor of two numbers with its coefficients. A number that divides the
    other is the divisor as it came. -/
def xgcd (a b : Number) : Combination :=
  let bezout := Integer.xgcd a.toInt b.toInt
  if b.toInt = 0 then ⟨a, bezout.x, bezout.y⟩
  else if a.toInt.fmod b.toInt = 0 then ⟨b, bezout.x, bezout.y⟩
  else
    ⟨resultOf [a, b] bezout.divisor, resultOf [a, b] bezout.x, resultOf [a, b] bezout.y⟩

/-- The form changes nothing about the divisor. -/
theorem toInt_xgcd_divisor (a b : Number) :
    (xgcd a b).divisor.toInt = (Integer.xgcd a.toInt b.toInt).divisor := by
  unfold xgcd
  by_cases hzero : b.toInt = 0
  · rw [if_pos hzero, Integer.xgcd, Integer.xgcdFrom, if_pos hzero]
  · rw [if_neg hzero]
    by_cases hdivides : a.toInt.fmod b.toInt = 0
    · rw [if_pos hdivides, Integer.xgcd, Integer.xgcdFrom, if_neg hzero, Integer.xgcdFrom,
        if_pos hdivides]
    · rw [if_neg hdivides, toInt_resultOf]

/-- The inverse of `a` in `[0, n)`. -/
def modInverse (a n : Number) : Except Error Number :=
  let combination := xgcd (resultOf [a, n] (a.toInt.fmod n.toInt)) n
  match Integer.modInverse a.toInt n.toInt with
  | .ok inverse => .ok (resultOf [combination.x, n] inverse)
  | .error (.noInverse ..) => .error (.noInverse a n combination.divisor)
  | .error e => .error e

/-- The failure of moduli that are not pairwise coprime. It stems from the first of them modulo
    which the product of the others has no inverse, and that failure has to be worded first. -/
def commonFactor (moduli : List Number) : Error :=
  let product := moduli.foldl (fun acc modulus => acc * modulus.toInt) 1
  let failure? (modulus : Number) : Option Error :=
    match modInverse (resultOf moduli (product.fdiv modulus.toInt)) modulus with
    | .ok _ => none
    | .error e => some (if e.shown = e then .notCoprime else e.shown)
  (moduli.findSome? failure?).getD .notCoprime

/-- The least non-negative number that is congruent to each residue modulo its modulus. -/
def crt (residues moduli : List Number) : Except Error Number :=
  match Integer.crt (residues.map toInt) (moduli.map toInt) with
  | .ok solution => .ok (resultOf (residues ++ moduli) solution)
  | .error .notCoprime => .error (commonFactor moduli)
  | .error e => .error e

/-- The square roots of `a` modulo a prime that is three modulo four. -/
def sqrtModPrime (a p : Number) : Except Error (Number × Number) :=
  match Integer.sqrtModPrime a.toInt p.toInt with
  | .ok roots => .ok (roots.first, resultOf [p] roots.second)
  | .error (.notThreeModFour _) => .error (.notThreeModFour p)
  | .error e => .error e

/-- The factorial of `n` if it is a machine word. -/
def factorial (n : Number) : Except Error Nat :=
  match Integer.factorial n.toInt with
  | .error (.factorialTooLarge _) => .error (.factorialTooLarge n)
  | outcome => outcome

end PrimeOrder.Number
