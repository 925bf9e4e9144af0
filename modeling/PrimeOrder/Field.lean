import PrimeOrder.Integer.Residuosity
import PrimeOrder.Integer.Size

namespace PrimeOrder

/-- The integers modulo a prime. -/
structure PrimeField where
  modulus : Int
  deriving Repr, DecidableEq

/-- A residue in a field. It has the sign of the modulus and a smaller magnitude. -/
structure FieldElement where
  field : PrimeField
  value : Int
  deriving Repr, DecidableEq

namespace PrimeField

/-- The residue of an integer. -/
def reduce (F : PrimeField) (n : Int) : FieldElement :=
  ⟨F, n.fmod F.modulus⟩

/-- The element an integer stands for, if the modulus is not zero. -/
def element (F : PrimeField) (n : Int) : Except Error FieldElement :=
  if F.modulus = 0 then .error .moduloZero else .ok (F.reduce n)

/-- The reciprocal of an integer modulo the modulus. -/
def inverse (F : PrimeField) (n : Int) : Except Error Int :=
  if F.modulus = 0 then .error .moduloZero
  else
    let residue := n.fmod F.modulus
    if residue = 0 then .error .zeroHasNoInverse
    else
      match Integer.reciprocal? residue F.modulus with
      | some reciprocal => .ok reciprocal
      | none => .error .noReciprocal

/-- The number of bytes that hold every element. -/
def byteLength (F : PrimeField) : Nat :=
  Integer.byteLength F.modulus

end PrimeField

namespace FieldElement

instance : Add FieldElement := ⟨fun x y => x.field.reduce (x.value + y.value)⟩

instance : Sub FieldElement := ⟨fun x y => x.field.reduce (x.value - y.value)⟩

instance : Mul FieldElement := ⟨fun x y => x.field.reduce (x.value * y.value)⟩

instance : Neg FieldElement := ⟨fun x => x.field.reduce (-x.value)⟩

/-- The sum with an integer. -/
def addInt (x : FieldElement) (n : Int) : FieldElement :=
  x.field.reduce (x.value + n)

/-- The difference with an integer. -/
def subInt (x : FieldElement) (n : Int) : FieldElement :=
  x.field.reduce (x.value - n)

/-- The product with an integer. -/
def mulInt (x : FieldElement) (n : Int) : FieldElement :=
  x.field.reduce (x.value * n)

/-- The quotient by an integer that has a reciprocal in the field. -/
def divInt (x : FieldElement) (n : Int) : Except Error FieldElement :=
  (x.field.inverse n).map x.mulInt

/-- The quotient by an element that has a reciprocal. -/
def div (x y : FieldElement) : Except Error FieldElement :=
  x.divInt y.value

/-- Whether the element is the residue of an integer. -/
def equalsInt (x : FieldElement) (n : Int) : Bool :=
  x.value == n.fmod x.field.modulus

/-- Whether the element is zero. -/
def isZero (x : FieldElement) : Bool :=
  x.value == 0

/-- Whether the element is a square. Zero is one; for the others the Jacobi symbol tells. -/
def isSquare (x : FieldElement) : Except Error Bool :=
  if x.isZero then .ok true
  else (Integer.jacobi x.value x.field.modulus).map (· == 1)

/-- A square root of the element, if it is a square. -/
def sqrt (x : FieldElement) : Except Error (Option FieldElement) := do
  if ← x.isSquare then
    let roots ← Integer.sqrtModPrime x.value x.field.modulus
    pure (some (x.field.reduce roots.first))
  else pure none

end FieldElement

end PrimeOrder
