import PrimeOrder.Value.Basic

namespace PrimeOrder

namespace Point

/-- The sum with a value. The point at infinity gives back whatever is added to it. -/
def addValue (P : Point) (v : Value) : Except Error Value :=
  if P.isInfinity then .ok v
  else
    match v with
    | .element (.point Q) => (P.add Q).map fun sum => .element (.point sum)
    | _ => .error (.noAttribute v.sort "is_infinity")

/-- The multiple by a value to the right. -/
def mulValue (P : Point) (v : Value) : Except Error Point :=
  match v.integer? with
  | some k => P.mul k
  | none => .error (.unordered "<" v.sort "int")

/-- The multiple by a value to the left. A field element there asks for a number to its right. -/
def leftMulValue (P : Point) (v : Value) : Except Error Point :=
  match v with
  | .fieldElement _ => .error .notNumeric
  | _ => P.mulValue v

end Point

namespace FieldElement

/-- The product with a value to the left, which takes place in the structure of that value. -/
def leftMulValue (x : FieldElement) (v : Value) : Except Error Value :=
  match v with
  | .fieldElement k => .ok (.fieldElement (k * x))
  | .element (.point P) => (P.mul x.value).map fun multiple => .element (.point multiple)
  | _ => v.numeric.map fun k => .fieldElement (x.mulInt k)

end FieldElement

namespace PrimeField

/-- The field of a modulus. -/
def ofValue (modulus : Value) : Except Error PrimeField :=
  modulus.numeric.map PrimeField.mk

/-- The element that a value stands for. -/
def elementOf (F : PrimeField) (v : Value) : Except Error FieldElement := do
  F.element (← v.numeric)

/-- The reciprocal of a value, as the engine holds it. -/
def inverseOf (F : PrimeField) (v : Value) : Except Error Number := do
  let reciprocal ← F.inverse (← v.numeric)
  pure (.native reciprocal)

end PrimeField

/-- The curve with the given coefficients, made for no group. -/
def Curve.ofCoefficients (F : PrimeField) : List Value → Except Error Curve
  | [v, w] => do
    let a ← F.elementOf v
    let b ← F.elementOf w
    pure ⟨F, a, b, none⟩
  | _ => .error .coefficientCount

end PrimeOrder
