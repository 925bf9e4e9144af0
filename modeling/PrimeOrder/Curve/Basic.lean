import PrimeOrder.Field
import PrimeOrder.Params

namespace PrimeOrder

/-- A group of curve points: which of the groups built so far it is, and the record it was asked for
    by. -/
structure CurveGroup where
  id : Nat
  record : CurveRecord
  deriving Repr, DecidableEq

/-- The parameters of a group of points. -/
abbrev CurveGroup.params (G : CurveGroup) : CurveParams :=
  G.record.params

/-- A curve `y² = x³ + a * x + b` over a field. -/
structure Curve where
  field : PrimeField
  a : FieldElement
  b : FieldElement
  group : Option CurveGroup
  deriving Repr, DecidableEq

/-- A point of a curve, at infinity if it has no coordinates. -/
structure Point where
  curve : Curve
  coordinates : Option (FieldElement × FieldElement)
  deriving Repr, DecidableEq

namespace Curve

/-- The point at infinity. -/
def infinity (C : Curve) : Point :=
  ⟨C, none⟩

/-- The point with the given coordinates. -/
def point (C : Curve) (x y : FieldElement) : Point :=
  ⟨C, some (x, y)⟩

/-- Whether the discriminant vanishes. -/
def isSingular (C : Curve) : Bool :=
  (C.a.mulInt 4 * C.a * C.a + C.b.mulInt 27 * C.b).isZero

/-- The right-hand side of the curve equation. -/
def rhs (C : Curve) (x : FieldElement) : FieldElement :=
  x * x * x + C.a * x + C.b

/-- Whether the curve equation holds. -/
def contains (C : Curve) (x y : FieldElement) : Bool :=
  y * y == C.rhs x

/-- A point with a given abscissa, if the curve has one. -/
def liftX (C : Curve) (n : Int) : Except Error (Option Point) := do
  let x ← C.field.element n
  let root ← (C.rhs x).sqrt
  pure (root.map (C.point x))

end Curve

end PrimeOrder
