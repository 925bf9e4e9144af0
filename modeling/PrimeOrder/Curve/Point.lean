import PrimeOrder.Curve.Basic
import PrimeOrder.Octets.Basic

namespace PrimeOrder

namespace Point

/-- Whether the point is the one at infinity. -/
def isInfinity (P : Point) : Bool :=
  P.coordinates.isNone

/-- The coordinates as integers. -/
def canonical (P : Point) : Option (Int × Int) :=
  P.coordinates.map fun c => (c.1.value, c.2.value)

/-- The reflection of a point in the axis of the abscissas. -/
def neg (P : Point) : Point :=
  match P.coordinates with
  | none => P
  | some (x, y) => P.curve.point x (-y)

/-- The reflection of the third point on a line through `(x₁, y₁)` and a point with abscissa
    `x₂`. -/
def reflectedThird (C : Curve) (slope x₁ y₁ x₂ : FieldElement) : Point :=
  let x := slope * slope - x₁ - x₂
  C.point x (slope * (x₁ - x) - y₁)

/-- The sum of two points by the chord through them, or by the tangent if they are equal. -/
def add (P Q : Point) : Except Error Point :=
  match P.coordinates, Q.coordinates with
  | none, _ => .ok Q
  | some _, none => .ok P
  | some (x₁, y₁), some (x₂, y₂) =>
    if x₁ = x₂ then
      if y₁ = y₂ then
        if y₁.isZero then .ok P.curve.infinity
        else do
          let slope ← (x₁.mulInt 3 * x₁ + P.curve.a).div (y₁.mulInt 2)
          pure (reflectedThird P.curve slope x₁ y₁ x₁)
      else .ok P.curve.infinity
    else do
      let slope ← (y₂ - y₁).div (x₂ - x₁)
      pure (reflectedThird P.curve slope x₁ y₁ x₂)

/-- Adds to `sum` the multiple of `addend` by `k`, doubling the addend for every bit of `k`. -/
def addMultiple (sum addend : Point) (k : Nat) : Except Error Point :=
  if k = 0 then .ok sum
  else do
    let sum ← if k % 2 = 1 then sum.add addend else pure sum
    let addend ← addend.add addend
    addMultiple sum addend (k / 2)
termination_by k
decreasing_by omega

/-- The multiple of a point by an integer. -/
def mul (P : Point) (k : Int) : Except Error Point :=
  addMultiple P.curve.infinity (if k < 0 then P.neg else P) k.natAbs

/-- The compressed form of a point: one byte for infinity or the parity of the ordinate, and the
    abscissa in as many bytes as the field of the curve needs. -/
def serialize (P : Point) : Except Error Octets :=
  match P.coordinates with
  | none => .ok [0]
  | some (x, y) =>
    if x.value < 0 then .error .negativeOctets
    else
      match Octets.ofNatOfLength x.value.toNat P.curve.field.byteLength with
      | .ok octets => .ok ((if y.value % 2 = 0 then 2 else 3) :: octets)
      | .error _ => .error .doesNotFitOctets

end Point

end PrimeOrder
