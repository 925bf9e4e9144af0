import PrimeOrder.Group.Residues
import PrimeOrder.Integer.Root
import PrimeOrder.Value.Literal

namespace PrimeOrder.CurveGroup

/-- The field of the coordinates. -/
def field (G : CurveGroup) : PrimeField :=
  ⟨G.params.modulus⟩

/-- The curve of the group. Its points are the elements of the group. -/
def curve (G : CurveGroup) : Curve :=
  ⟨G.field, G.field.reduce G.params.a, G.field.reduce G.params.b, some G⟩

/-- The point at infinity. -/
def identity (G : CurveGroup) : Point :=
  G.curve.infinity

/-- The base point of the parameters. -/
def generator (G : CurveGroup) : Point :=
  G.curve.point (G.field.reduce G.params.baseX) (G.field.reduce G.params.baseY)

/-- Whether a point was made by this very group. -/
def owns (G : CurveGroup) (P : Point) : Bool :=
  P.curve == G.curve

/-- Whether a point is at infinity or satisfies the curve equation. -/
def isOnCurve (G : CurveGroup) (P : Point) : Bool :=
  match P.coordinates with
  | none => true
  | some (x, y) => G.curve.contains x y

/-- Whether the prime and the cofactor have the form that the group needs. -/
def hasForm (s : CurveParams) : Bool :=
  s.modulus.fmod 4 == 3 && s.cofactor == 1

/-- Whether a number lies in the interval around `p + 1` that holds every curve order. -/
def inOrderInterval (s : CurveParams) : Bool :=
  (s.modulus + 1 - s.order).natAbs ≤ 2 * (Integer.floorRoot s.modulus.toNat).root + 1

/-- Whether the parameters are sound: two primes, a curve without singular point, an order that a
    curve can have, and a base point of that order. -/
def validate (isPrime : PrimalityTest) (G : CurveGroup) : Except Error Bool :=
  if !(isPrime G.params.modulus && isPrime G.params.order) then .ok false
  else if G.curve.isSingular then .ok false
  else if !inOrderInterval G.params then .ok false
  else if !G.isOnCurve G.generator then .ok false
  else (G.generator.mul G.params.order).map Point.isInfinity

/-- The exponent from zero up to the order that gives the same powers of members. -/
def reduceExponent (G : CurveGroup) (k : Int) : Int :=
  k.fmod G.params.order

/-- The multiple of a point by the reduced exponent. -/
def power (G : CurveGroup) (P : Point) (k : Int) : Except Error Point :=
  P.mul (G.reduceExponent k)

/-- Whether a number is the residue of a coordinate. -/
def isCoordinate (G : CurveGroup) (n : Int) : Bool :=
  decide (0 ≤ n) && decide (n < G.params.modulus)

/-- The number that a value is, if it is the residue of a coordinate. Only numbers can be compared with
    the modulus. -/
def coordinate? (G : CurveGroup) : Value → Except Error (Option Number)
  | .number x => .ok (if G.isCoordinate x.toInt then some x else none)
  | v => .error (.unordered "<=" "int" v.sort)

/-- The refusal of two values that are no coordinates. -/
def coordinateRefusal (v w : Value) : Error :=
  .showing .notCoordinates (v.pairInSentence? w)

/-- The point with two coordinates, which has to be on the curve if that is checked. Two absent
    coordinates stand for infinity. The second coordinate is looked at if the first is one. -/
def generate (G : CurveGroup) (check : Bool) (v w : Value) : Except Error Point :=
  match v, w with
  | .null, .null => .ok G.identity
  | .null, _ => .error (coordinateRefusal v w)
  | _, .null => .error (coordinateRefusal v w)
  | v, w => do
    let some x ← G.coordinate? v | throw (coordinateRefusal v w)
    let some y ← G.coordinate? w | throw (coordinateRefusal v w)
    let point := G.curve.point (G.field.reduce x.toInt) (G.field.reduce y.toInt)
    if check && !G.isOnCurve point then throw (.notOnCurve x y G.params.name) else pure point

/-- The point for a drawn number: that multiple of the base point. -/
def ofDraw (G : CurveGroup) (scalar : Int) : Except Error Point :=
  G.generator.mul scalar

/-- The point for a number drawn from `[1, n)`. -/
def random {σ : Type} [RandomSource σ] (G : CurveGroup) (s : σ) :
    Except Error (Point × σ) := do
  let (scalar, next) ← RandomSource.draw 1 (G.params.order - 1) s
  let point ← G.ofDraw scalar
  pure (point, next)

/-- The greatest number of bytes that one point can encode: the marker, the bytes and a counter stay
    below the modulus. -/
def encodingLimit (G : CurveGroup) : Nat :=
  (Integer.bitLength G.params.modulus - 17) / 8

/-- The abscissa that is tried for a byte string with a counter. -/
def abscissa (data : Octets) (counter : Nat) : Nat :=
  Octets.value (encodingMarker :: data ++ [UInt8.ofNat counter])

/-- The point of the first abscissa that has one, among `count` counters from `counter` on. -/
def firstPoint (G : CurveGroup) (data : Octets) (counter : Nat) : Nat → Except Error Point
  | 0 => .error .noPointFound
  | count + 1 => do
    match ← G.curve.liftX (abscissa data counter) with
    | some point => pure point
    | none => firstPoint G data (counter + 1) count

/-- The point that encodes a byte string. -/
def encode (G : CurveGroup) (data : Octets) : Except Error Point :=
  if G.encodingLimit < data.length then .error (.encodingTooLong data.length G.encodingLimit)
  else G.firstPoint data 0 256

/-- The byte string that a point encodes. -/
def decode (P : Point) : Except Error Octets :=
  match P.canonical with
  | none => .error .infinityEncodesNothing
  | some (x, _) =>
    match Octets.ofNat x.toNat with
    | [] => .error .notEncoded
    | octet :: data =>
      if octet = encodingMarker then .ok data.dropLast else .error .notEncoded

end PrimeOrder.CurveGroup
