import PrimeOrder.Group.Points
import PrimeOrder.Text.Literal
import PrimeOrder.Value.Literal
import PrimeOrder.Window.Simultaneous

namespace PrimeOrder

/-- A group of prime order. -/
inductive Group where
  | residues (G : ResidueGroup)
  | points (G : CurveGroup)
  deriving Repr, DecidableEq

namespace Group

/-- The name of the kind of group. -/
def kindName : Group → String
  | residues _ => "Zp*"
  | points _ => "ECFp"

/-- The parameters the group was built from. -/
def parameters : Group → Parameters
  | residues G => .residues G.params
  | points G => .curve G.params

/-- The record that the group was asked for by. -/
def record : Group → ParameterRecord
  | residues G => .residues G.record
  | points G => .curve G.record

/-- The order of the group. -/
def order : Group → Int
  | residues G => G.params.order
  | points G => G.params.order

/-- The order in its form. A group of points has it as it was handed over. -/
def orderNumber : Group → Number
  | residues G => G.params.order
  | points G => G.record.order

/-- The prime that the group computes modulo. -/
def modulus : Group → Int
  | residues G => G.params.modulus
  | points G => G.params.modulus

/-- The neutral element. -/
def identity : Group → Element
  | residues G => .residue G.identity
  | points G => .point G.identity

/-- The generator. -/
def generator : Group → Element
  | residues G => .residue G.generator
  | points G => .point G.generator

/-- Whether the group made an element. -/
def ownsElement : Group → Element → Bool
  | residues G, .residue x => G.owns x
  | points G, .point P => G.owns P
  | _, _ => false

/-- Whether a value is an element that the group made. -/
def owns (G : Group) : Value → Bool
  | .element e => G.ownsElement e
  | _ => false

/-- The refusal of a value that the group did not make. -/
def refusal (G : Group) (v : Value) : Error :=
  .showing (.foreignElement · G.kindName) v.literal?

/-- The element that a value is, if the group made it. -/
def check (G : Group) (v : Value) : Except Error Element :=
  match v with
  | .element e => if G.ownsElement e then .ok e else .error (G.refusal v)
  | _ => .error (G.refusal v)

/-- The elements that values are, if the group made all of them. -/
def checkAll (G : Group) : List Value → Except Error (List Element)
  | [] => .ok []
  | v :: rest => do
    let e ← G.check v
    let es ← checkAll G rest
    pure (e :: es)

/-- The product of two elements of the group. -/
def mul : Group → Element → Element → Except Error Element
  | residues G, .residue x, .residue y => .ok (.residue (G.mul x y))
  | points _, .point P, .point Q => (P.add Q).map .point
  | G, e, _ => .error (G.refusal (.element e))

/-- The multiplication of the group as windowed exponentiation takes it. -/
def law (G : Group) : Window.Law Element :=
  ⟨G.identity, G.mul⟩

/-- The product of two values that the group made. -/
def multiply (G : Group) (v w : Value) : Except Error Element := do
  let e ← G.check v
  let f ← G.check w
  G.mul e f

/-- The multiplication of values, which checks them at every product. -/
def checkedLaw (G : Group) : Window.Law Value :=
  ⟨.element G.identity, fun v w => (G.multiply v w).map .element⟩

/-- The inverse of a value that the group made. -/
def inverse (G : Group) (v : Value) : Except Error Element := do
  match G, ← G.check v with
  | residues G, .residue x => (G.inverse x).map .residue
  | points _, .point P => pure (.point P.neg)
  | G, e => .error (G.refusal (.element e))

/-- The exponent from zero up to the order that gives the same powers of members. -/
def reduceExponent (G : Group) (k : Int) : Int :=
  k.fmod G.order

/-- The power of a value that the group made, by any integer. -/
def power (G : Group) (v : Value) (k : Int) : Except Error Element := do
  match G, ← G.check v with
  | residues G, .residue x => pure (.residue (G.power x k))
  | points G, .point P => (G.power P k).map .point
  | G, e => .error (G.refusal (.element e))

/-- The product of the powers of values that the group made. -/
def productOfPowers (G : Group) (bases : List Value) (exponents : List Int) :
    Except Error Element :=
  if bases.length ≠ exponents.length then .error .unequalBases
  else if bases.isEmpty then .error .noBase
  else do
    let elements ← G.checkAll bases
    G.law.productOfPowers
      (elements.zip (exponents.map fun k => (G.reduceExponent k).toNat))

/-- Whether a value is an element that the group made and one of its members. -/
def isMember (G : Group) (v : Value) : Bool :=
  match G, v with
  | residues G, .element (.residue x) => G.owns x && G.inSubgroup x.value
  | points G, .element (.point P) => G.owns P && G.isOnCurve P
  | _, _ => false

/-- Whether the generator is a member other than the neutral element. -/
def isGenerator (G : Group) : Bool :=
  G.isMember (.element G.generator) && !G.generator.isIdentity

/-- Whether the parameters are sound. -/
def validate (isPrime : PrimalityTest) : Group → Except Error Bool
  | residues G => .ok (G.isValid isPrime)
  | points G => G.validate isPrime

/-- The integer that an engine is asked to hold. Texts and byte strings are read in the notation of the
    engine, buffers by one engine alone. -/
def askedInteger (engine : Engine) (v : Value) : Except Error Int :=
  match engine, v with
  | .signed, .text s => Text.Literal.readMarkedText s
  | .signed, .octets bytes => Text.Literal.readMarked (bytes.map fun octet => Char.ofNat octet.toNat)
  | .signed, v => v.numeric
  | .natural, .text s => Text.Literal.readDecimal s
  | .natural, .octets bytes => Text.Literal.readDecimalOctets bytes
  | .natural, .buffer _ content => Text.Literal.readDecimalOctets content
  | .natural, v =>
    match v.integer? with
    | some n => .ok n
    | none => .error (.notIntegral v.sort)

@[simp] theorem askedInteger_number (engine : Engine) (x : Number) :
    askedInteger engine (.number x) = .ok x.toInt := by
  cases engine <;> rfl

/-- The element made of the given values, which has to be a member if that is checked. -/
def generate (G : Group) (check : Bool) (values : List Value) : Except Error Element :=
  match G, values with
  | residues G, [v] => do
    let n ← askedInteger G.engine v
    (G.generate check n).map .residue
  | residues _, _ => .error .notOneValue
  | points G, [v, w] => (G.generate check v w).map .point
  | points _, _ => .error .notTwoCoordinates

/-- The element that plain data stand for. -/
def reconstruct (G : Group) (check : Bool) (data : Value) : Except Error Element :=
  match G, data with
  | residues _, .residueData x => G.generate check [x]
  | residues _, _ => .error (.showing .notResidueData data.literal?)
  | points _, .pointData x y => G.generate check [x, y]
  | points _, _ => .error (.showing .notPointData data.literal?)

/-- An element drawn at random. -/
def random {σ : Type} [RandomSource σ] (G : Group) (s : σ) : Except Error (Element × σ) :=
  match G with
  | residues G => (G.random s).map fun drawn => (.residue drawn.1, drawn.2)
  | points G => (G.random s).map fun drawn => (.point drawn.1, drawn.2)

/-- The greatest number of bytes that one element can encode. -/
def encodingLimit : Group → Nat
  | residues G => G.encodingLimit
  | points G => G.encodingLimit

/-- The element that encodes a byte string. -/
def encode (G : Group) (data : Octets) : Except Error Element :=
  match G with
  | residues G => (G.encode data).map .residue
  | points G => (G.encode data).map .point

/-- The byte string that a value of the group encodes. -/
def decode (G : Group) (v : Value) : Except Error Octets := do
  match G, ← G.check v with
  | residues G, .residue x => G.decode x
  | points _, .point P => CurveGroup.decode P
  | G, e => .error (G.refusal (.element e))

/-- The bytes that stand for a value of the group. -/
def image (G : Group) (v : Value) : Except Error Octets := do
  match G, ← G.check v with
  | residues G, .residue x => G.image x
  | points _, .point P => P.serialize
  | G, e => .error (G.refusal (.element e))

end Group

namespace Element

/-- The plain data that stand for an element outside its group. -/
def sendable : Element → Value
  | residue x => .residueData (.int x.value)
  | point P =>
    match P.canonical with
    | none => .pointData .null .null
    | some (x, y) => .pointData (.int x) (.int y)

end Element

end PrimeOrder
