import PrimeOrder.Group.Basic

namespace PrimeOrder

/-- A question to a group, with operands of any sort where the group decides whether they fit. -/
inductive Query where
  | generator
  | order
  | modulus
  | kindName
  | parameters
  | validate
  | isGenerator
  | isPrimeOrder
  | isOrderGreaterThan (bound : Int)
  | owns (v : Value)
  | check (v : Value)
  | identity
  | generate (checked : Bool) (values : List Value)
  | reconstruct (checked : Bool) (data : Value)
  | isMember (v : Value)
  | inverse (v : Value)
  | multiply (v w : Value)
  | power (v : Value) (k : Int)
  | reduceExponent (k : Number)
  | productOfPowers (bases : List Value) (exponents : List Int)
  | encodingLimit
  | encode (data : Octets)
  | decode (v : Value)
  | image (v : Value)
  deriving Repr

/-- The number of rounds asked of the test when the order is tested. -/
def orderRounds : Int := 40

/-- The answer of a group to a question. -/
def Query.answer (isPrime : PrimalityTest) (G : Group) : Query → Except Error Value
  | generator => .ok (.element G.generator)
  | order => .ok (.number G.orderNumber)
  | modulus =>
    match G with
    | .residues G => .ok (.int G.params.modulus)
    | .points _ => .error (.noAttribute "DlogECFpGmp" "get_modulus")
  | kindName => .ok (.text G.kindName)
  | parameters => .ok (.parameters G.record)
  | validate => (G.validate isPrime).map .bool
  | isGenerator => .ok (.bool G.isGenerator)
  | isPrimeOrder => (Integer.isProbablePrime isPrime G.order orderRounds).map .bool
  | isOrderGreaterThan bound => .ok (.bool (decide (bound < G.order)))
  | owns v => .ok (.bool (G.owns v))
  | check v => (G.check v).map .element
  | identity => .ok (.element G.identity)
  | generate checked values => (G.generate checked values).map .element
  | reconstruct checked data => (G.reconstruct checked data).map .element
  | isMember v => .ok (.bool (G.isMember v))
  | inverse v => (G.inverse v).map .element
  | multiply v w => (G.multiply v w).map .element
  | power v k => (G.power v k).map .element
  | reduceExponent k =>
    .ok (.number (.resultOf [k, G.orderNumber] (G.reduceExponent k.toInt)))
  | productOfPowers bases exponents => (G.productOfPowers bases exponents).map .element
  | encodingLimit => .ok (.int G.encodingLimit)
  | encode data => (G.encode data).map .element
  | decode v => (G.decode v).map .octets
  | image v => (G.image v).map .octets

end PrimeOrder
