import PrimeOrder.Group.Element
import PrimeOrder.Octets.Signed

namespace PrimeOrder

/-- A value of any sort. Generators, groups and tables change over time and are values by reference:
    a value holds the position of such an object in the workspace. So does a buffer, beside its
    content when the value was read. -/
inductive Value where
  | null
  | number (x : Number)
  | text (s : String)
  | octets (bytes : Octets)
  | buffer (position : Nat) (content : Octets)
  | list (items : List Value)
  | tuple (items : List Value)
  | signedOctets (data : SignedOctets)
  | roots (first second : Number)
  | element (e : Element)
  | fieldElement (x : FieldElement)
  | field (F : PrimeField)
  | curve (C : Curve)
  | residueData (x : Value)
  | pointData (x y : Value)
  | parameters (record : ParameterRecord)
  | generator (position : Nat)
  | group (position : Nat)
  | table (position : Nat)
  deriving Repr

namespace Value

/-- A truth value. -/
@[match_pattern] abbrev bool (b : Bool) : Value := number (.truth b)

/-- An integer of the library. -/
@[match_pattern] abbrev int (n : Int) : Value := number (.integer n)

/-- A value that may be absent. -/
def ofOption {α : Type} (f : α → Value) : Option α → Value
  | none => null
  | some a => f a

/-- Coordinates that may be absent. -/
def ofCoordinates : Option (Int × Int) → Value
  | none => null
  | some (x, y) => tuple [int x, int y]

/-- The name of the sort of an element. -/
def elementSort : Element → String
  | .residue x =>
    match x.group.engine with
    | .signed => "ZpSafePrimeElementGmp"
    | .natural => "ZpSafePrimeElementCryptodome"
  | .point _ => "EllipticCurvePoint"

/-- The name of the sort of a value. -/
def sort : Value → String
  | null => "NoneType"
  | number (.truth _) => "bool"
  | number (.integer _) => "int"
  | number (.native _) => "mpz"
  | text _ => "str"
  | octets _ => "bytes"
  | buffer .. => "bytearray"
  | list _ => "list"
  | tuple _ => "tuple"
  | signedOctets _ => "EncodedInteger"
  | roots .. => "SquareRootResults"
  | element e => elementSort e
  | fieldElement _ => "PrimeFieldElement"
  | field _ => "FiniteField"
  | curve _ => "EllipticCurve"
  | residueData _ => "ZpElementSendableData"
  | pointData .. => "ECElementSendableData"
  | parameters (.residues _) => "ZpGroupParams"
  | parameters (.curve _) => "CurveParams"
  | generator _ => "TestDRNG"
  | group _ => "DlogGroup"
  | table _ => "PrecomputedExponentTable"

/-- The number that a value is. -/
def number? : Value → Option Number
  | number x => some x
  | _ => none

/-- The integer that a number or a field element stands for. -/
def integer? : Value → Option Int
  | number x => some x.toInt
  | fieldElement x => some x.value
  | _ => none

/-- The integer that a number or a field element stands for, as the engine asks for one. -/
def numeric (v : Value) : Except Error Int :=
  match v.integer? with
  | some n => .ok n
  | none => .error .notNumeric

/-- The values that a sequence consists of. -/
def items? : Value → Option (List Value)
  | list items => some items
  | tuple items => some items
  | roots first second => some [number first, number second]
  | signedOctets data => some [octets data.magnitude, bool data.negative]
  | octets bytes => some (bytes.map fun octet => int octet.toNat)
  | buffer _ content => some (content.map fun octet => int octet.toNat)
  | text s => some (s.toList.map fun c => text (String.singleton c))
  | _ => none

/-- The byte that a number stands for. -/
def octet? (v : Value) : Option UInt8 :=
  v.number?.bind fun x =>
    if 0 ≤ x.toInt ∧ x.toInt < 256 then some (UInt8.ofNat x.toInt.toNat) else none

/-- The byte string that a value holds or lists. -/
def octets? : Value → Option Octets
  | octets bytes => some bytes
  | buffer _ content => some content
  | list items => items.mapM octet?
  | tuple items => items.mapM octet?
  | roots first second => [number first, number second].mapM octet?
  | _ => none

/-- Whether a value counts as true: all do but absence, zero and what is empty. -/
def truth : Value → Bool
  | null => false
  | number x => x.toInt != 0
  | text s => !s.isEmpty
  | octets bytes => !bytes.isEmpty
  | buffer _ content => !content.isEmpty
  | list items => !items.isEmpty
  | tuple items => !items.isEmpty
  | _ => true

/-- Whether a value can change under the name it is looked up by. -/
def isMutable : Value → Bool
  | list _ => true
  | buffer .. => true
  | _ => false

/-- A value that is to be looked up, which has to be one that cannot change. -/
def lookedUp (v : Value) : Except Error Value :=
  if v.isMutable then .error (.unhashable v.sort) else .ok v

end Value

end PrimeOrder
