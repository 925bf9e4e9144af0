import PrimeOrder.Curve.Point
import PrimeOrder.Integer.Engine

namespace PrimeOrder

/-- The octet that every encoded byte string starts with, so that leading zeros are kept. -/
def encodingMarker : UInt8 := 1

/-- A group of residues modulo a safe prime: which of the groups built so far it is, the integers it
    computes with, and the record it was asked for by. -/
structure ResidueGroup where
  id : Nat
  engine : Engine
  record : ResidueRecord
  deriving Repr, DecidableEq

/-- The parameters of a group of residues. -/
abbrev ResidueGroup.params (G : ResidueGroup) : ResidueParams :=
  G.record.params

/-- A residue made by a group. -/
structure Residue where
  group : ResidueGroup
  value : Int
  deriving Repr, DecidableEq

/-- The parameters of a group. -/
inductive Parameters where
  | residues (params : ResidueParams)
  | curve (params : CurveParams)
  deriving Repr, DecidableEq

/-- The record that a group was asked for by. -/
inductive ParameterRecord where
  | residues (record : ResidueRecord)
  | curve (record : CurveRecord)
  deriving Repr, DecidableEq

/-- The parameters that a record stands for. -/
def ParameterRecord.params : ParameterRecord → Parameters
  | residues record => .residues record.params
  | curve record => .curve record.params

/-- The sorts of elements. -/
inductive ElementSort where
  | residue (engine : Engine)
  | point
  deriving Repr, DecidableEq

/-- An element of a group. -/
inductive Element where
  | residue (x : Residue)
  | point (P : Point)
  deriving Repr, DecidableEq

namespace Element

/-- The sort of an element. -/
def sort : Element → ElementSort
  | residue x => .residue x.group.engine
  | point _ => .point

/-- The numbers that tell an element from the others of its group. The point at infinity has
    none. -/
def numbers : Element → List Int
  | residue x => [x.value]
  | point P =>
    match P.canonical with
    | none => []
    | some (x, y) => [x, y]

/-- What equal elements have in common whatever their groups. -/
def key (e : Element) : ElementSort × List Int :=
  (e.sort, e.numbers)

/-- The parameters of the group an element belongs to, if it belongs to one. -/
def parameters? : Element → Option Parameters
  | residue x => some (.residues x.group.params)
  | point P => P.curve.group.map fun group => .curve group.params

/-- Whether two elements are equal. -/
def same (e f : Element) : Bool :=
  e.key == f.key && e.parameters? == f.parameters?

/-- Whether it can be told if two elements are equal. It cannot if they have all in common but only
    one of them belongs to a group. -/
def comparable (e f : Element) : Bool :=
  e.key != f.key || e.parameters?.isSome == f.parameters?.isSome

/-- Whether two elements are equal, if that can be told. -/
def equals (e f : Element) : Except Error Bool :=
  if e.comparable f then .ok (e.same f) else .error (.noAttribute "NoneType" "get_parameters")

/-- Whether an element is the neutral one of its group. -/
def isIdentity : Element → Bool
  | residue x => x.value == 1
  | point P => P.isInfinity

end Element

end PrimeOrder
