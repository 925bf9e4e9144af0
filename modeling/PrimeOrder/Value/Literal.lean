import PrimeOrder.Text.Quoted
import PrimeOrder.Value.Basic

namespace PrimeOrder.Value

/-- Literals with a separator between them. -/
def separated (separator : String) : List String → String
  | [] => ""
  | [item] => item
  | item :: rest => item ++ separator ++ separated separator rest

/-- A record as a literal: its name and its fields. -/
def recordLiteral (name : String) (fields : List (String × String)) : String :=
  name ++ "(" ++ separated ", " (fields.map fun f => f.1 ++ "=" ++ f.2) ++ ")"

/-- A record with fields that may have no literal. -/
def recordLiteral? (name : String) (fields : List (String × Option String)) : Option String := do
  let literals ← fields.mapM Prod.snd
  pure (recordLiteral name ((fields.map Prod.fst).zip literals))

/-- A field as a literal. -/
def fieldLiteral (F : PrimeField) : String :=
  "GF(" ++ toString F.modulus ++ ")"

/-- A field element as a literal. -/
def fieldElementLiteral (x : FieldElement) : String :=
  "PrimeFieldElement(" ++ toString x.value ++ ", " ++ fieldLiteral x.field ++ ")"

/-- A curve as a literal. -/
def curveLiteral (C : Curve) : String :=
  "EllipticCurve(" ++ fieldLiteral C.field ++ ", [" ++ toString C.a.value ++ ", " ++
    toString C.b.value ++ "])"

/-- A group element as a literal. -/
def elementLiteral (e : Element) : String :=
  match e with
  | .residue x => elementSort e ++ "(" ++ toString x.value ++ ")"
  | .point P =>
    match P.canonical with
    | none => "Point at infinity"
    | some (x, y) => "(" ++ toString x ++ ", " ++ toString y ++ ")"

/-- Whether the literal of an element would write too long a number. Only residues that are natural
    numbers are written as integers of the library. -/
def isLongElement : Element → Bool
  | .residue x => (x.group.engine.number x.value).isLong
  | .point _ => false

/-- A group element as a literal, unless its number is too long to be written. -/
def elementLiteral? (e : Element) : Option String :=
  if isLongElement e then none else some (elementLiteral e)

/-- A record of parameters as a literal. -/
def parametersLiteral? : ParameterRecord → Option String
  | .residues r =>
    recordLiteral? "ZpGroupParams"
      [("p", r.modulus.literal?), ("q", r.order.literal?), ("g", r.generator.literal?),
        ("name", some (Text.Quoted.ofString r.name))]
  | .curve r =>
    recordLiteral? "CurveParams"
      [("name", some (Text.Quoted.ofString r.name)), ("p", r.modulus.literal?),
        ("a", r.a.literal?), ("b", r.b.literal?), ("gx", r.baseX.literal?),
        ("gy", r.baseY.literal?), ("n", r.order.literal?), ("h", r.cofactor.literal?)]

/-- The literal of a tuple. A single item has a comma behind it. -/
def tupleLiteral : List String → String
  | [item] => "(" ++ item ++ ",)"
  | items => "(" ++ separated ", " items ++ ")"

mutual

/-- The literal that shows a value. -/
def literal? : Value → Option String
  | null => some "None"
  | number x => x.literal?
  | text s => some (Text.Quoted.ofString s)
  | octets bytes => some (Text.Quoted.ofOctets bytes)
  | buffer _ content => some ("bytearray(" ++ Text.Quoted.ofOctets content ++ ")")
  | list items => (literals? items).map fun shown => "[" ++ separated ", " shown ++ "]"
  | tuple items => (literals? items).map tupleLiteral
  | signedOctets data =>
    some (recordLiteral "EncodedInteger"
      [("magnitude", Text.Quoted.ofOctets data.magnitude),
        ("negative", Number.literal (.truth data.negative))])
  | roots first second =>
    recordLiteral? "SquareRootResults" [("root1", first.literal?), ("root2", second.literal?)]
  | element e => elementLiteral? e
  | fieldElement x => some (fieldElementLiteral x)
  | field F => some (fieldLiteral F)
  | curve C => some (curveLiteral C)
  | residueData x => recordLiteral? "ZpElementSendableData" [("x", literal? x)]
  | pointData x y =>
    recordLiteral? "ECElementSendableData" [("x", literal? x), ("y", literal? y)]
  | parameters record => parametersLiteral? record
  | generator position => some ("<generator " ++ toString position ++ ">")
  | group position => some ("<group " ++ toString position ++ ">")
  | table position => some ("<table " ++ toString position ++ ">")

/-- The literals of several values. -/
def literals? : List Value → Option (List String)
  | [] => some []
  | item :: rest => do
    let shown ← literal? item
    let others ← literals? rest
    pure (shown :: others)

end

/-- A value inside a sentence: a text stands for itself and a number for its digits, all else is
    shown as a literal. -/
def inSentence? : Value → Option String
  | text s => some s
  | number x => x.text?
  | v => literal? v

/-- Two values as a pair inside a sentence. -/
def pairInSentence? (v w : Value) : Option String := do
  let first ← v.inSentence?
  let second ← w.inSentence?
  pure ("(" ++ first ++ ", " ++ second ++ ")")

end PrimeOrder.Value
