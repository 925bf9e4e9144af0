import PrimeOrder.Group.Basic

namespace PrimeOrder

/-- The kinds of group that can be built. -/
inductive Backend where
  | residues (engine : Engine)
  | points
  deriving Repr, DecidableEq

namespace Backend

/-- The backends by name, in the order of their names. -/
def named : List (String × Backend) :=
  [("cryptodome-zp", residues .natural), ("gmp-ec", points), ("gmp-zp", residues .signed)]

/-- The backend of a name. -/
def ofName? (name : String) : Option Backend :=
  (named.find? (·.1 == name)).map Prod.snd

/-- The backend that a value names. -/
def ofValue (v : Value) : Except Error Backend :=
  match v.lookedUp with
  | .error e => .error e
  | .ok (.text name) =>
    match ofName? name with
    | some backend => .ok backend
    | none => .error (.unknownBackend (Text.Quoted.ofString name))
  | .ok _ => .error (.showing .unknownBackend v.literal?)

end Backend

/-- What a group is asked for by. -/
structure GroupRequest where
  size : Option Value
  params : Option Value
  deriving Repr

/-- The number of candidates after which the search for a safe prime gives up. It is the number of
    states of a generator, none of which is tried twice before all have been. -/
def searchLimit : Nat := 0x100000000

namespace ResidueParams

/-- The parameters of the first safe prime among the candidates of a source. A candidate is a number
    `q` of one bit less than the size, made odd, and is taken if `q` and `2 * q + 1` are prime. -/
def search {σ : Type} [RandomSource σ] (isPrime : PrimalityTest) (bits : Nat) (s : σ) :
    Nat → Except Error (ResidueParams × σ)
  | 0 => .error (.searchExhausted bits)
  | count + 1 => do
    let low : Int := 1 <<< (bits - 2)
    let (drawn, next) ← RandomSource.draw low (2 * low - 1) s
    let order := drawn + (1 - drawn % 2)
    let modulus := 2 * order + 1
    if isPrime order && isPrime modulus then
      pure (⟨modulus, order, 4, "generated-" ++ toString bits⟩, next)
    else search isPrime bits next count

end ResidueParams

/-- What a search for a safe prime of a size comes to. Each engine has its own. -/
def Engine.search {σ : Type} [RandomSource σ] (engine : Engine) (isPrime : PrimalityTest)
    (bits : Nat) (s : σ) : Except Error (ResidueParams × σ) :=
  match engine with
  | .signed => ResidueParams.search isPrime bits s searchLimit
  | .natural => NaturalResidues.search isPrime bits s searchLimit

namespace ResidueParams

/-- The record for a size in bits: that of a named set, or of a safe prime that is searched. -/
def ofSize {σ : Type} [RandomSource σ] (isPrime : PrimalityTest) (engine : Engine) (size : Value)
    (s : σ) : Except Error (ResidueRecord × σ) := do
  match (← size.lookedUp).integer?.bind ofBits?, size with
  | some params, _ => pure (params.record, s)
  | none, .number bits =>
    if leastGeneratedBits ≤ bits.toInt ∧ bits.toInt ≤ greatestGeneratedBits then
      let (params, next) ← engine.search isPrime bits.toInt.toNat s
      pure (params.record, next)
    else throw (.showing .unsupportedResidueSize size.inSentence?)
  | none, _ => throw (.unordered "<=" "int" size.sort)

/-- The record that a group of residues is asked for by. -/
def ofRequest {σ : Type} [RandomSource σ] (isPrime : PrimalityTest) (engine : Engine)
    (r : GroupRequest) (s : σ) : Except Error (ResidueRecord × σ) :=
  match r.params, r.size with
  | some _, some _ => .error .sizeAndParameters
  | some (.text name), none =>
    match ofName? name with
    | some params => .ok (params.record, s)
    | none => .error (.unknownResidueSet (Text.Quoted.ofString name))
  | some (.parameters (.residues record)), none =>
    if engine.operations.isValid isPrime record.params then .ok (record, s)
    else .error (.invalidResidueSet (Text.Quoted.ofString record.name))
  | some other, none => .error (.showing .unsupportedParameters other.literal?)
  | none, some size => ofSize isPrime engine size s
  | none, none => .ok (oakley1024.record, s)

end ResidueParams

namespace CurveGroup

/-- The group of a curve that has the form every group of points needs. -/
def ofForm (id : Nat) (record : CurveRecord) : Except Error CurveGroup :=
  if hasForm record.params then .ok ⟨id, record⟩
  else .error (.curveForm (Text.Quoted.ofString record.name))

/-- The group of a curve whose parameters are sound. -/
def ofRecord (isPrime : PrimalityTest) (id : Nat) (record : CurveRecord) :
    Except Error CurveGroup := do
  let G ← ofForm id record
  if ← G.validate isPrime then pure G
  else .error (.invalidCurve (Text.Quoted.ofString record.name))

/-- The group of the curve that stands for a size in bits. -/
def ofSize (id : Nat) (size : Value) : Except Error CurveGroup := do
  match (← size.lookedUp).integer?.bind CurveParams.ofBits? with
  | some params => ofForm id params.record
  | none => throw (.showing .unsupportedCurveSize size.inSentence?)

/-- The group of points that is asked for. -/
def ofRequest (isPrime : PrimalityTest) (id : Nat) (r : GroupRequest) : Except Error CurveGroup :=
  match r.params, r.size with
  | some _, some _ => .error .sizeAndParameters
  | some (.text name), none =>
    match CurveParams.ofName? name with
    | some params => ofForm id params.record
    | none => .error (.unknownCurve (Text.Quoted.ofString name))
  | some (.parameters (.curve record)), none => ofRecord isPrime id record
  | some other, none => .error (.showing .unsupportedParameters other.literal?)
  | none, some size => ofSize id size
  | none, none => ofForm id CurveParams.p256.record

end CurveGroup

namespace Group

/-- Builds a group, and draws from the source if a safe prime has to be searched. -/
def build {σ : Type} [RandomSource σ] (isPrime : PrimalityTest) (backend : Backend) (id : Nat)
    (r : GroupRequest) (s : σ) : Except Error (Group × σ) :=
  match backend with
  | .residues engine => do
    let (record, next) ← ResidueParams.ofRequest isPrime engine r s
    pure (.residues ⟨id, engine, record⟩, next)
  | .points => do
    let G ← CurveGroup.ofRequest isPrime id r
    pure (.points G, s)

end Group

end PrimeOrder
