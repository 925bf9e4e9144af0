import PrimeOrder.Group.NaturalResidues
import PrimeOrder.Group.SignedResidues

namespace PrimeOrder

/-- What the groups of an engine compute, with the numbers of their elements. -/
structure ResidueOperations where
  isValid : PrimalityTest → ResidueParams → Bool
  inSubgroup : ResidueParams → Int → Bool
  generate : ResidueParams → Bool → Int → Except Error Int
  mul : ResidueParams → Int → Int → Int
  inverse : ResidueParams → Int → Except Error Int
  power : ResidueParams → Int → Int → Int
  encodingLimit : ResidueParams → Nat
  encode : ResidueParams → Octets → Except Error Int
  decode : ResidueParams → Int → Except Error Octets
  image : ResidueParams → Int → Except Error Octets

/-- The operations of an engine. Each has its own arithmetic. -/
def Engine.operations : Engine → ResidueOperations
  | .signed =>
    ⟨ResidueParams.isValid, SignedResidues.inSubgroup, SignedResidues.generate, SignedResidues.mul,
      SignedResidues.inverse, SignedResidues.power, SignedResidues.encodingLimit,
      SignedResidues.encode, SignedResidues.decode, SignedResidues.image⟩
  | .natural =>
    ⟨NaturalResidues.isValid, NaturalResidues.inSubgroup, NaturalResidues.generate,
      NaturalResidues.mul, NaturalResidues.inverse, NaturalResidues.power,
      NaturalResidues.encodingLimit, NaturalResidues.encode, NaturalResidues.decode,
      NaturalResidues.image⟩

namespace ResidueGroup

/-- The operations of the engine of a group. -/
abbrev operations (G : ResidueGroup) : ResidueOperations :=
  G.engine.operations

/-- Whether the parameters are sound. -/
def isValid (isPrime : PrimalityTest) (G : ResidueGroup) : Bool :=
  G.operations.isValid isPrime G.params

/-- The residue that is one. -/
def identity (G : ResidueGroup) : Residue :=
  ⟨G, 1⟩

/-- The generator of the parameters. -/
def generator (G : ResidueGroup) : Residue :=
  ⟨G, G.params.generator⟩

/-- Whether a residue was made by this very group. -/
def owns (G : ResidueGroup) (x : Residue) : Bool :=
  x.group == G

/-- Whether a number is a residue other than zero and a square. -/
def inSubgroup (G : ResidueGroup) (n : Int) : Bool :=
  G.operations.inSubgroup G.params n

/-- The product of two residues. -/
def mul (G : ResidueGroup) (x y : Residue) : Residue :=
  ⟨G, G.operations.mul G.params x.value y.value⟩

/-- The inverse of a residue. -/
def inverse (G : ResidueGroup) (x : Residue) : Except Error Residue :=
  (G.operations.inverse G.params x.value).map (Residue.mk G)

/-- The exponent from zero up to the order that gives the same powers of members. -/
def reduceExponent (G : ResidueGroup) (k : Int) : Int :=
  k.fmod G.params.order

/-- The power of a residue by the reduced exponent. -/
def power (G : ResidueGroup) (x : Residue) (k : Int) : Residue :=
  ⟨G, G.operations.power G.params x.value (G.reduceExponent k)⟩

/-- The residue of a number in `[1, p)`, which has to be in the subgroup if that is checked. -/
def generate (G : ResidueGroup) (check : Bool) (n : Int) : Except Error Residue :=
  (G.operations.generate G.params check n).map (Residue.mk G)

/-- The element for a drawn number: its square. -/
def ofDraw (G : ResidueGroup) (root : Int) : Except Error Residue := do
  let held ← G.engine.hold root
  pure ⟨G, G.operations.mul G.params held held⟩

/-- The element for a number drawn from `[1, p)`. -/
def random {σ : Type} [RandomSource σ] (G : ResidueGroup) (s : σ) :
    Except Error (Residue × σ) := do
  let (root, next) ← RandomSource.draw 1 (G.params.modulus - 1) s
  let x ← G.ofDraw root
  pure (x, next)

/-- The greatest number of bytes that one element can encode. -/
def encodingLimit (G : ResidueGroup) : Nat :=
  G.operations.encodingLimit G.params

/-- The element that encodes a byte string. -/
def encode (G : ResidueGroup) (data : Octets) : Except Error Residue :=
  (G.operations.encode G.params data).map (Residue.mk G)

/-- The byte string that an element encodes. -/
def decode (G : ResidueGroup) (x : Residue) : Except Error Octets :=
  G.operations.decode G.params x.value

/-- The bytes of an element in the width of the modulus. -/
def image (G : ResidueGroup) (x : Residue) : Except Error Octets :=
  G.operations.image G.params x.value

end ResidueGroup

end PrimeOrder
