import PrimeOrder.Number.Basic

namespace PrimeOrder

/-- A safe prime `modulus = 2 * order + 1` and a generator of the subgroup of that order. -/
structure ResidueParams where
  modulus : Int
  order : Int
  generator : Int
  name : String
  deriving Repr, DecidableEq

/-- A curve `y² = x³ + a * x + b` over the integers modulo a prime, a base point with the order of
    the group it generates, and the cofactor of that group. -/
structure CurveParams where
  name : String
  modulus : Int
  a : Int
  b : Int
  baseX : Int
  baseY : Int
  order : Int
  cofactor : Int
  deriving Repr, DecidableEq

/-- The numbers of a safe prime as they are handed over. -/
structure ResidueRecord where
  modulus : Number
  order : Number
  generator : Number
  name : String
  deriving Repr, DecidableEq

/-- The numbers of a curve as they are handed over. -/
structure CurveRecord where
  name : String
  modulus : Number
  a : Number
  b : Number
  baseX : Number
  baseY : Number
  order : Number
  cofactor : Number
  deriving Repr, DecidableEq

/-- The parameters that a record stands for. -/
def ResidueRecord.params (r : ResidueRecord) : ResidueParams :=
  ⟨r.modulus.toInt, r.order.toInt, r.generator.toInt, r.name⟩

/-- The parameters that a record stands for. -/
def CurveRecord.params (r : CurveRecord) : CurveParams where
  name := r.name
  modulus := r.modulus.toInt
  a := r.a.toInt
  b := r.b.toInt
  baseX := r.baseX.toInt
  baseY := r.baseY.toInt
  order := r.order.toInt
  cofactor := r.cofactor.toInt

/-- The record of parameters. -/
def ResidueParams.record (s : ResidueParams) : ResidueRecord :=
  ⟨.integer s.modulus, .integer s.order, .integer s.generator, s.name⟩

/-- The record of parameters. -/
def CurveParams.record (s : CurveParams) : CurveRecord where
  name := s.name
  modulus := .integer s.modulus
  a := .integer s.a
  b := .integer s.b
  baseX := .integer s.baseX
  baseY := .integer s.baseY
  order := .integer s.order
  cofactor := .integer s.cofactor

@[simp] theorem ResidueParams.params_record (s : ResidueParams) : s.record.params = s := rfl

@[simp] theorem CurveParams.params_record (s : CurveParams) : s.record.params = s := rfl

/-- The number with the given 64-bit words, the most significant first. -/
def ofWords (words : List Nat) : Int :=
  (words.foldl (fun acc word => acc * 0x10000000000000000 + word) 0 : Nat)

namespace ResidueParams

/-- The parameters of a safe prime with the generator four: a square other than one has the order of
    the subgroup. -/
def ofSafePrime (name : String) (modulus : Int) : ResidueParams :=
  ⟨modulus, (modulus - 1) / 2, 4, name⟩

/-- The safe prime of the second Oakley group. -/
def oakley1024 : ResidueParams :=
  ofSafePrime "RFC2409-1024"
    (ofWords [
      0xffffffffffffffff, 0xc90fdaa22168c234, 0xc4c6628b80dc1cd1, 0x29024e088a67cc74,
      0x020bbea63b139b22, 0x514a08798e3404dd, 0xef9519b3cd3a431b, 0x302b0a6df25f1437,
      0x4fe1356d6d51c245, 0xe485b576625e7ec6, 0xf44c42e9a637ed6b, 0x0bff5cb6f406b7ed,
      0xee386bfb5a899fa5, 0xae9f24117c4b1fe6, 0x49286651ece65381, 0xffffffffffffffff])

/-- The safe prime of the fourteenth group of the MODP series. -/
def modp2048 : ResidueParams :=
  ofSafePrime "RFC3526-2048"
    (ofWords [
      0xffffffffffffffff, 0xc90fdaa22168c234, 0xc4c6628b80dc1cd1, 0x29024e088a67cc74,
      0x020bbea63b139b22, 0x514a08798e3404dd, 0xef9519b3cd3a431b, 0x302b0a6df25f1437,
      0x4fe1356d6d51c245, 0xe485b576625e7ec6, 0xf44c42e9a637ed6b, 0x0bff5cb6f406b7ed,
      0xee386bfb5a899fa5, 0xae9f24117c4b1fe6, 0x49286651ece45b3d, 0xc2007cb8a163bf05,
      0x98da48361c55d39a, 0x69163fa8fd24cf5f, 0x83655d23dca3ad96, 0x1c62f356208552bb,
      0x9ed529077096966d, 0x670c354e4abc9804, 0xf1746c08ca18217c, 0x32905e462e36ce3b,
      0xe39e772c180e8603, 0x9b2783a2ec07a28f, 0xb5c55df06f4c52c9, 0xde2bcbf695581718,
      0x3995497cea956ae5, 0x15d2261898fa0510, 0x15728e5a8aacaa68, 0xffffffffffffffff])

/-- The sets that can be asked for by name. -/
def named : List ResidueParams :=
  [oakley1024, modp2048]

/-- The set of a name. -/
def ofName? (name : String) : Option ResidueParams :=
  named.find? (·.name == name)

/-- The set that stands for a size in bits. -/
def ofBits? (bits : Int) : Option ResidueParams :=
  if bits = 1024 then some oakley1024 else if bits = 2048 then some modp2048 else none

/-- The least size for which a safe prime is searched. -/
def leastGeneratedBits : Int := 16

/-- The greatest size for which a safe prime is searched. -/
def greatestGeneratedBits : Int := 512

end ResidueParams

namespace CurveParams

/-- The curve P-256. -/
def p256 : CurveParams where
  name := "P-256"
  modulus := 0xffffffff00000001000000000000000000000000ffffffffffffffffffffffff
  a := 0xffffffff00000001000000000000000000000000fffffffffffffffffffffffc
  b := 0x5ac635d8aa3a93e7b3ebbd55769886bc651d06b0cc53b0f63bce3c3e27d2604b
  baseX := 0x6b17d1f2e12c4247f8bce6e563a440f277037d812deb33a0f4a13945d898c296
  baseY := 0x4fe342e2fe1a7f9b8ee7eb4a7c0f9e162bce33576b315ececbb6406837bf51f5
  order := 0xffffffff00000000ffffffffffffffffbce6faada7179e84f3b9cac2fc632551
  cofactor := 1

/-- The curve P-384. -/
def p384 : CurveParams where
  name := "P-384"
  modulus := ofWords [
    0xffffffffffffffff, 0xffffffffffffffff, 0xffffffffffffffff, 0xfffffffffffffffe,
    0xffffffff00000000, 0x00000000ffffffff]
  a := ofWords [
    0xffffffffffffffff, 0xffffffffffffffff, 0xffffffffffffffff, 0xfffffffffffffffe,
    0xffffffff00000000, 0x00000000fffffffc]
  b := ofWords [
    0xb3312fa7e23ee7e4, 0x988e056be3f82d19, 0x181d9c6efe814112, 0x0314088f5013875a,
    0xc656398d8a2ed19d, 0x2a85c8edd3ec2aef]
  baseX := ofWords [
    0xaa87ca22be8b0537, 0x8eb1c71ef320ad74, 0x6e1d3b628ba79b98, 0x59f741e082542a38,
    0x5502f25dbf55296c, 0x3a545e3872760ab7]
  baseY := ofWords [
    0x3617de4a96262c6f, 0x5d9e98bf9292dc29, 0xf8f41dbd289a147c, 0xe9da3113b5f0b8c0,
    0x0a60b1ce1d7e819d, 0x7a431d7c90ea0e5f]
  order := ofWords [
    0xffffffffffffffff, 0xffffffffffffffff, 0xffffffffffffffff, 0xc7634d81f4372ddf,
    0x581a0db248b0a77a, 0xecec196accc52973]
  cofactor := 1

/-- The curve secp256k1. -/
def secp256k1 : CurveParams where
  name := "secp256k1"
  modulus := 0xfffffffffffffffffffffffffffffffffffffffffffffffffffffffefffffc2f
  a := 0
  b := 7
  baseX := 0x79be667ef9dcbbac55a06295ce870b07029bfcdb2dce28d959f2815b16f81798
  baseY := 0x483ada7726a3c4655da4fbfc0e1108a8fd17b448a68554199c47d08ffb10d4b8
  order := 0xfffffffffffffffffffffffffffffffebaaedce6af48a03bbfd25e8cd0364141
  cofactor := 1

/-- The curves that can be asked for by name. -/
def named : List CurveParams :=
  [p256, p384, secp256k1]

/-- The curve of a name. -/
def ofName? (name : String) : Option CurveParams :=
  named.find? (·.name == name)

/-- The curve that stands for a size in bits. -/
def ofBits? (bits : Int) : Option CurveParams :=
  if bits = 256 then some p256 else if bits = 384 then some p384 else none

end CurveParams

end PrimeOrder
