import PrimeOrder.Octets.Basic

namespace PrimeOrder

/-- The magnitude of an integer in bytes, and its sign. -/
structure SignedOctets where
  magnitude : Octets
  negative : Bool
  deriving Repr, DecidableEq

namespace SignedOctets

/-- Writes an integer into exactly `length` bytes, or into as few as hold it. -/
def encode (value : Int) (length : Option Int) : Except Error SignedOctets :=
  let needed := Integer.byteLength value
  let width := length.getD needed
  if width < needed then .error (.bufferTooShort (.integer width) needed)
  else do
    let magnitude ← Octets.ofInteger value.natAbs width
    pure ⟨magnitude, decide (value < 0)⟩

/-- The first bytes of a magnitude. A negative length drops as many bytes from the end. -/
def leading (magnitude : Octets) (length : Int) : Octets :=
  if 0 ≤ length then magnitude.take length.toNat
  else magnitude.take (magnitude.length - length.natAbs)

/-- The integer in the first `length` bytes of a magnitude, or in all of them. -/
def read (magnitude : Octets) (negative : Bool) (length : Option Int) : Except Error Int :=
  let signed (octets : Octets) : Int := if negative then -(octets.value : Int) else octets.value
  match length with
  | none => .ok (signed magnitude)
  | some length =>
    if (magnitude.length : Int) < length then .error .missingOctets
    else .ok (signed (leading magnitude length))

/-- The integer that was encoded. A sign given besides has to agree with the recorded one. -/
def decode (data : SignedOctets) (length : Option Int) (negative : Option Bool) :
    Except Error Int :=
  if negative.all (· == data.negative) then read data.magnitude data.negative length
  else .error .conflictingSign

end SignedOctets

end PrimeOrder
