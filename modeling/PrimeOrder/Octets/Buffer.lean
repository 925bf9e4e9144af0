import PrimeOrder.Octets.Basic

namespace PrimeOrder.Octets

/-- The target with the bytes from `offset` on replaced by those of the source. -/
def copyInto (source target : Octets) (offset : Int) : Except Error Octets :=
  if offset < 0 ∨ (target.length : Int) < offset + source.length then .error .sourceDoesNotFit
  else
    let start := offset.toNat
    .ok (target.take start ++ source ++ target.drop (start + source.length))

/-- The bytes of the source from `offset` up to `length`. -/
def copyFrom (source : Octets) (length offset : Int) : Except Error Octets :=
  if (source.length : Int) < length ∨ offset < 0 ∨ length < offset then .error .outsideSource
  else .ok ((source.take length.toNat).drop offset.toNat)

end PrimeOrder.Octets
