import PrimeOrder.Integer.Size

namespace PrimeOrder

/-- A string of bytes, the most significant first. -/
abbrev Octets := List UInt8

namespace Octets

/-- The last `length` bytes of the expansion of `n`, put before `tail`. -/
def writeBefore (tail : Octets) (n : Nat) : Nat → Octets
  | 0 => tail
  | length + 1 => writeBefore (UInt8.ofNat n :: tail) (n / 256) length

/-- The natural number a byte string stands for. -/
def value (octets : Octets) : Nat :=
  octets.foldl (fun acc octet => acc * 256 + octet.toNat) 0

/-- The bytes of a natural number, as few as hold it. -/
def ofNat (n : Nat) : Octets :=
  writeBefore [] n (Integer.byteLength n)

/-- The bytes of a natural number in exactly `length` bytes. -/
def ofNatOfLength (n length : Nat) : Except Error Octets :=
  if Integer.byteLength n ≤ length then .ok (writeBefore [] n length)
  else .error .tooLargeForLength

/-- The least length whose power of 256 is not yet zero as a binary64 number. -/
def leastBoundedLength : Int := -134

/-- The least magnitude of an integer that no binary64 number is near enough to. -/
def floatBound : Int := (1 <<< 1024) - (1 <<< 970)

/-- The bytes of an integer in exactly `length` bytes. For a negative length there is no such
    string: the bound `256 ^ length` is a binary64 number, if the length itself fits one. Zero is
    below that bound until the power vanishes, and then fails for its length. -/
def ofInteger (n length : Int) : Except Error Octets :=
  if n < 0 then .error .tooLargeForLength
  else if 0 ≤ length then ofNatOfLength n.toNat length.toNat
  else if length ≤ -floatBound then .error .doesNotFitFloat
  else if n = 0 ∧ leastBoundedLength ≤ length then .error .negativeOctetCount
  else .error .tooLargeForLength

theorem length_writeBefore (tail : Octets) (n length : Nat) :
    (writeBefore tail n length).length = length + tail.length := by
  induction length generalizing tail n with
  | zero => simp [writeBefore]
  | succ length ih => simp [writeBefore, ih]; omega

theorem value_append_singleton (octets : Octets) (octet : UInt8) :
    value (octets ++ [octet]) = value octets * 256 + octet.toNat := by
  simp [value, List.foldl_append]

end Octets

end PrimeOrder
