import PrimeOrder.Octets.Signed
import PrimeOrder.Text.Decimal

namespace PrimeOrder.Number

/-- The decimal text of a number. -/
def decimal (x : Number) : Except Error String :=
  match x with
  | integer n => Text.Decimal.write n
  | _ => .ok x.text

/-- Writes a number into exactly `length` bytes, or into as few as hold it. -/
def encode (x : Number) (length : Option Number) : Except Error SignedOctets :=
  match SignedOctets.encode x.toInt (length.map toInt), length with
  | .error (.bufferTooShort _ needed), some length => .error (.bufferTooShort length needed)
  | outcome, _ => outcome

end PrimeOrder.Number
