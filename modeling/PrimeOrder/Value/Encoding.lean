import PrimeOrder.Value.Basic

namespace PrimeOrder.Value

/-- The sign that a value gives besides a recorded one, if it gives one. What is neither zero nor
    one agrees with no sign. -/
def signBeside (v : Value) (recorded : Bool) : Option Bool :=
  match v with
  | null => none
  | number x => some (if x.toInt = (Number.truth recorded).toInt then recorded else !recorded)
  | _ => some !recorded

/-- The integer that a value encodes in its first `length` bytes, or in all of them, if it holds
    bytes. -/
def decode? (data : Value) (length : Option Int) (negative : Value) : Option (Except Error Int) :=
  match data with
  | signedOctets data => some (data.decode length (negative.signBeside data.negative))
  | _ => data.octets?.map fun magnitude => SignedOctets.read magnitude negative.truth length

end PrimeOrder.Value
