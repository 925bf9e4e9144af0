import PrimeOrder.Value.Basic

namespace PrimeOrder.Value

/-- Whether two values are equal that hold no values and of which at most one is a group element. -/
def sameScalar : Value → Value → Bool
  | null, null => true
  | number x, number y => x.toInt == y.toInt
  | fieldElement x, fieldElement y => x == y
  | fieldElement x, number y => x.equalsInt y.toInt
  | number x, fieldElement y => y.equalsInt x.toInt
  | text s, text t => s == t
  | octets s, octets t => s == t
  | octets s, buffer _ t => s == t
  | buffer _ s, octets t => s == t
  | buffer _ s, buffer _ t => s == t
  | signedOctets s, signedOctets t => s == t
  | roots x y, roots x' y' => x.toInt == x'.toInt && y.toInt == y'.toInt
  | parameters s, parameters t => s.params == t.params
  | generator i, generator j => i == j
  | group i, group j => i == j
  | table i, table j => i == j
  | _, _ => false

mutual

/-- Whether two values are equal. -/
def equals (v w : Value) : Except Error Bool :=
  match v, w with
  | element e, element f => e.equals f
  | list vs, list ws => equalItems vs ws
  | tuple vs, tuple ws => equalItems vs ws
  | residueData x, residueData y => equals x y
  | pointData x y, pointData x' y' => do
    if ← equals x x' then equals y y' else pure false
  | v, w => .ok (v.sameScalar w)

/-- Whether the items of two sequences are equal, one by one. -/
def equalItems (vs ws : List Value) : Except Error Bool :=
  match vs, ws with
  | [], [] => .ok true
  | v :: vs, w :: ws => do
    if ← equals v w then equalItems vs ws else pure false
  | _, _ => .ok false

end

/-- Whether a value equals one of several. -/
def occursIn (v : Value) : List Value → Except Error Bool
  | [] => .ok false
  | w :: rest => do
    if ← v.equals w then pure true else occursIn v rest

/-- The values of a list without those that equal an earlier one, put behind those seen so far. -/
def distinctFrom (seen : List Value) : List Value → Except Error (List Value)
  | [] => .ok seen
  | v :: rest => do
    let isKnown ← v.occursIn seen
    distinctFrom (if isKnown then seen else seen ++ [v]) rest

/-- The values of a list without those that equal an earlier one. -/
def distinct (items : List Value) : Except Error (List Value) :=
  distinctFrom [] items

end PrimeOrder.Value
