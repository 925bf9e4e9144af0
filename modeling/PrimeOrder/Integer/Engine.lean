import PrimeOrder.Error

namespace PrimeOrder

/-- The integers that a residue group computes with. The groups of two engines have no element in
    common. -/
inductive Engine where
  /-- Integers of either sign. -/
  | signed
  /-- Natural numbers only. -/
  | natural
  deriving Repr, DecidableEq

/-- An integer as an engine holds it, if it can. -/
def Engine.hold (engine : Engine) (n : Int) : Except Error Int :=
  match engine with
  | .signed => .ok n
  | .natural => if n < 0 then .error .negativeNatural else .ok n

/-- An integer in the form in which an engine shows it. The natural numbers are shown as integers of
    the library. -/
def Engine.number (engine : Engine) (n : Int) : Number :=
  match engine with
  | .signed => .native n
  | .natural => .integer n

end PrimeOrder
