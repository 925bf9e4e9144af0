import PrimeOrder.Integer.Size

namespace PrimeOrder.Window

/-- A multiplication that may refuse its operands, and its neutral element. -/
structure Law (α : Type) where
  one : α
  mul : α → α → Except Error α

/-- The width of the window for exponents of a number of bits. -/
def widthFor (bits : Int) : Nat :=
  if bits ≤ 32 then 2 else if bits ≤ 128 then 3 else if bits ≤ 512 then 4 else 5

/-- The digit of an exponent in the window that starts at bit `shift`. -/
def digit (width shift exponent : Nat) : Nat :=
  (exponent >>> shift) % (1 <<< width)

namespace Law

variable {α : Type} (L : Law α)

/-- The next `count` products of `last` by a base. -/
def continuePowers (base last : α) : Nat → Except Error (List α)
  | 0 => .ok []
  | count + 1 => do
    let next ← L.mul last base
    let rest ← continuePowers base next count
    pure (next :: rest)

/-- The powers of a base for all digits of a window: the neutral element, the base and the products
    after it. -/
def powers (base : α) (width : Nat) : Except Error (List α) := do
  let rest ← L.continuePowers base base (1 <<< width - 2)
  pure (L.one :: base :: rest)

/-- Multiplies by the power that belongs to a digit. The digit zero costs nothing. -/
def mulDigit (row : List α) (digit : Nat) (x : α) : Except Error α :=
  if digit = 0 then .ok x else L.mul x (row.getD digit L.one)

end Law

end PrimeOrder.Window
