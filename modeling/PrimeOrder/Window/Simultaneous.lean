import PrimeOrder.Window.Powers

namespace PrimeOrder.Window.Law

variable {α : Type} (L : Law α)

/-- Squares `count` times. -/
def square (x : α) : Nat → Except Error α
  | 0 => .ok x
  | count + 1 => do
    let squared ← L.mul x x
    square squared count

/-- Squares the product so far once for each bit of a window. There is nothing to square before the
    first digit other than zero. -/
def shift (width : Nat) : Option α → Except Error (Option α)
  | none => .ok none
  | some x => do
    let squared ← L.square x width
    pure (some squared)

/-- Multiplies the product so far by the powers that belong to the digits of all exponents in one
    window. The first digit other than zero starts the product. -/
def mulDigits (width start : Nat) (x : Option α) : List (List α × Nat) → Except Error (Option α)
  | [] => .ok x
  | (row, exponent) :: rest =>
    let d := digit width start exponent
    if d = 0 then mulDigits width start x rest
    else do
      let product ← L.mul (x.getD L.one) (row.getD d L.one)
      mulDigits width start (some product) rest

/-- Goes through the lowest `count` windows from the greatest down: squares once for each bit of a
    window and multiplies by the powers of its digits. -/
def descend (width : Nat) (rows : List (List α × Nat)) (x : Option α) : Nat → Except Error α
  | 0 => .ok (x.getD L.one)
  | count + 1 => do
    let squared ← L.shift width x
    let product ← L.mulDigits width (count * width) squared rows
    descend width rows product count

/-- The rows of small powers of all bases, each beside its exponent. -/
def rowsOf (width : Nat) : List (α × Nat) → Except Error (List (List α × Nat))
  | [] => .ok []
  | (base, exponent) :: rest => do
    let row ← L.powers base width
    let rows ← rowsOf width rest
    pure ((row, exponent) :: rows)

/-- The number of bits of the greatest exponent. -/
def greatestLength (terms : List (α × Nat)) : Nat :=
  terms.foldl (fun acc term => Nat.max acc (Integer.bitLength term.2)) 0

/-- The product of the powers of bases. -/
def productOfPowers (terms : List (α × Nat)) : Except Error α :=
  let bits := greatestLength terms
  if bits = 0 then .ok L.one
  else do
    let width := widthFor bits
    let rows ← L.rowsOf width terms
    L.descend width rows none ((bits + width - 1) / width)

end PrimeOrder.Window.Law
