import PrimeOrder.Window.Powers

namespace PrimeOrder.Window

/-- The rows built so far and the base of the next row. -/
structure Table (α : Type) where
  width : Int
  rows : List (List α)
  pending : α
  deriving Repr

namespace Table

variable {α : Type} (L : Law α)

/-- The table of a base without rows. -/
def empty (base : α) (width : Int) : Table α :=
  ⟨width, [], base⟩

/-- Adds the next row and prepares the one after it. -/
def addRow (width : Nat) (t : Table α) : Except Error Unit × Table α :=
  match L.powers t.pending width with
  | .error e => (.error e, t)
  | .ok row =>
    let grown := { t with rows := t.rows ++ [row] }
    match L.mul (row.getLastD t.pending) t.pending with
    | .error e => (.error e, grown)
    | .ok next => (.ok (), { grown with pending := next })

/-- Adds `count` rows, or as many as can be added. -/
def addRows (width : Nat) (t : Table α) : Nat → Except Error Unit × Table α
  | 0 => (.ok (), t)
  | count + 1 =>
    match addRow L width t with
    | (.error e, grown) => (.error e, grown)
    | (.ok (), grown) => addRows width grown count

/-- Multiplies by the entry of each row that belongs to a digit of the exponent, the lowest digit
    first. -/
def mulRows (width exponent : Nat) (x : α) : List (List α) → Except Error α
  | [] => .ok x
  | row :: rest => do
    let product ← L.mulDigit row (digit width 0 exponent) x
    mulRows width (exponent >>> width) product rest

/-- A power of the base, and the table with the rows that were added for it. -/
def power (t : Table α) (exponent : Int) : Except Error α × Table α :=
  if exponent < 0 then (.error .unreducedExponent, t)
  else if t.width = 0 then (.error .zeroWindow, t)
  else if t.width < 0 then (.error .negativeShift, t)
  else
    let width := t.width.toNat
    let needed := (Integer.bitLength exponent + width - 1) / width
    match addRows L width t (needed - t.rows.length) with
    | (.error e, grown) => (.error e, grown)
    | (.ok (), grown) => (mulRows L width exponent.toNat L.one grown.rows, grown)

end Table

end PrimeOrder.Window
