import PrimeOrder.Text.Blank
import PrimeOrder.Text.Numeral
import PrimeOrder.Text.Quoted

namespace PrimeOrder.Text.Hexadecimal

/-- The value of a hexadecimal digit of either case. -/
def digitValue? (c : Char) : Option Nat :=
  if '0' ≤ c ∧ c ≤ '9' then some (c.toNat - '0'.toNat)
  else if 'a' ≤ c ∧ c ≤ 'f' then some (c.toNat - 'a'.toNat + 10)
  else if 'A' ≤ c ∧ c ≤ 'F' then some (c.toNat - 'A'.toNat + 10)
  else none

/-- The magnitude in a text without sign and mark. -/
def digits? (text : List Char) : Option Nat :=
  if text.isEmpty then none else (text.mapM digitValue?).map (Numeral.value 16)

/-- The magnitude in a text without sign. -/
def magnitude? : List Char → Option Nat
  | '0' :: 'x' :: rest => digits? rest
  | '0' :: 'X' :: rest => digits? rest
  | text => digits? text

/-- The integer in a text without blanks. -/
def integer? : List Char → Option Int
  | '-' :: rest => (magnitude? rest).map (Numeral.signed true)
  | text => (magnitude? text).map (Numeral.signed false)

/-- Reads an integer. -/
def read (text : String) : Except Error Int :=
  match integer? (text.toList.filter fun c => !isBlank c) with
  | some n => .ok n
  | none => .error (.notHexadecimal (Quoted.ofString text))

/-- Writes an integer. -/
def write (n : Int) : String :=
  String.ofList (Numeral.write 16 n)

end PrimeOrder.Text.Hexadecimal
