import PrimeOrder.Text.Blank
import PrimeOrder.Text.DecimalDigit
import PrimeOrder.Text.Numeral
import PrimeOrder.Text.Quoted

namespace PrimeOrder.Text.Decimal

/-- The values of digits, of which any two neighbours may be separated by an underscore. -/
def digits? : List Char → Option (List Nat)
  | [] => none
  | [c] => (digitValue? c).map ([·])
  | c :: '_' :: rest => do
    let digit ← digitValue? c
    let digits ← digits? rest
    pure (digit :: digits)
  | c :: rest => do
    let digit ← digitValue? c
    let digits ← digits? rest
    pure (digit :: digits)

/-- The magnitude in a text without sign, if it has not too many digits. -/
def magnitude? (text : List Char) : Option Nat :=
  (digits? text).bind fun digits =>
    if digits.length ≤ Numeral.digitLimit then some (Numeral.value 10 digits) else none

/-- The integer in a text without blanks around it. -/
def integer? : List Char → Option Int
  | '-' :: rest => (magnitude? rest).map (Numeral.signed true)
  | '+' :: rest => (magnitude? rest).map (Numeral.signed false)
  | text => (magnitude? text).map (Numeral.signed false)

/-- Reads an integer. -/
def read (text : String) : Except Error Int :=
  match integer? (trim text.toList) with
  | some n => .ok n
  | none => .error (.notDecimal (Quoted.ofString text))

/-- Writes an integer. -/
def write (n : Int) : Except Error String :=
  if Numeral.isLong n then .error .decimalTooLong else .ok (String.ofList (Numeral.write 10 n))

end PrimeOrder.Text.Decimal
