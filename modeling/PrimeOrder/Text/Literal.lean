import PrimeOrder.Error
import PrimeOrder.Text.Decimal
import PrimeOrder.Text.Hexadecimal

namespace PrimeOrder.Text.Literal

/-- The number that a row of digits stands for to a base. -/
def digits? (base : Nat) (text : List Char) : Option Nat :=
  if text.isEmpty then none
  else
    (text.mapM fun c => (Hexadecimal.digitValue? c).filter (· < base)).map (Numeral.value base)

/-- The base that a letter marks. -/
def markedBase? (mark : Char) : Option Nat :=
  if mark = 'b' ∨ mark = 'B' then some 2
  else if mark = 'o' ∨ mark = 'O' then some 8
  else if mark = 'x' ∨ mark = 'X' then some 16
  else none

/-- The magnitude in a text without sign. It is decimal unless a zero and a letter mark another
    base. -/
def magnitude? : List Char → Option Nat
  | '0' :: mark :: rest =>
    match markedBase? mark with
    | some base => digits? base rest
    | none => digits? 10 ('0' :: mark :: rest)
  | text => digits? 10 text

/-- A text without the sign at its front, and whether that is the negative one. -/
def splitSign : List Char → Bool × List Char
  | '-' :: rest => (true, rest)
  | '+' :: rest => (false, rest)
  | text => (false, text)

/-- Whether a character is passed over in a marked literal. -/
def isPassedOver (c : Char) : Bool :=
  c == '_' || c == ' ' || decide (9 ≤ c.toNat ∧ c.toNat ≤ 13)

/-- Reads an integer to the base that it marks. Blanks and underscores are passed over. -/
def readMarked (text : List Char) : Except Error Int :=
  let (negative, digits) := splitSign (text.filter fun c => !isPassedOver c)
  match magnitude? digits with
  | some magnitude => .ok (Numeral.signed negative magnitude)
  | none => .error .invalidDigits

/-- Reads an integer to the base that it marks from a text of ASCII characters. -/
def readMarkedText (text : String) : Except Error Int :=
  if text.toList.any fun c => decide (128 ≤ c.toNat) then .error .notAscii
  else readMarked text.toList

/-- The failure of a text that is no decimal integer, or is one of too many digits. What is shown of
    it is cut off. -/
def decimalRefusal (text : List Char) (shown : String) : Error :=
  match Decimal.digits? (splitSign (trim text)).2 with
  | some digits => .decimalTextTooLong digits.length
  | none => .notIntegerLiteral (String.ofList (shown.toList.take 200))

/-- Reads a decimal integer. -/
def readDecimal (text : String) : Except Error Int :=
  match Decimal.integer? (trim text.toList) with
  | some n => .ok n
  | none => .error (decimalRefusal text.toList (Quoted.ofString text))

/-- The characters of a byte string, unless one of them is no character of a decimal integer in
    ASCII. The information separators are blanks in a text only. -/
def asciiText? (bytes : Octets) : Option (List Char) :=
  bytes.mapM fun octet =>
    if octet < 28 ∨ 32 ≤ octet ∧ octet < 128 then some (Char.ofNat octet.toNat) else none

/-- Reads a decimal integer from bytes. -/
def readDecimalOctets (bytes : Octets) : Except Error Int :=
  let text := (asciiText? bytes).getD []
  match Decimal.integer? (trim text) with
  | some n => .ok n
  | none => .error (decimalRefusal text (Quoted.ofOctets bytes))

end PrimeOrder.Text.Literal
