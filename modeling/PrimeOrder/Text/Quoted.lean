import PrimeOrder.Octets.Basic
import PrimeOrder.Text.Printable

namespace PrimeOrder.Text.Quoted

/-- The quote character to put around a text. -/
def delimiter (text : List Char) : Char :=
  if text.contains '\'' && !text.contains '"' then '"' else '\''

/-- The lower-case hexadecimal digits of a number, led by zeros to a width. -/
def paddedHex (width n : Nat) : List Char :=
  let digits := Nat.toDigits 16 n
  List.replicate (width - digits.length) '0' ++ digits

/-- The escape of a code point: `\x`, `\u` or `\U` and its digits. -/
def escapeCode (n : Nat) : List Char :=
  if n ≤ 0xff then '\\' :: 'x' :: paddedHex 2 n
  else if n ≤ 0xffff then '\\' :: 'u' :: paddedHex 4 n
  else '\\' :: 'U' :: paddedHex 8 n

/-- One character inside quotes, given which characters are shown as they are. -/
def escape (shown : Char → Bool) (quote c : Char) : List Char :=
  if c = '\\' ∨ c = quote then ['\\', c]
  else if c = '\n' then ['\\', 'n']
  else if c = '\r' then ['\\', 'r']
  else if c = '\t' then ['\\', 't']
  else if shown c then [c]
  else escapeCode c.toNat

/-- A text between quotes. -/
def quote (shown : Char → Bool) (text : List Char) : List Char :=
  let mark := delimiter text
  mark :: text.flatMap (escape shown mark) ++ [mark]

/-- A string as a literal. -/
def ofString (text : String) : String :=
  String.ofList (quote isPrintable text.toList)

/-- A byte string as a literal: bytes in the printable range of ASCII are shown as characters. -/
def ofOctets (octets : Octets) : String :=
  let shown (c : Char) : Bool := decide (32 ≤ c.toNat ∧ c.toNat < 127)
  String.ofList ('b' :: quote shown (octets.map fun octet => Char.ofNat octet.toNat))

end PrimeOrder.Text.Quoted
