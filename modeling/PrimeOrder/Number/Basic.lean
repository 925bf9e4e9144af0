import PrimeOrder.Text.Numeral

namespace PrimeOrder

/-- An integer in one of its forms. -/
inductive Number where
  /-- A truth value, which stands for one or zero. -/
  | truth (b : Bool)
  /-- An integer of the library. -/
  | integer (n : Int)
  /-- An integer as the arithmetic engine holds it. -/
  | native (n : Int)
  deriving Repr, DecidableEq

instance : Coe Int Number := ⟨Number.integer⟩

namespace Number

/-- The integer that a number stands for. -/
def toInt : Number → Int
  | truth b => if b then 1 else 0
  | integer n => n
  | native n => n

/-- Whether a number has the form of the engine. -/
def isNative : Number → Bool
  | native _ => true
  | _ => false

/-- A result in the form that it takes from its operands. -/
def resultOf (operands : List Number) (n : Int) : Number :=
  if operands.any isNative then native n else integer n

/-- A number inside a sentence. -/
def text : Number → String
  | truth true => "True"
  | truth false => "False"
  | integer n => toString n
  | native n => toString n

/-- A number as a literal. -/
def literal : Number → String
  | native n => "mpz(" ++ toString n ++ ")"
  | x => x.text

/-- Whether a number is too long to be written. The engine writes numbers of any length. -/
def isLong : Number → Bool
  | integer n => Text.Numeral.isLong n
  | _ => false

/-- A number inside a sentence, unless it is too long to be written. -/
def text? (x : Number) : Option String :=
  if x.isLong then none else some x.text

/-- A number as a literal, unless it is too long to be written. -/
def literal? (x : Number) : Option String :=
  if x.isLong then none else some x.literal

@[simp] theorem toInt_integer (n : Int) : (integer n).toInt = n := rfl

@[simp] theorem toInt_resultOf (operands : List Number) (n : Int) :
    (resultOf operands n).toInt = n := by
  unfold resultOf
  split <;> rfl

end Number

end PrimeOrder
