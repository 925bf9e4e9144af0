namespace PrimeOrder.Text.Numeral

/-- The number a row of digits stands for. -/
def value (base : Nat) (digits : List Nat) : Nat :=
  digits.foldl (fun acc digit => acc * base + digit) 0

/-- A magnitude with a sign put on it. -/
def signed (negative : Bool) (magnitude : Nat) : Int :=
  if negative then -(magnitude : Int) else magnitude

/-- The digits of an integer after its sign. Only negative numbers have one. -/
def write (base : Nat) (n : Int) : List Char :=
  let digits := Nat.toDigits base n.natAbs
  if n < 0 then '-' :: digits else digits

/-- The greatest number of digits of a decimal numeral. -/
def digitLimit : Nat := 4300

/-- Whether an integer has more digits than a decimal numeral may have. -/
def isLong (n : Int) : Bool :=
  decide (digitLimit < (Nat.toDigits 10 n.natAbs).length)

theorem value_append_singleton (base : Nat) (digits : List Nat) (digit : Nat) :
    value base (digits ++ [digit]) = value base digits * base + digit := by
  simp [value, List.foldl_append]

end PrimeOrder.Text.Numeral
