import PrimeOrder.Random.Generator

namespace PrimeOrder

/-- A state from which integers of a closed range can be drawn. -/
class RandomSource (σ : Type) where
  /-- Draws a number from `low` to `high` and gives the next state. -/
  draw : (low high : Int) → σ → Except Error (Int × σ)

instance : RandomSource Generator where
  draw := Generator.between

namespace RandomSource

/-- Whether every draw from a non-empty range succeeds and stays in the range. -/
def StaysInRange (σ : Type) [RandomSource σ] : Prop :=
  ∀ (low high : Int) (s : σ), low ≤ high →
    ∃ drawn next, draw low high s = .ok (drawn, next) ∧ low ≤ drawn ∧ drawn ≤ high

/-- Draws a number from a range that has to be non-empty. -/
def integerBetween {σ : Type} [RandomSource σ] (low high : Int) (s : σ) :
    Except Error (Int × σ) :=
  if high < low then .error .emptyRange else draw low high s

/-- The letters and digits of ASCII. -/
def alphanumeric : List UInt8 :=
  "abcdefghijklmnopqrstuvwxyzABCDEFGHIJKLMNOPQRSTUVWXYZ0123456789".toList.map
    fun c => UInt8.ofNat c.toNat

/-- Draws `count` letters and digits. -/
def alphanumericOctets {σ : Type} [RandomSource σ] (s : σ) :
    Nat → Except Error (List UInt8 × σ)
  | 0 => .ok ([], s)
  | count + 1 => do
    let (position, next) ← draw 0 (alphanumeric.length - 1) s
    let (rest, last) ← alphanumericOctets next count
    pure (alphanumeric.getD position.toNat 0 :: rest, last)

/-- Draws a non-negative number of letters and digits. -/
def randomOctets {σ : Type} [RandomSource σ] (count : Int) (s : σ) :
    Except Error (List UInt8 × σ) :=
  if count < 0 then .error .negativeLength else alphanumericOctets s count.toNat

end RandomSource

end PrimeOrder
