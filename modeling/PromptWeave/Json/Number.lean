import PromptWeave.Decimal.Text
import PromptWeave.Json.Token
import PromptWeave.Words

/-!
# Numbers of JSON

An integer that fits into 64 bits, with a sign or without, stays an integer. Any other number is a
double: the leading digits that fit into 64 bits, times or divided by a power of ten. A number beyond
the range of doubles is refused.
-/
namespace PromptWeave.Json

/-- A number. -/
inductive Number where
  | integer (n : Int)
  | float (x : Float)
  deriving Repr, BEq

/-- The largest number of 64 bits. -/
def maxWord : Nat := words64 - 1

/-- The leading digits of a number and the power of ten that they are short of. -/
structure Scaled where
  significand : Nat
  exponent : Int
  deriving Repr, BEq

namespace Scaled

/-- Takes digits before the point. From the first one on that does not fit, they only count. -/
def takeWhole (s : Scaled) : List Char → Scaled
  | [] => s
  | d :: rest =>
      let next := s.significand * 10 + (d.toNat - '0'.toNat)
      if next ≤ maxWord then takeWhole { s with significand := next } rest
      else { s with exponent := s.exponent + (rest.length + 1) }

/-- Takes digits after the point. From the first one on that does not fit, they are dropped. -/
def takeFraction (s : Scaled) : List Char → Scaled
  | [] => s
  | d :: rest =>
      let next := s.significand * 10 + (d.toNat - '0'.toNat)
      if next ≤ maxWord then takeFraction ⟨next, s.exponent - 1⟩ rest else s

/-- The power of ten as a double; `n` is at most 308. -/
def powerOfTen (n : Nat) : Float := Decimal.ofDecimal false 1 n

/-- A double divided by a power of ten, in steps that are themselves doubles. `rounds` bounds the
steps; after three of them nothing is left of any significand. -/
def divideByPower (x : Float) : (rounds : Nat) → Nat → Float
  | 0, _ => x
  | rounds + 1, n =>
      if n ≤ 308 then x / powerOfTen n
      else if x == 0.0 then x
      else divideByPower (x / powerOfTen 308) rounds (n - 308)

/-- The double that digits and a power of ten stand for, unless it is out of range. -/
def toFloat? (s : Scaled) : Option Float :=
  let x := s.significand.toFloat
  if s.exponent < 0 then some (divideByPower x 4 s.exponent.natAbs)
  else if s.exponent ≤ 308 then
    let y := x * powerOfTen s.exponent.natAbs
    if y.isInf then none else some y
  else if x == 0.0 then some x else none

end Scaled

namespace Numeral

/-- Whether a number is written without a point and an exponent. -/
def isWhole (n : Numeral) : Bool := n.fraction.isEmpty && n.exponent.isNone

/-- The largest exponent that is read as one. -/
def maxExponent : Nat := greatestInt32.toNat

/-- The double that a number stands for, unless it is out of range. -/
def toFloat? (n : Numeral) : Option Float :=
  let digits := (Scaled.takeWhole ⟨0, 0⟩ n.whole).takeFraction n.fraction
  let magnitude :=
    match n.exponent with
    | none => digits.toFloat?
    | some (negative, ds) =>
        let e := Decimal.digitsValue ds
        if e ≤ maxExponent then
          { digits with exponent := if negative then digits.exponent - e else digits.exponent + e }.toFloat?
        else if negative || digits.significand == 0 then some 0.0
        else none
  magnitude.map fun x => if n.negative then -x else x

/-- The natural number that is written as one and fits into 64 bits. A sign is not allowed. -/
def toWord? (n : Numeral) : Option Nat :=
  let value := Decimal.digitsValue n.whole
  if n.isWhole && !n.negative && value ≤ maxWord then some value else none

/-- The number that is written, unless it is out of range. -/
def toNumber? (n : Numeral) : Option Number :=
  let value := Decimal.digitsValue n.whole
  if n.isWhole && !n.negative && value ≤ maxWord then some (.integer value)
  else if n.isWhole && n.negative && value != 0 && leastInt64 ≤ -(value : Int) then
    some (.integer (-value))
  else n.toFloat?.map .float

end Numeral
end PromptWeave.Json
