import PromptWeave.Decimal.Text
import PromptWeave.Words

/-!
# Doubles with a total order

A double that is not a number has a sign, too. Arithmetic hands it on, and only the total order of
doubles shows it: those with a minus stand before all numbers and the others after them.
-/
namespace PromptWeave.Decimal

/-- The double nearest to an integer, of two equally near ones that with an even mantissa. -/
def nearestFloat (n : Int64) : Float :=
  if n < 0 then -(-n).toUInt64.toFloat else n.toUInt64.toFloat

/-- A double, and the sign that it has if it is not a number. -/
structure Double where
  value : Float
  /-- Whether what is not a number has a minus; a number keeps its sign in its value. -/
  minus : Bool := false
  deriving Inhabited

namespace Double

/-- A double that is a number. -/
def ofFloat (x : Float) : Double := { value := x }

/-- The double nearest to an integer. -/
def ofInt64 (n : Int64) : Double := ofFloat (nearestFloat n)

/-- The result of an operation on two doubles. If it is not a number, it has the sign of the first
operand that is none; if both are numbers, it has a minus. -/
def result (a b : Double) (x : Float) : Double :=
  { value := x
    minus := x.isNaN && (if a.value.isNaN then a.minus else !b.value.isNaN || b.minus) }

/-- The negative. -/
def neg (a : Double) : Double := ⟨-a.value, a.value.isNaN && !a.minus⟩

/-- The distance from zero. -/
def abs (a : Double) : Double := ⟨a.value.abs, false⟩

/-- The sum. -/
def add (a b : Double) : Double := result a b (a.value + b.value)

/-- The difference. -/
def sub (a b : Double) : Double := result a b (a.value - b.value)

/-- The product. -/
def mul (a b : Double) : Double := result a b (a.value * b.value)

/-- The quotient. -/
def div (a b : Double) : Double := result a b (a.value / b.value)

/-- The next whole number down. -/
def floor (a : Double) : Double := { a with value := a.value.floor }

/-- The square root. -/
def sqrt (a : Double) : Double := result a a a.value.sqrt

/-- Whether a double is an odd whole number. -/
def isOdd (a : Double) : Bool := (round? .truncate a.value).any (isWhole a.value && · % 2 == 1)

/-- A power. An odd power of what is not a number has no minus. -/
def pow (a b : Double) : Double :=
  let power := result a b (a.value.pow b.value)
  { power with minus := power.minus && !(a.value.isNaN && b.isOdd) }

/-- The place in the total order of doubles: minus zero stands before zero, and what is not a number
before or after all numbers, by its sign. -/
def totalPlace (a : Double) : Int :=
  let bits : Int := a.value.toBits.toNat
  let place := if bits ≤ greatestInt64 then bits else greatestInt64 - bits
  if a.minus then -place - 1 else place

/-- Reads a double, with its sign if it is not a number. -/
def read? (cs : List Char) : Option Double :=
  (readFloat? cs).map fun x => { value := x, minus := x.isNaN && (splitSign cs).1 }

instance : Neg Double := ⟨neg⟩

instance : Add Double := ⟨add⟩

instance : Sub Double := ⟨sub⟩

instance : Mul Double := ⟨mul⟩

instance : Div Double := ⟨div⟩

end Double
end PromptWeave.Decimal
