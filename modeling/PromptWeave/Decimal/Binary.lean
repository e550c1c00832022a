/-!
# Doubles as exact numbers

A finite double is a whole number of units of a power of two. Everything that is decided or
written about a double's value is computed from that pair in exact arithmetic.
-/
namespace PromptWeave.Decimal

/-- What a double stands for. A finite one is `mantissa · 2 ^ exponent`, negated if `negative`. -/
inductive Reading where
  | finite (negative : Bool) (mantissa : Nat) (exponent : Int)
  | infinite (negative : Bool)
  | notANumber
  deriving Repr, DecidableEq

/-- The number of fractions that doubles with one exponent have. -/
def unitCount : Nat := 4503599627370496

/-- The exact value of a double, read from its bits. -/
def read (x : Float) : Reading :=
  let bits := x.toBits.toNat
  let negative := bits / unitCount / 2048 == 1
  let biased : Nat := bits / unitCount % 2048
  let fraction : Nat := bits % unitCount
  if biased == 2047 then
    if fraction == 0 then .infinite negative else .notANumber
  else if biased == 0 then .finite negative fraction (-1074)
  else .finite negative (fraction + unitCount) ((biased : Int) - 1075)

/-- `mantissa · 2 ^ exponent` as a fraction of natural numbers. -/
def fraction (mantissa : Nat) (exponent : Int) : Nat × Nat :=
  if 0 ≤ exponent then (mantissa * Nat.pow 2 exponent.toNat, 1)
  else (mantissa, Nat.pow 2 (-exponent).toNat)

/-- Whether a double is finite and has no fractional part. -/
def isWhole (x : Float) : Bool :=
  match read x with
  | .finite _ m e =>
      let (num, den) := fraction m e
      num % den == 0
  | _ => false

/-- How a fraction becomes a whole number. -/
inductive Rounding where
  /-- Down to the next whole number. -/
  | floor
  /-- Up to the next whole number. -/
  | ceiling
  /-- Toward zero. -/
  | truncate
  /-- To the nearest whole number, a half to the even one. -/
  | nearestEven
  deriving Repr, DecidableEq

/-- The whole number to which `num / den` rounds. -/
def Rounding.apply (mode : Rounding) (num : Int) (den : Nat) : Int :=
  let low := Int.fdiv num den
  match mode with
  | .floor => low
  | .ceiling => if low * den = num then low else low + 1
  | .truncate => Int.tdiv num den
  | .nearestEven =>
      let twice := 2 * (num - low * den)
      if twice < den then low
      else if (den : Int) < twice then low + 1
      else if low % 2 = 0 then low else low + 1

/-- The whole number to which a finite double rounds. -/
def round? (mode : Rounding) (x : Float) : Option Int :=
  match read x with
  | .finite negative m e =>
      let (num, den) := fraction m e
      some (mode.apply (if negative then -(num : Int) else num) den)
  | _ => none

end PromptWeave.Decimal
