import PromptWeave.Decimal.Binary

/-!
# The shortest decimal that reads back

For one, two, up to seventeen digits, the two neighbours of the value on that decimal grid are
compared with the interval of the numbers that round to the double. The first grid with a hit wins;
of two hits the nearer one does, and of two equally near ones the larger.
-/
namespace PromptWeave.Decimal

/-- The decimal number `digits · 10 ^ exponent`. -/
structure Digits where
  digits : Nat
  exponent : Int
  deriving Repr, DecidableEq

/-- `a / b < 10 ^ k` for natural `a` and positive `b`. -/
def ltPowTen (a b : Nat) (k : Int) : Bool :=
  if 0 ≤ k then a < b * Nat.pow 10 k.toNat else a * Nat.pow 10 (-k).toNat < b

/-- The least `k` with `num / den < 10 ^ k`, looked for around the estimate that the binary lengths
give. -/
def magnitude (num den : Nat) : Int :=
  let estimate := Int.fdiv (((num.log2 : Int) - den.log2) * 30103) 100000
  ((List.range 5).map fun (i : Nat) => estimate - 1 + (i : Int)).find? (ltPowTen num den)
    |>.getD (estimate + 3)

/-- The numbers that round to a double: from `low / den` to `high / den`, the ends belonging to them
if `closed`, around `value / den`. -/
structure Interval where
  low : Nat
  value : Nat
  high : Nat
  den : Nat
  closed : Bool
  deriving Repr

/-- The interval of `mantissa · 2 ^ exponent`: half a unit on each side, but a quarter below a power
of two, where the units below are half as wide. -/
def Interval.ofBinary (mantissa : Nat) (exponent : Int) : Interval :=
  let (num, den) := fraction 1 exponent
  let below := if mantissa == unitCount && -1074 < exponent then 1 else 2
  { low := (4 * mantissa - below) * num
    value := 4 * mantissa * num
    high := (4 * mantissa + 2) * num
    den := 4 * den
    closed := mantissa % 2 == 0 }

/-- Whether `n · 10 ^ k` lies in the interval. -/
def Interval.holds (i : Interval) (n : Nat) (k : Int) : Bool :=
  let (a, b) := if 0 ≤ k then (n * Nat.pow 10 k.toNat * i.den, 1)
    else (n * i.den, Nat.pow 10 (-k).toNat)
  if i.closed then i.low * b ≤ a && a ≤ i.high * b else i.low * b < a && a < i.high * b

/-- The multiple of `10 ^ k` nearest to the value among its two neighbours that lie in the
interval. -/
def Interval.nearest? (i : Interval) (k : Int) : Option Nat :=
  let (num, den) := if 0 ≤ k then (i.value, i.den * Nat.pow 10 k.toNat)
    else (i.value * Nat.pow 10 (-k).toNat, i.den)
  let down := num / den
  let up := down + 1
  match i.holds down k, i.holds up k with
  | true, true => if 2 * (num % den) < den then some down else some up
  | true, false => some down
  | false, true => some up
  | false, false => none

/-- Moves trailing zeros of the digits into the exponent, as often as there is fuel. -/
def Digits.trimZeros : (fuel : Nat) → Digits → Digits
  | 0, d => d
  | fuel + 1, d =>
      if d.digits != 0 && d.digits % 10 == 0 then
        trimZeros fuel ⟨d.digits / 10, d.exponent + 1⟩
      else d

/-- The shortest decimal that reads back as `mantissa · 2 ^ exponent`, for a double's mantissa and
exponent. -/
def shortest (mantissa : Nat) (exponent : Int) : Digits :=
  if mantissa == 0 then ⟨0, 0⟩
  else
    let interval := Interval.ofBinary mantissa exponent
    let top := magnitude interval.value interval.den
    let hit := (List.range 17).findSome? fun (i : Nat) =>
      let k := top - 1 - (i : Int)
      (interval.nearest? k).map fun n => Digits.mk n k
    (hit.getD ⟨interval.value, 0⟩).trimZeros 20

end PromptWeave.Decimal
