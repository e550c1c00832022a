import PromptWeave.Decimal.Shortest
import PromptWeave.Text.Blank

/-!
# Doubles as text and text as doubles

Doubles are written without an exponent, a whole one by all its digits or by its shortest digits
padded with zeros. They are read from digits with an optional point and exponent, or from the words
for the values that no digits write.
-/
namespace PromptWeave.Decimal

/-- A decimal number in positional form. -/
def Digits.positional (d : Digits) : String :=
  let text := toString d.digits
  if 0 ≤ d.exponent then text ++ String.ofList (List.replicate d.exponent.toNat '0')
  else
    let places := (-d.exponent).toNat
    let cs := text.toList
    if places < cs.length then
      String.ofList (cs.take (cs.length - places)) ++ "." ++
        String.ofList (cs.drop (cs.length - places))
    else "0." ++ String.ofList (List.replicate (places - cs.length) '0') ++ text

/-- Puts the sign in front of the text of a number's absolute value. -/
def withSign (negative : Bool) (text : String) : String := if negative then "-" ++ text else text

/-- A whole double is written with all its digits and `.0`, any other with the fewest digits that
read back. -/
def display (x : Float) : String :=
  match read x with
  | .notANumber => "NaN"
  | .infinite negative => withSign negative "inf"
  | .finite negative m e =>
      let (num, den) := fraction m e
      withSign negative <|
        if num % den == 0 then toString (num / den) ++ ".0" else (shortest m e).positional

/-- A double in its fewest digits, padded with zeros up to the point and without a fraction if it
is whole. -/
def displayShortest (x : Float) : String :=
  match read x with
  | .notANumber => "NaN"
  | .infinite negative => withSign negative "inf"
  | .finite negative m e => withSign negative (shortest m e).positional

/-- The double nearest to `mantissa · 10 ^ exponent`. Beyond the range of doubles the answer does
not depend on the digits, so no power of ten larger than that range is computed. -/
def ofDecimal (negative : Bool) (mantissa : Nat) (exponent : Int) : Float :=
  let size : Int := exponent + (toString mantissa).length
  let magnitude :=
    if mantissa == 0 then 0.0
    else if 400 < size then Float.ofBits 0x7FF0000000000000
    else if size < -400 then 0.0
    else if 0 ≤ exponent then Float.ofScientific mantissa false exponent.toNat
    else Float.ofScientific mantissa true (-exponent).toNat
  if negative then -magnitude else magnitude

/-- The number that ASCII digits write. -/
def digitsValue (cs : List Char) : Nat := cs.foldl (fun n c => n * 10 + (c.toNat - 48)) 0

/-- An optional sign in front of a number: whether it is a minus, and the rest. -/
def splitSign : List Char → Bool × List Char
  | '+' :: cs => (false, cs)
  | '-' :: cs => (true, cs)
  | cs => (false, cs)

/-- Reads a signed number of ASCII digits, at least one of them and nothing else. -/
def readInteger? (cs : List Char) : Option Int :=
  let (negative, digits) := splitSign cs
  if digits.isEmpty || !digits.all Char.isDigit then none
  else some (if negative then -(digitsValue digits : Int) else digitsValue digits)

/-- Reads the part after the digits of a decimal: nothing, or an exponent. -/
def readExponent? : List Char → Option Int
  | [] => some 0
  | c :: cs => if c == 'e' || c == 'E' then readInteger? cs else none

/-- Reads a double: a word for an infinity or for not a number in any case, or digits with an
optional point among them and an optional exponent, all with an optional sign. -/
def readFloat? (cs : List Char) : Option Float :=
  let (negative, body) := splitSign cs
  let word := String.ofList (body.map Char.toLower)
  if word == "inf" || word == "infinity" then
    some (if negative then -(1.0 / 0.0) else 1.0 / 0.0)
  else if word == "nan" then some (0.0 / 0.0)
  else
    let whole := body.takeWhile Char.isDigit
    let (places, rest) :=
      match body.dropWhile Char.isDigit with
      | '.' :: more => (more.takeWhile Char.isDigit, more.dropWhile Char.isDigit)
      | more => ([], more)
    if whole.isEmpty && places.isEmpty then none
    else
      (readExponent? rest).map fun e =>
        ofDecimal negative (digitsValue (whole ++ places)) (e - places.length)

end PromptWeave.Decimal
