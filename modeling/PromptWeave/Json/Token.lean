/-!
# The tokens of JSON

A number is kept as it is written, because what it may be depends on where it stands. A text that
names half of a surrogate pair is no text; it is an error only where the text is used.
-/
namespace PromptWeave.Json

/-- A number as it is written: its digits before and after the point and those of its exponent. -/
structure Numeral where
  negative : Bool
  whole : List Char
  fraction : List Char
  /-- Whether the exponent is negative, and its digits. -/
  exponent : Option (Bool × List Char)
  deriving Repr, BEq

/-- A token. -/
inductive Token where
  | openArray
  | closeArray
  | openObject
  | closeObject
  | comma
  | colon
  | null
  | bool (b : Bool)
  | number (n : Numeral)
  /-- A text; nothing if it names half of a surrogate pair. -/
  | text (s : Option String)
  deriving Repr, BEq

/-- The value of a hexadecimal digit. -/
def hexDigit? (c : Char) : Option Nat :=
  if c.isDigit then some (c.toNat - '0'.toNat)
  else if 'a' ≤ c ∧ c ≤ 'f' then some (c.toNat - 'a'.toNat + 10)
  else if 'A' ≤ c ∧ c ≤ 'F' then some (c.toNat - 'A'.toNat + 10)
  else none

/-- The number that four hexadecimal digits write. -/
def hexUnit? (a b c d : Char) : Option Nat := do
  return (((← hexDigit? a) * 16 + (← hexDigit? b)) * 16 + (← hexDigit? c)) * 16 + (← hexDigit? d)

/-- The character that a backslash and `c` stand for, if the pair is known. -/
def unescape? : Char → Option Char
  | '"' => some '"'
  | '\\' => some '\\'
  | '/' => some '/'
  | 'b' => some '\x08'
  | 'f' => some '\x0c'
  | 'n' => some '\n'
  | 'r' => some '\r'
  | 't' => some '\t'
  | _ => none

/-- A piece of a text: a character, or a code unit that was written as four digits. -/
inductive Piece where
  | char (c : Char)
  | unit (n : Nat)
  deriving Repr, BEq

/-- The text of pieces; nothing if half of a surrogate pair stands alone. -/
def joinPieces : List Piece → Option (List Char)
  | [] => some []
  | .char c :: rest => (joinPieces rest).map (c :: ·)
  | .unit high :: .unit low :: rest =>
      if 0xD800 ≤ high ∧ high < 0xDC00 then
        if 0xDC00 ≤ low ∧ low < 0xE000 then
          (joinPieces rest).map
            (Char.ofNat (0x10000 + (high - 0xD800) * 0x400 + (low - 0xDC00)) :: ·)
        else none
      else if 0xDC00 ≤ high ∧ high < 0xE000 then none
      else (joinPieces (.unit low :: rest)).map (Char.ofNat high :: ·)
  | .unit n :: rest =>
      if 0xD800 ≤ n ∧ n < 0xE000 then none else (joinPieces rest).map (Char.ofNat n :: ·)

/-- Reads a text after its opening quote. `read` holds the pieces so far, back to front. -/
def scanText (read : List Piece) : List Char → Option (List Piece × List Char)
  | [] => none
  | '"' :: rest => some (read.reverse, rest)
  | '\\' :: 'u' :: a :: b :: c :: d :: rest =>
      match hexUnit? a b c d with
      | some n => scanText (.unit n :: read) rest
      | none => none
  | '\\' :: c :: rest =>
      match unescape? c with
      | some u => scanText (.char u :: read) rest
      | none => none
  | c :: rest => if c.toNat < 0x20 then none else scanText (.char c :: read) rest

/-- Reads digits, of which there has to be at least one. -/
def scanDigits (cs : List Char) : Option (List Char × List Char) :=
  match cs.takeWhile Char.isDigit with
  | [] => none
  | digits => some (digits, cs.dropWhile Char.isDigit)

/-- Reads the digits before the point; only a zero that stands alone may come first. -/
def scanWhole (cs : List Char) : Option (List Char × List Char) :=
  match scanDigits cs with
  | some ('0' :: _ :: _, _) => none
  | other => other

/-- Reads the digits after the point, if there is one. -/
def scanFraction : List Char → Option (List Char × List Char)
  | '.' :: rest => scanDigits rest
  | cs => some ([], cs)

/-- Reads an exponent, if there is one. -/
def scanExponent : List Char → Option (Option (Bool × List Char) × List Char)
  | c :: rest =>
      if c == 'e' || c == 'E' then
        match rest with
        | '-' :: digits => (scanDigits digits).map fun (ds, after) => (some (true, ds), after)
        | '+' :: digits => (scanDigits digits).map fun (ds, after) => (some (false, ds), after)
        | digits => (scanDigits digits).map fun (ds, after) => (some (false, ds), after)
      else some (none, c :: rest)
  | [] => some (none, [])

/-- Reads a number after its sign. -/
def scanNumber (negative : Bool) (cs : List Char) : Option (Numeral × List Char) := do
  let (whole, rest) ← scanWhole cs
  let (fraction, rest) ← scanFraction rest
  let (exponent, rest) ← scanExponent rest
  return (⟨negative, whole, fraction, exponent⟩, rest)

/-- Reads the token that begins with `c`. -/
def scanToken (c : Char) (rest : List Char) : Option (Token × List Char) :=
  match c, rest with
  | '[', _ => some (.openArray, rest)
  | ']', _ => some (.closeArray, rest)
  | '{', _ => some (.openObject, rest)
  | '}', _ => some (.closeObject, rest)
  | ',', _ => some (.comma, rest)
  | ':', _ => some (.colon, rest)
  | '"', _ =>
      (scanText [] rest).map fun (pieces, after) =>
        (.text ((joinPieces pieces).map String.ofList), after)
  | 'n', 'u' :: 'l' :: 'l' :: after => some (.null, after)
  | 't', 'r' :: 'u' :: 'e' :: after => some (.bool true, after)
  | 'f', 'a' :: 'l' :: 's' :: 'e' :: after => some (.bool false, after)
  | '-', _ => (scanNumber true rest).map fun (n, after) => (.number n, after)
  | _, _ => (scanNumber false (c :: rest)).map fun (n, after) => (.number n, after)

/-- The characters that may stand between tokens. -/
def isSpace (c : Char) : Bool := c == ' ' || c == '\t' || c == '\n' || c == '\r'

/-- Reads tokens to the end. `room` bounds the number of characters, and `read` holds the tokens so
far, back to front. -/
def scanTokens (read : List Token) : (room : Nat) → List Char → Option (List Token)
  | _, [] => some read.reverse
  | 0, _ => none
  | room + 1, c :: rest =>
      if isSpace c then scanTokens read room rest
      else
        match scanToken c rest with
        | some (t, after) => scanTokens (t :: read) room after
        | none => none

/-- The tokens of a text. -/
def tokens? (text : String) : Option (List Token) :=
  let cs := text.toList
  scanTokens [] cs.length cs

end PromptWeave.Json
