import PromptWeave.Text.CharSet

/-!
# Ranges of characters as ranges of bytes

The characters of a range do not have encodings of one shape: their number of bytes differs, and a
byte may take all values only under some of the bytes before it. A range is cut into blocks in
which each byte ranges freely.
-/
namespace PromptWeave.Pattern

open PromptWeave.Text

/-- The bytes from `first` to `last`. -/
structure ByteRange where
  first : Nat
  last : Nat
  deriving Repr, DecidableEq, Inhabited

/-- The bytes of a code point. -/
def bytesOf (n : Nat) : List Nat :=
  if n < 0x80 then [n]
  else if n < 0x800 then [0xC0 + n / 64, 0x80 + n % 64]
  else if n < 0x10000 then [0xE0 + n / 4096, 0x80 + n / 64 % 64, 0x80 + n % 64]
  else [0xF0 + n / 262144, 0x80 + n / 4096 % 64, 0x80 + n / 64 % 64, 0x80 + n % 64]

/-- The bytes of a text. -/
def bytesOfText (cs : List Char) : List Nat := cs.flatMap fun c => bytesOf c.toNat

/-- Where a range has to be cut because its code points differ in a byte before the last bytes that
make up `size` code points, and those do not take all values: the first code point after the cut. -/
def cutAtByte? (first last size : Nat) : Option Nat :=
  if first / size == last / size then none
  else if first % size != 0 then some ((first / size + 1) * size)
  else if last % size != size - 1 then some (last / size * size)
  else none

/-- Where a range has to be cut first: where the number of bytes changes, or where bytes do not take
all values. -/
def cut? (first last : Nat) : Option Nat :=
  match [0x80, 0x800, 0x10000].find? fun n => first < n && n ≤ last with
  | some n => some n
  | none => if last < 0x80 then none else [64, 4096, 262144].findSome? (cutAtByte? first last)

/-- The blocks of a range, in front of `after`. A range is cut a few times at most, and `room`
bounds how often. -/
def blocksOf : (room : Nat) → (first last : Nat) → (after : List (List ByteRange)) →
    List (List ByteRange)
  | room + 1, first, last, after =>
      match cut? first last with
      | some n => blocksOf room first (n - 1) (blocksOf room n last after)
      | none => (List.zipWith ByteRange.mk (bytesOf first) (bytesOf last)) :: after
  | 0, _, _, after => after

/-- The blocks of the characters of a range, which leaves out the gap without characters. -/
def blocksOfRange (first last : Nat) : List (List ByteRange) :=
  let block (first last : Nat) := if first ≤ last then blocksOf 32 first last [] else []
  if first < CharSet.gapStop && CharSet.gapStart ≤ last then
    block first (CharSet.gapStart - 1) ++ block CharSet.gapStop last
  else block first last

/-- The blocks of the characters of a set. -/
def blocksOfSet (s : CharSet) : List (List ByteRange) :=
  s.ranges.flatMap fun (first, last) => blocksOfRange first last

end PromptWeave.Pattern
