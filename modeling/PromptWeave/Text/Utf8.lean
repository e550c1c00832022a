/-!
# Bytes and characters

Reading bytes as UTF-8, strictly or with a replacement for each malformed stretch, and cutting a
text to a number of bytes without splitting a character.
-/
namespace PromptWeave.Text

/-- The character that stands for a malformed stretch of bytes. -/
def replacementChar : Char := Char.ofNat 0xFFFD

/-- The range of the first continuation byte after a leading byte, and how many continuation bytes
follow it in all; nothing if the byte leads no character. -/
def continuation? (lead : UInt8) : Option (Nat × Nat × Nat) :=
  let n := lead.toNat
  if 0xC2 ≤ n && n ≤ 0xDF then some (0x80, 0xBF, 1)
  else if n == 0xE0 then some (0xA0, 0xBF, 2)
  else if n == 0xED then some (0x80, 0x9F, 2)
  else if 0xE1 ≤ n && n ≤ 0xEF then some (0x80, 0xBF, 2)
  else if n == 0xF0 then some (0x90, 0xBF, 3)
  else if 0xF1 ≤ n && n ≤ 0xF3 then some (0x80, 0xBF, 3)
  else if n == 0xF4 then some (0x80, 0x8F, 3)
  else none

/-- Reads up to `wanted` continuation bytes, the first of them between `low` and `high`. Returns
how many were read and the code point they make with `value`. -/
def takeContinuation (low high : Nat) : (wanted taken value : Nat) → List UInt8 → Nat × Nat × Nat
  | 0, taken, value, _ => (0, taken, value)
  | wanted + 1, taken, value, bytes =>
      match bytes with
      | [] => (wanted + 1, taken, value)
      | b :: rest =>
          if low ≤ b.toNat && b.toNat ≤ high then
            takeContinuation 0x80 0xBF wanted (taken + 1) (value * 64 + b.toNat % 64) rest
          else (wanted + 1, taken, value)

/-- The character that begins with `lead`, or `none` for a malformed stretch, and how many of the
bytes after `lead` belong to the character or the stretch. -/
def charAt (lead : UInt8) (rest : List UInt8) : Option Char × Nat :=
  if lead.toNat < 0x80 then (some (Char.ofNat lead.toNat), 0)
  else
    match continuation? lead with
    | none => (none, 0)
    | some (low, high, wanted) =>
        let leadBits := if wanted == 1 then lead.toNat % 32
          else if wanted == 2 then lead.toNat % 16 else lead.toNat % 8
        match takeContinuation low high wanted 0 leadBits rest with
        | (0, taken, value) => (some (Char.ofNat value), taken)
        | (_, taken, _) => (none, taken)

/-- Reads bytes as characters, with `none` for each maximal malformed stretch. `skip` counts the
bytes that belong to what was read last; `done` holds the result back to front. -/
def decodeFrom : (skip : Nat) → (done : List (Option Char)) → List UInt8 → List (Option Char)
  | _, done, [] => done.reverse
  | skip + 1, done, _ :: bytes => decodeFrom skip done bytes
  | 0, done, b :: bytes =>
      let (c, taken) := charAt b bytes
      decodeFrom taken (c :: done) bytes

/-- Reads bytes as text, with one replacement character for each malformed stretch. -/
def decodeLossy (bytes : List UInt8) : String :=
  String.ofList ((decodeFrom 0 [] bytes).map (·.getD replacementChar))

/-- Reads bytes as text; nothing if some of them are malformed. -/
def decode? (bytes : List UInt8) : Option String :=
  let cs := decodeFrom 0 [] bytes
  if cs.all Option.isSome then some (String.ofList (cs.filterMap id)) else none

/-- The bytes of a text. -/
def encode (text : String) : List UInt8 := text.toUTF8.toList

/-- Takes characters from the front while they fit into `room` bytes; `done` holds what was taken,
back to front. -/
def takeBytesFrom (room : Nat) (done : List Char) : List Char → List Char
  | [] => done.reverse
  | c :: cs =>
      if c.utf8Size ≤ room then takeBytesFrom (room - c.utf8Size) (c :: done) cs
      else done.reverse

/-- The longest beginning of a text that has at most `room` bytes and ends between characters. -/
def takeBytes (room : Nat) (text : String) : String :=
  String.ofList (takeBytesFrom room [] text.toList)

end PromptWeave.Text
