import PromptWeave.Json.Record
import PromptWeave.Text.Blank
import PromptWeave.Words

/-!
# Rows of a data set

A prompt may come from a row of a data set. Of its fields only the size of the image is looked at.
-/
namespace PromptWeave.Prompt

/-- A row of a data set. The size of the image is kept as it is given, as a number or a text. -/
structure SourceRow where
  general : String
  character : String
  /-- The work that the image is taken from. -/
  series : String
  artist : String
  metaTags : String
  imageWidth : Option Json.Value
  imageHeight : Option Json.Value

namespace SourceRow

/-- A row that says nothing. -/
def initial : SourceRow := ⟨"", "", "", "", "", none, none⟩

instance : Inhabited SourceRow := ⟨initial⟩

/-- The names of the fields in their order. -/
def fieldNames : List String :=
  ["general", "character", "copyright", "artist", "meta", "image_width", "image_height"]

/-- Reads a row; every field may be missing. -/
def decode : Json.Decoder SourceRow :=
  Json.record fieldNames fun fields => do
    let text (name : String) := fields.withDefault name Json.decodeText ""
    let size (name : String) :=
      fields.withDefault name (Json.decodeOptional Json.decodeValue) none
    return {
      general := ← text "general"
      character := ← text "character"
      series := ← text "copyright"
      artist := ← text "artist"
      metaTags := ← text "meta"
      imageWidth := ← size "image_width"
      imageHeight := ← size "image_height" }

/-- A row as a value. -/
def toJson (r : SourceRow) : Json.Value :=
  .object [("general", .text r.general), ("character", .text r.character),
    ("copyright", .text r.series), ("artist", .text r.artist), ("meta", .text r.metaTags),
    ("image_width", r.imageWidth.getD .null), ("image_height", r.imageHeight.getD .null)]

/-- The natural number that a text of digits writes, with blanks around it and a plus in front of
it at most. -/
def readNatural? (text : String) : Option Nat :=
  let cs := (Text.trim text).toList
  let digits := match cs with
    | '+' :: rest => rest
    | cs => cs
  if digits.isEmpty || !digits.all Char.isDigit then none else some (Decimal.digitsValue digits)

/-- The number of pixels that a value gives: a positive number of 32 bits. A fraction is cut off. -/
def pixels? (v : Json.Value) : Option Nat := do
  let n ← match v with
    | .integer n => if n < 0 then none else some n.toNat
    | .float x => if 1.0 ≤ x then (Decimal.round? .truncate x).map Int.toNat else none
    | .text s => readNatural? s
    | _ => none
  if 0 < n && n < words32 then some n else none

/-- The width and the height of the image, if both are known. -/
def resolution? (r : SourceRow) : Option (Nat × Nat) := do
  return (← pixels? (← r.imageWidth), ← pixels? (← r.imageHeight))

end SourceRow
end PromptWeave.Prompt
