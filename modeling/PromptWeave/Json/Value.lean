import PromptWeave.Dictionary
import PromptWeave.Json.Number
import PromptWeave.Json.Tree

/-!
# JSON values

What a document means once its numbers are numbers and of fields with one key the last counts.
-/
namespace PromptWeave.Json

/-- A JSON value. Each key of an object occurs once; in what is read, the keys are ascending. -/
inductive Value where
  | null
  | bool (b : Bool)
  | integer (n : Int)
  | float (x : Float)
  | text (s : String)
  | array (items : List Value)
  | object (fields : List (String × Value))
  deriving Inhabited

/-- How deep arrays and objects may be nested where a value is read. -/
def maxDepth : Nat := 127

mutual

/-- The value that a tree writes, if its numbers are in range, its texts are texts and arrays and
objects are nested to at most `levels`. -/
def Tree.toValue? (levels : Nat) : Tree → Option Value
  | .null => some .null
  | .bool b => some (.bool b)
  | .number n =>
      n.toNumber?.map fun
        | .integer n => .integer n
        | .float x => .float x
  | .text s => s.map .text
  | .array items =>
      if levels = 0 then none else (toValues? (levels - 1) items).map .array
  | .object fields =>
      if levels = 0 then none
      else (toFields? (levels - 1) fields).map fun fs => .object (Dictionary.ofList fs).toList

/-- The values that trees write. -/
def toValues? (levels : Nat) : List Tree → Option (List Value)
  | [] => some []
  | t :: rest =>
      match t.toValue? levels, toValues? levels rest with
      | some v, some vs => some (v :: vs)
      | _, _ => none

/-- The fields that trees write. -/
def toFields? (levels : Nat) : List (Option String × Tree) → Option (List (String × Value))
  | [] => some []
  | (key, t) :: rest =>
      match key, t.toValue? levels, toFields? levels rest with
      | some k, some v, some fs => some ((k, v) :: fs)
      | _, _, _ => none

end

/-- The digits of a number below sixteen. -/
def hexChar (n : Nat) : Char := Char.ofNat (if n < 10 then '0'.toNat + n else 'a'.toNat + (n - 10))

/-- A character as it is written in a text. -/
def escape (c : Char) : List Char :=
  match c with
  | '"' => ['\\', '"']
  | '\\' => ['\\', '\\']
  | '\x08' => ['\\', 'b']
  | '\x0c' => ['\\', 'f']
  | '\n' => ['\\', 'n']
  | '\r' => ['\\', 'r']
  | '\t' => ['\\', 't']
  | c =>
      if c.toNat < 0x20 then ['\\', 'u', '0', '0', hexChar (c.toNat / 16), hexChar (c.toNat % 16)]
      else [c]

/-- A text in quotes. -/
def quote (s : String) : String := "\"" ++ String.ofList (s.toList.flatMap escape) ++ "\""

/-- How the parts of arrays and objects are set apart. -/
inductive Style where
  /-- On one line without spaces. -/
  | compact
  /-- One part on each line, two spaces further in than what holds it. -/
  | indented
  deriving Repr, DecidableEq

/-- What stands before a part that is nested `depth` levels deep. -/
def Style.lead (style : Style) (depth : Nat) : String :=
  match style with
  | compact => ""
  | indented => "\n" ++ String.ofList (List.replicate (2 * depth) ' ')

/-- What stands between a key and its value. -/
def Style.afterKey : Style → String
  | compact => ":"
  | indented => ": "

mutual

/-- The text of a value that is nested `depth` levels deep. -/
def Value.write (style : Style) (depth : Nat) : Value → String
  | .null => "null"
  | .bool true => "true"
  | .bool false => "false"
  | .integer n => toString n
  | .float x => Decimal.display x
  | .text s => quote s
  | .array [] => "[]"
  | .array items => writeItems style (depth + 1) items true "[" ++ style.lead depth ++ "]"
  | .object [] => "\x7b\x7d"
  | .object fields =>
      writeFields style (depth + 1) fields true "\x7b" ++ style.lead depth ++ "\x7d"

/-- Appends the texts of items, with a comma before each but the first. -/
def writeItems (style : Style) (depth : Nat) :
    List Value → (isFirst : Bool) → (written : String) → String
  | [], _, written => written
  | v :: rest, isFirst, written =>
      writeItems style depth rest false
        ((if isFirst then written else written ++ ",") ++ style.lead depth ++ v.write style depth)

/-- Appends the texts of fields, with a comma before each but the first. -/
def writeFields (style : Style) (depth : Nat) :
    List (String × Value) → (isFirst : Bool) → (written : String) → String
  | [], _, written => written
  | (key, v) :: rest, isFirst, written =>
      writeFields style depth rest false
        ((if isFirst then written else written ++ ",") ++ style.lead depth ++ quote key
          ++ style.afterKey ++ v.write style depth)

end

/-- The text of a value. -/
def Value.render (style : Style) (v : Value) : String := v.write style 0

/-- The object with the given fields. -/
def Value.ofDictionary (d : Dictionary Value) : Value := .object d.toList

end PromptWeave.Json
