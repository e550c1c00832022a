import PromptWeave.Decimal.Double

/-!
# Values of a script

Values are copied on assignment, so no two names share a list. Besides the values this module holds
their text, their quoted form, their equality and their order.
-/
namespace PromptWeave.Script

open PromptWeave.Decimal (Double nearestFloat)

/-- The libraries that a script may call into. -/
inductive Library where
  | re
  | math
  | random
  deriving Repr, DecidableEq

/-- The name to which a library is bound. -/
def Library.name : Library → String
  | re => "re"
  | math => "math"
  | random => "random"

/-- A value of a script. -/
inductive Value where
  | absent
  | bool (b : Bool)
  | int (n : Int64)
  | float (x : Double)
  | str (s : String)
  | list (items : List Value)
  | library (l : Library)
  deriving Inhabited

/-- The kinds of values, as messages name them. -/
inductive Kind where
  | none
  | bool
  | int
  | float
  | str
  | list
  | module
  deriving Repr, DecidableEq

/-- The name of a kind. -/
def Kind.name : Kind → String
  | none => "none"
  | bool => "bool"
  | int => "int"
  | float => "float"
  | str => "str"
  | list => "list"
  | module => "module"

/-- Quotes a text: a backslash goes in front of each backslash and each single quote. -/
def quoted (s : String) : String :=
  "'" ++ String.ofList (s.toList.flatMap fun c =>
    if c == '\\' || c == '\'' then ['\\', c] else [c]) ++ "'"

/-- Whether a double is whole and small enough that doubles next to it are at most one apart. -/
def isPlainWhole (x : Float) : Bool := Decimal.isWhole x && x.abs < 9.0e15

namespace Value

/-- The kind of a value. -/
def kind : Value → Kind
  | absent => .none
  | bool _ => .bool
  | int _ => .int
  | float _ => .float
  | str _ => .str
  | list _ => .list
  | library _ => .module

/-- Whether a value counts as true in a condition. -/
def truthy : Value → Bool
  | absent => false
  | bool b => b
  | int n => n != 0
  | float x => x.value != 0.0
  | str s => !s.isEmpty
  | list items => !items.isEmpty
  | library _ => true

/-- The number as a double; nothing for values that are no numbers. -/
def number? : Value → Option Double
  | int n => some (.ofInt64 n)
  | float x => some x
  | _ => none

/-- Whether a value is a number. -/
def isNumber : Value → Bool
  | int _ => true
  | float _ => true
  | _ => false

/-- Whether a value is an integer. -/
def isInt : Value → Bool
  | int _ => true
  | _ => false

/-- Whether a value is a text. -/
def isStr : Value → Bool
  | str _ => true
  | _ => false

mutual

/-- The room a value takes: 32 bytes, the bytes of a text, and the room of a list's items. -/
def sizeBytes : Value → Nat
  | str s => 32 + s.utf8ByteSize
  | list items => 32 + addSizes items 0
  | _ => 32

/-- Adds the room of the items to `total`. -/
def addSizes : List Value → Nat → Nat
  | [], total => total
  | v :: rest, total => addSizes rest (total + v.sizeBytes)

end

/-- The room that the items of a list take together. -/
def listSizeBytes (items : List Value) : Nat := addSizes items 0

mutual

/-- The quoted form, as it stands inside the text of a list. -/
def repr : Value → String
  | absent => "None"
  | bool true => "True"
  | bool false => "False"
  | int n => toString n.toInt
  | float x => Decimal.display x.value
  | str s => quoted s
  | list items => writeItems items true "[" ++ "]"
  | library l => "<module '" ++ l.name ++ "'>"

/-- Appends the quoted forms of items to `written`, with a comma and a space before each item but
the first. -/
def writeItems : List Value → (isFirst : Bool) → (written : String) → String
  | [], _, written => written
  | v :: rest, isFirst, written =>
      writeItems rest false ((if isFirst then written else written ++ ", ") ++ v.repr)

end

/-- The text of a value: a text itself, and the quoted form of anything else. -/
def text : Value → String
  | str s => s
  | v => v.repr

mutual

/-- The key by which duplicates are found: whole doubles share the key of the integer. -/
def dedupKey : Value → String
  | float x =>
      if isPlainWhole x.value then toString ((Decimal.round? .truncate x.value).getD 0)
      else (float x).repr
  | list items => writeKeys items true "[" ++ "]"
  | v => v.repr

/-- Appends the keys of items to `written`, with a comma and a space before each but the first. -/
def writeKeys : List Value → (isFirst : Bool) → (written : String) → String
  | [], _, written => written
  | v :: rest, isFirst, written =>
      writeKeys rest false ((if isFirst then written else written ++ ", ") ++ v.dedupKey)

end

mutual

/-- Equality of values. Numbers are equal if they are the same as doubles, two integers if they are
the same integer. -/
def beq : Value → Value → Bool
  | absent, absent => true
  | bool a, bool b => a == b
  | int a, int b => a == b
  | int a, float b => nearestFloat a == b.value
  | float a, int b => a.value == nearestFloat b
  | float a, float b => a.value == b.value
  | str a, str b => a == b
  | list a, list b => beqList a b
  | library a, library b => a == b
  | _, _ => false

/-- Equality of lists, item by item. -/
def beqList : List Value → List Value → Bool
  | [], [] => true
  | a :: as, b :: bs => a.beq b && beqList as bs
  | _, _ => false

end

instance : BEq Value := ⟨beq⟩

/-- The order of two doubles; nothing if one of them is not a number. -/
def compareFloats (a b : Float) : Option Ordering :=
  if a < b then some .lt else if a == b then some .eq else if b < a then some .gt else none

/-- The order of two texts, by code points. -/
def compareTexts (a b : String) : Ordering :=
  if a < b then .lt else if a = b then .eq else .gt

mutual

/-- The order of two values, if they can be compared: numbers, texts, truth values, and lists by
their first difference. -/
def compare? : Value → Value → Option Ordering
  | int a, int b => some (compare a.toInt b.toInt)
  | int a, float b => compareFloats (nearestFloat a) b.value
  | float a, int b => compareFloats a.value (nearestFloat b)
  | float a, float b => compareFloats a.value b.value
  | str a, str b => some (compareTexts a b)
  | bool a, bool b => some (compare a.toNat b.toNat)
  | list a, list b => compareLists? a b
  | _, _ => none

/-- The order of two lists: the first pair of items that are not equal decides, and after equal
items the length. -/
def compareLists? : List Value → List Value → Option Ordering
  | [], [] => some .eq
  | [], _ :: _ => some .lt
  | _ :: _, [] => some .gt
  | a :: as, b :: bs =>
      match a.compare? b with
      | some .eq => compareLists? as bs
      | other => other

end

end Value
end PromptWeave.Script
