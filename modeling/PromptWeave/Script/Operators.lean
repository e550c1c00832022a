import PromptWeave.Script.Fault
import PromptWeave.Script.Syntax
import PromptWeave.Text.Pieces
import PromptWeave.Words

/-!
# Operators, indexes and slices

What the operators of expressions make of values. Arithmetic on integers is exact or fails; nothing
wraps.
-/
namespace PromptWeave.Script

open PromptWeave.Decimal (Double)

/-- What a pure operation on values gives. -/
abbrev Outcome (α : Type) := Except Fault α

/-- Refuses more items than a list may have. -/
def checkItems (count : Nat) : Outcome Unit :=
  if maxItems < count then .error (.tooManyItems count) else .ok ()

/-- Refuses more room than the items of a list may take. -/
def checkBytes (bytes : Nat) : Outcome Unit :=
  if maxListBytes < bytes then .error (.tooManyBytes bytes) else .ok ()

/-- A text that a replacement has built, unless it is too long. -/
def boundedText (s : String) : Outcome Value :=
  if maxTextBytes < s.utf8ByteSize then .error .textTooLarge else .ok (.str s)

/-- Whether a number fits into 64 bits with a sign. -/
def fitsInt (n : Int) : Bool := leastInt64 ≤ n && n ≤ greatestInt64

/-- The integer `n`, if it fits into 64 bits. -/
def exactInt (n : Int) : Outcome Value :=
  if fitsInt n then .ok (.int (Int64.ofInt n)) else .error .integerOverflow

/-- The position that an index names in a sequence: a negative index counts from the end. -/
def position (size : Nat) (index : Value) : Outcome Nat :=
  match index with
  | .int raw =>
      let resolved : Int := if raw.toInt < 0 then size + raw.toInt else raw.toInt
      if resolved < 0 ∨ (size : Int) ≤ resolved then .error (.indexOutOfRange raw.toInt)
      else .ok resolved.toNat
  | other => .error (.badIndex other.kind)

/-- The item of a list, or the character of a text, that an index names. -/
def itemAt (target index : Value) : Outcome Value :=
  match target with
  | .list items => do return items.getD (← position items.length index) .absent
  | .str s => do
      let cs := s.toList
      return .str (cs.getD (← position cs.length index) ' ').toString
  | other => .error (.notSubscriptable other.kind)

/-- A list with another item at the position that an index names. -/
def withItem (target index item : Value) : Outcome Value :=
  match target with
  | .list items => do return .list (items.set (← position items.length index) item)
  | other => .error (.notAssignable other.kind)

/-- The position at which a bound cuts a sequence. A negative bound counts from the end, and a bound
beyond either end is that end. -/
def cutPoint (size : Nat) (bound : Option Value) (fallback : Nat) : Outcome Nat :=
  match bound with
  | none => .ok fallback
  | some .absent => .ok fallback
  | some (.int n) =>
      let resolved : Int := if n.toInt < 0 then size + n.toInt else n.toInt
      .ok (min resolved.toNat size)
  | some other => .error (.badSliceBound other.kind)

/-- The part of a sequence between two bounds. -/
def between (items : List α) (start stop : Option Value) : Outcome (List α) := do
  let size := items.length
  let start ← cutPoint size start 0
  let stop ← cutPoint size stop size
  return (items.drop start).take (stop - start)

/-- The part of a list or a text between two bounds. -/
def slice (target : Value) (start stop : Option Value) : Outcome Value :=
  match target with
  | .list items => .list <$> between items start stop
  | .str s => (fun cs => .str (String.ofList cs)) <$> between s.toList start stop
  | other => .error (.notSliceable other.kind)

/-- The items of a list, or the characters of a text. -/
def itemsOf? : Value → Option (List Value)
  | .list items => some items
  | .str s => some (s.toList.map fun c => .str c.toString)
  | _ => none

/-- The items that a loop runs over. -/
def iterate (v : Value) : Outcome (List Value) :=
  match itemsOf? v with
  | some items => .ok items
  | none => .error (.notIterable v.kind)

/-- Both operands as doubles. -/
def numbers (symbol : String) (left right : Value) : Outcome (Double × Double) :=
  match left.number?, right.number? with
  | some a, some b => .ok (a, b)
  | _, _ => .error (.badOperands symbol left.kind right.kind)

/-- The negative of a number. -/
def negate : Value → Outcome Value
  | .int n => exactInt (-n.toInt)
  | .float x => .ok (.float (-x))
  | other => .error (.badNegation other.kind)

/-- The sum of numbers, and the concatenation of texts or lists. -/
def add (left right : Value) : Outcome Value :=
  match left, right with
  | .int a, .int b => exactInt (a.toInt + b.toInt)
  | .str a, .str b =>
      let joined := a ++ b
      if maxTextBytes < joined.utf8ByteSize then .error (.textTooLong joined.utf8ByteSize)
      else .ok (.str joined)
  | .list a, .list b => do
      checkItems (a.length + b.length)
      checkBytes (Value.listSizeBytes a + Value.listSizeBytes b)
      return .list (a ++ b)
  | left, right => do
      let (a, b) ← numbers "+" left right
      return .float (a + b)

/-- The difference of numbers, and the items of a list that another does not hold. -/
def subtract (left right : Value) : Outcome Value :=
  match left, right with
  | .int a, .int b => exactInt (a.toInt - b.toInt)
  | .list a, .list b => .ok (.list (a.filter fun item => !b.any (item == ·)))
  | left, right => do
      let (a, b) ← numbers "-" left right
      return .float (a - b)

/-- Puts `count` copies of items in front of others. -/
def copies (items : List α) : (count : Nat) → (behind : List α) → List α
  | 0, behind => behind
  | count + 1, behind => copies items count (items ++ behind)

/-- A text repeated. -/
def repeatText (s : String) (count : Nat) : Outcome Value :=
  if maxTextBytes < s.utf8ByteSize * count then .error .textTooLarge
  else if s.isEmpty then .ok (.str "")
  else .ok (.str (String.ofList (copies s.toList count [])))

/-- A list repeated. A number of items beyond 64 bits counts as the greatest of 64 bits. -/
def repeatList (items : List Value) (count : Nat) : Outcome Value := do
  checkItems (min (items.length * count) (words64 - 1))
  checkBytes (Value.listSizeBytes items * count)
  return .list (copies items count [])

/-- The product of numbers, and a text or a list repeated; a negative number counts as none. -/
def multiply (left right : Value) : Outcome Value :=
  match left, right with
  | .int a, .int b => exactInt (a.toInt * b.toInt)
  | .str s, .int n => repeatText s n.toInt.toNat
  | .int n, .str s => repeatText s n.toInt.toNat
  | .list items, .int n => repeatList items n.toInt.toNat
  | .int n, .list items => repeatList items n.toInt.toNat
  | left, right => do
      let (a, b) ← numbers "*" left right
      return .float (a * b)

/-- The quotient of two numbers, a double. -/
def divide (left right : Value) : Outcome Value := do
  let (a, b) ← numbers "/" left right
  if b.value == 0.0 then .error .divisionByZero else return .float (a / b)

/-- The remainder of a division that rounds down; it has the sign of the divisor. -/
def modulo (left right : Value) : Outcome Value :=
  match left, right with
  | .int a, .int b =>
      if b.toInt = 0 then .error .moduloByZero else exactInt (Int.fmod a.toInt b.toInt)
  | left, right => do
      let (a, b) ← numbers "%" left right
      if b.value == 0.0 then .error .moduloByZero else return .float (a - b * (a / b).floor)

/-- Whether a list holds an item, or a text another. -/
def holds (container item : Value) : Outcome Bool :=
  match container, item with
  | .list items, item => .ok (items.any (· == item))
  | .str s, .str needle => .ok (Text.occursIn needle s)
  | .str _, other => .error (.badNeedle other.kind)
  | other, _ => .error (.noMembership other.kind)

/-- The order of two values, which has to be defined. -/
def ordering (left right : Value) : Outcome Ordering :=
  match left.compare? right with
  | some o => .ok o
  | none => .error (.incomparable left.kind right.kind)

/-- What an operator makes of its operands. -/
def BinaryOp.apply (op : BinaryOp) (left right : Value) : Outcome Value :=
  match op with
  | add => Script.add left right
  | sub => subtract left right
  | mul => multiply left right
  | div => divide left right
  | mod => modulo left right
  | equal => .ok (.bool (left == right))
  | notEqual => .ok (.bool (left != right))
  | less => (fun o => .bool o.isLT) <$> ordering left right
  | lessEqual => (fun o => .bool o.isLE) <$> ordering left right
  | greater => (fun o => .bool o.isGT) <$> ordering left right
  | greaterEqual => (fun o => .bool o.isGE) <$> ordering left right
  | isIn => .bool <$> holds right left
  | isNotIn => (fun found => .bool !found) <$> holds right left

end PromptWeave.Script
