import PromptWeave.Script.Operators

/-!
# Arguments

Checks of the number and the kinds of the arguments of a call, and the sorting of values.
-/
namespace PromptWeave.Script

open PromptWeave.Decimal (Double)

/-- No argument. -/
def noArguments (name : String) : List Value → Outcome Unit
  | [] => .ok ()
  | args => .error (.wrongArity name 0 0 args.length)

/-- One argument. -/
def oneArgument (name : String) : List Value → Outcome Value
  | [a] => .ok a
  | args => .error (.wrongArity name 1 1 args.length)

/-- At most one argument. -/
def optionalArgument (name : String) : List Value → Outcome (Option Value)
  | [] => .ok none
  | [a] => .ok (some a)
  | args => .error (.wrongArity name 0 1 args.length)

/-- Two arguments. -/
def twoArguments (name : String) : List Value → Outcome (Value × Value)
  | [a, b] => .ok (a, b)
  | args => .error (.wrongArity name 2 2 args.length)

/-- Three arguments. -/
def threeArguments (name : String) : List Value → Outcome (Value × Value × Value)
  | [a, b, c] => .ok (a, b, c)
  | args => .error (.wrongArity name 3 3 args.length)

/-- An argument that has to be a text. -/
def expectText (name : String) : Value → Outcome String
  | .str s => .ok s
  | other => .error (.wrongArgument name .text other.kind)

/-- An argument that has to be an integer. -/
def expectInt (name : String) : Value → Outcome Int64
  | .int n => .ok n
  | other => .error (.wrongArgument name .integer other.kind)

/-- An argument that has to be a number. -/
def expectNumber (name : String) (v : Value) : Outcome Double :=
  match v.number? with
  | some x => .ok x
  | none => .error (.wrongArgument name .number v.kind)

/-- An argument that has to be a list; the characters of a text will do. -/
def expectItems (name : String) (v : Value) : Outcome (List Value) :=
  match itemsOf? v with
  | some items => .ok items
  | none => .error (.wrongArgument name .list v.kind)

/-- A double rounded to an integer; one that is too far from zero is refused. -/
def integerOf (mode : Decimal.Rounding) (x : Float) : Outcome Value :=
  match Decimal.round? mode x with
  | some n => if x.abs < 9.2e18 then .ok (.int (Int64.ofInt n)) else .error (.noInteger x)
  | none => .error (.noInteger x)

/-- A count as a value. -/
def ofCount (n : Nat) : Value := .int (Int64.ofNat n)

/-- Whether a text stands no later than another; other values keep their order. -/
def textsInOrder : Value → Value → Bool
  | .str a, .str b => Value.compareTexts a b != .gt
  | _, _ => true

/-- Whether an integer stands no later than another; other values keep their order. -/
def intsInOrder : Value → Value → Bool
  | .int a, .int b => a.toInt ≤ b.toInt
  | _, _ => true

/-- Whether a number stands no later than another as a double; other values keep their order. -/
def numbersInOrder (a b : Value) : Bool :=
  match a.number?, b.number? with
  | some x, some y => x.totalPlace ≤ y.totalPlace
  | _, _ => true

/-- Texts or numbers in ascending order, equal ones in the order in which they stood. -/
def sortValues (items : List Value) : Outcome (List Value) :=
  if items.all Value.isStr then .ok (items.mergeSort textsInOrder)
  else if items.all Value.isInt then .ok (items.mergeSort intsInOrder)
  else if items.all Value.isNumber then .ok (items.mergeSort numbersInOrder)
  else .error .unsortable

end PromptWeave.Script
