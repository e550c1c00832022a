import PromptWeave.Script.Arguments
import PromptWeave.Text.Blank
import Std.Data.HashSet

/-!
# Built-in functions

The functions that depend on their arguments alone. Writing a line is the only other built-in.
-/
namespace PromptWeave.Script

open PromptWeave.Decimal (Double)

/-- A built-in function. -/
inductive Function where
  | len
  | str
  | int
  | float
  | bool
  | list
  | range
  | sorted
  | reversed
  | unique
  | min
  | max
  | sum
  | abs
  | any
  | all
  | enumerate
  deriving Repr, DecidableEq

/-- What a name calls, if nothing is bound to it. -/
inductive Builtin where
  /-- Writes a line to the output. -/
  | print
  | function (f : Function)
  deriving Repr, DecidableEq

/-- The name of a function. -/
def Function.name : Function → String
  | len => "len"
  | str => "str"
  | int => "int"
  | float => "float"
  | bool => "bool"
  | list => "list"
  | range => "range"
  | sorted => "sorted"
  | reversed => "reversed"
  | unique => "unique"
  | min => "min"
  | max => "max"
  | sum => "sum"
  | abs => "abs"
  | any => "any"
  | all => "all"
  | enumerate => "enumerate"

/-- The built-in of a name. -/
def Builtin.ofName? : String → Option Builtin
  | "print" => some .print
  | "len" => some (.function .len)
  | "str" => some (.function .str)
  | "int" => some (.function .int)
  | "float" => some (.function .float)
  | "bool" => some (.function .bool)
  | "list" => some (.function .list)
  | "range" => some (.function .range)
  | "sorted" => some (.function .sorted)
  | "reversed" => some (.function .reversed)
  | "unique" => some (.function .unique)
  | "min" => some (.function .min)
  | "max" => some (.function .max)
  | "sum" => some (.function .sum)
  | "abs" => some (.function .abs)
  | "any" => some (.function .any)
  | "all" => some (.function .all)
  | "enumerate" => some (.function .enumerate)
  | _ => none

/-- The number of items in a list or of characters in a text. -/
def lengthOf : Value → Outcome Value
  | .list items => .ok (ofCount items.length)
  | .str s => .ok (ofCount s.length)
  | other => .error (.noLength other.kind)

/-- A value as an integer; a double loses its fraction. -/
def toInteger : Value → Outcome Value
  | .int n => .ok (.int n)
  | .float x => integerOf .truncate x.value
  | .bool b => .ok (.int (if b then 1 else 0))
  | .str s =>
      match Decimal.readInteger? (Text.trim s).toList with
      | some n => if fitsInt n then .ok (.int (Int64.ofInt n)) else .error (.badLiteral "int" s)
      | none => .error (.badLiteral "int" s)
  | other => .error (.inconvertible "int" other.kind)

/-- A value as a double. -/
def toDouble : Value → Outcome Value
  | .int n => .ok (.float (.ofInt64 n))
  | .float x => .ok (.float x)
  | .bool b => .ok (.float (.ofFloat (if b then 1.0 else 0.0)))
  | .str s =>
      match Double.read? (Text.trim s).toList with
      | some x => .ok (.float x)
      | none => .error (.badLiteral "float" s)
  | other => .error (.inconvertible "float" other.kind)

/-- How many terms a progression has before it reaches its end. -/
def termCount (start stop step : Int) : Nat :=
  if 0 < step then ((stop - start + step - 1) / step).toNat
  else ((start - stop - step - 1) / -step).toNat

/-- The terms of an arithmetic progression before its end. -/
def progression (start stop step : Int) : Outcome Value := do
  if step = 0 then .error .zeroStep
  let count := termCount start stop step
  checkItems count
  return .list ((List.range count).map fun (i : Nat) => .int (Int64.ofInt (start + i * step)))

/-- The integers of a range with one, two or three bounds. -/
def rangeOf (args : List Value) : Outcome Value := do
  if args.isEmpty || 3 < args.length then .error (.wrongArity "range" 1 3 args.length)
  match ← args.mapM (expectInt "range") with
  | [stop] => progression 0 stop.toInt 1
  | [start, stop] => progression start.toInt stop.toInt 1
  | start :: stop :: step :: _ => progression start.toInt stop.toInt step.toInt
  | [] => .error (.wrongArity "range" 1 3 0)

/-- Values without those whose key occurred before. `seen` holds the keys and `kept` the values so
far, back to front. -/
def withoutRepeats (seen : Std.HashSet String) (kept : List Value) : List Value → List Value
  | [] => kept.reverse
  | v :: rest =>
      let key := v.dedupKey
      if seen.contains key then withoutRepeats seen kept rest
      else withoutRepeats (seen.insert key) (v :: kept) rest

/-- The least or the greatest of the arguments, or of the items of the only argument. -/
def extreme (name : String) (pick : List Value → Option Value) (args : List Value) :
    Outcome Value := do
  let items ← match args with
    | [a] => expectItems name a
    | args => pure args
  if items.isEmpty then .error (.emptySequence name)
  return (pick (← sortValues items)).getD .absent

/-- The sum of integers, each partial sum of which has to fit. -/
def sumInts (total : Int64) : List Value → Outcome Value
  | [] => .ok (.int total)
  | .int n :: rest =>
      let next := total.toInt + n.toInt
      if fitsInt next then sumInts (Int64.ofInt next) rest else .error .integerOverflow
  | _ :: rest => sumInts total rest

/-- The sum of numbers as doubles. -/
def sumFloats (total : Double) : List Value → Outcome Value
  | [] => .ok (.float total)
  | v :: rest => do sumFloats (total + (← expectNumber "sum" v)) rest

/-- The sum of numbers. -/
def sumOf (items : List Value) : Outcome Value :=
  if items.all Value.isInt then sumInts 0 items else sumFloats (.ofFloat 0.0) items

/-- The distance of a number from zero. -/
def absolute : Value → Outcome Value
  | .int n => exactInt n.toInt.natAbs
  | .float x => .ok (.float x.abs)
  | other => .error (.wrongArgument "abs" .number other.kind)

/-- Each item with its position in front. -/
def numbered (items : List Value) : List Value :=
  items.mapIdx fun i item => .list [ofCount i, item]

/-- Calls a function. -/
def Function.apply (f : Function) (args : List Value) : Outcome Value :=
  match f with
  | .len => do lengthOf (← oneArgument f.name args)
  | .str => do return .str (((← optionalArgument f.name args).map Value.text).getD "")
  | .int => do toInteger (← oneArgument f.name args)
  | .float => do toDouble (← oneArgument f.name args)
  | .bool => do return .bool (← oneArgument f.name args).truthy
  | .list => do
      match ← optionalArgument f.name args with
      | none => return .list []
      | some v => return .list (← expectItems f.name v)
  | .range => rangeOf args
  | .sorted => do return .list (← sortValues (← expectItems f.name (← oneArgument f.name args)))
  | .reversed => do return .list (← expectItems f.name (← oneArgument f.name args)).reverse
  | .unique => do
      return .list (withoutRepeats ∅ [] (← expectItems f.name (← oneArgument f.name args)))
  | .min => extreme f.name List.head? args
  | .max => extreme f.name List.getLast? args
  | .sum => do sumOf (← expectItems f.name (← oneArgument f.name args))
  | .abs => do absolute (← oneArgument f.name args)
  | .any => do
      return .bool ((← expectItems f.name (← oneArgument f.name args)).any Value.truthy)
  | .all => do
      return .bool ((← expectItems f.name (← oneArgument f.name args)).all Value.truthy)
  | .enumerate => do return .list (numbered (← expectItems f.name (← oneArgument f.name args)))

end PromptWeave.Script
