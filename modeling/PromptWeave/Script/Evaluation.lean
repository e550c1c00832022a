import PromptWeave.Script.Functions
import PromptWeave.Script.Libraries
import PromptWeave.Script.Machine
import PromptWeave.Script.Methods

/-!
# Running a script

Every expression and every statement takes a step before anything else, and so does every round of a
loop. Calls of methods that change a list write the list back to the place that was named.
-/
namespace PromptWeave.Script

open PromptWeave.Script.Host

variable {M : Type → Type} [Host M]

/-- The value of a variable. -/
def readVariable (name : String) : M Value := do
  match ← lookUp name with
  | some v => return v
  | none =>
      if (Builtin.ofName? name).isSome then fail (.uncalledBuiltin name)
      else fail (.undefinedName name)

/-- A constant of a library. -/
def readAttribute (v : Value) (name : String) : M Value :=
  match v with
  | .library l => ofOutcome (constantOf l name)
  | other => fail (.noAttribute other.kind name)

/-- Calls a built-in function by its name. -/
def callBuiltin (name : String) (args : List Value) : M Value := do
  match Builtin.ofName? name with
  | some .print =>
      writeLine (" ".intercalate (args.map Value.text))
      return .absent
  | some (.function f) => ofOutcome (f.apply args)
  | none => fail (.undefinedName name)

/-- The changing method that a call names, if its receiver is a list: the method and the items. -/
def mutation? (receiver : Value) (name : String) : Option (Mutator × List Value) :=
  match receiver with
  | .list items => (Mutator.ofName? name).map (·, items)
  | _ => none

/-- Calls a method that changes nothing, or a function of a library. -/
def callMember (receiver : Value) (name : String) (args : List Value) : M Value :=
  match receiver with
  | .library l => draw (callLibrary l name args)
  | other => ofOutcome (ask other name args)

/-- Evaluates an expression by what its form says: takes a step first, and reports the value. -/
def evaluating (e : Expr) (x : M Value) : M Value := do
  tick
  let v ← x
  report (.gave e v)
  return v

mutual

/-- Evaluates an expression. -/
def Expr.eval (e : Expr) : M Value :=
  evaluating e <| match e with
    | .absent => pure .absent
    | .bool b => pure (.bool b)
    | .int n => pure (.int n)
    | .float x => pure (.float (.ofFloat x))
    | .str s => pure (.str s)
    | .list items => do
        return .list (← evalAll items)
    | .var name => readVariable name
    | .neg operand => do
        ofOutcome (negate (← operand.eval))
    | .not operand => do
        return .bool !(← operand.eval).truthy
    | .binary op left right => do
        let l ← left.eval
        let r ← right.eval
        ofOutcome (op.apply l r)
    | .and left right => do
        let l ← left.eval
        if l.truthy then right.eval else return l
    | .or left right => do
        let l ← left.eval
        if l.truthy then return l else right.eval
    | .index target index => do
        let t ← target.eval
        let i ← index.eval
        ofOutcome (itemAt t i)
    | .slice target start stop => do
        let t ← target.eval
        let a ← evalOptional start
        let b ← evalOptional stop
        ofOutcome (slice t a b)
    | .attribute target name => do
        readAttribute (← target.eval) name
    | .call (.attribute target name) args => do
        let receiver ← target.eval
        let values ← evalAll args
        match mutation? receiver name with
        | some (m, items) => do
            let (result, items) ← ofOutcome (m.apply items values)
            if target.isPlace then target.store (.list items)
            return result
        | none => callMember receiver name values
    | .call (.var name) args => do
        match ← lookUp name with
        | some v => fail (.valueNotCallable v.kind)
        | none => callBuiltin name (← evalAll args)
    | .call _ _ => fail .expressionNotCallable
    | .comprehension element name source condition => do
        let items ← ofOutcome (iterate (← source.eval))
        let round (v : Value) : M (Option Value) := do
          bindName name v
          if ← holdsFor condition then return some (← element.eval) else return none
        return .list (← shadow name (collect round 0 0 [] items))

/-- Evaluates expressions from left to right. -/
def evalAll : List Expr → M (List Value)
  | [] => return []
  | e :: rest => do
      let v ← e.eval
      let vs ← evalAll rest
      return v :: vs

/-- Evaluates an expression that may be missing. -/
def evalOptional : Option Expr → M (Option Value)
  | none => return none
  | some e => do return some (← e.eval)

/-- Whether a condition holds; one that is missing does. -/
def holdsFor : Option Expr → M Bool
  | none => return true
  | some e => do return (← e.eval).truthy

/-- Writes a value to a place. The container of an item is read, changed and written back in turn. -/
def Expr.store (e : Expr) (v : Value) : M Unit :=
  match e with
  | .var name => bindName name v
  | .index target index => do
      let i ← index.eval
      let container ← target.eval
      let changed ← ofOutcome (withItem container i v)
      report (.changed changed)
      target.store changed
  | _ => fail .badTarget

end

mutual

/-- Runs a statement. -/
def Stmt.run : Stmt → M Flow
  | .mk line act => do
      enterLine line
      tick
      act.run

/-- Runs what a statement does. -/
def Act.run : Act → M Flow
  | .eval e => do
      let _ ← e.eval
      return .next
  | .assign target value => do
      let v ← value.eval
      target.store v
      return .next
  | .update target op value => do
      let current ← target.eval
      let v ← value.eval
      target.store (← ofOutcome (op.apply current v))
      return .next
  | .choose arms => arms.run
  | .forEach name source body => do
      let items ← ofOutcome (iterate (← source.eval))
      let round (v : Value) : M Flow := do
        tick
        bindName name v
        runAll body
      forEach round items
      return .next
  | .whileTrue condition body => do
      let round : M Bool := do
        if (← condition.eval).truthy then
          match ← runAll body with
          | .breakLoop => return false
          | _ => return true
        else return false
      rounds round
      return .next
  | .breakLoop => return .breakLoop
  | .continueLoop => return .continueLoop

/-- Runs the first arm whose condition holds. -/
def Arms.run : Arms → M Flow
  | .when condition body rest => do
      if (← condition.eval).truthy then runAll body else rest.run
  | .otherwise body => runAll body
  | .done => return .next

/-- Runs statements one after the other, up to one that breaks or continues a loop. -/
def runAll : List Stmt → M Flow
  | [] => return .next
  | s :: rest => do
      match ← s.run with
      | .next => runAll rest
      | flow => return flow

end

/-- Runs a program on a host. -/
def perform (program : List Stmt) : M Unit := do
  let _ ← runAll program

/-- Runs a program on the machine. -/
def runProgram (program : List Stmt) : Action Unit := perform program

end PromptWeave.Script
