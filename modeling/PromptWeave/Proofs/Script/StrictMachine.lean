import PromptWeave.Proofs.Script.StrictCalls
import PromptWeave.Script.Execution

/-!
# Runs in which arithmetic aborts

The interpreter, with operations on values whose arithmetic aborts. Steps and lines of output are counted
by words as well. Whatever is larger than any memory aborts the run when it is made.
-/
namespace PromptWeave.Script

/-- What a run does where arithmetic aborts. -/
def StrictAction (α : Type) := Limits → Machine → Except Abort (Except Stop α × Machine)

namespace StrictAction

variable {α β : Type}

/-- Does what the machine does. -/
def ofAction (x : Action α) : StrictAction α := fun limits m => .ok (x limits m)

/-- Does one thing after another. What follows a failure or an abort is left out. -/
protected def bind (x : StrictAction α) (f : α → StrictAction β) : StrictAction β := fun limits m =>
  match x limits m with
  | .ok (.ok a, m) => f a limits m
  | .ok (.error e, m) => .ok (.error e, m)
  | .error cause => .error cause

instance : Monad StrictAction where
  pure a := ofAction (pure a)
  bind := StrictAction.bind

theorem bind_apply (x : StrictAction α) (f : α → StrictAction β) (limits : Limits) (m : Machine) :
    (x >>= f) limits m =
      match x limits m with
      | .ok (.ok a, m) => f a limits m
      | .ok (.error e, m) => .ok (.error e, m)
      | .error cause => .error cause := rfl

/-- Does an operation on values. It fails on the line of the current statement. -/
def carryOut (x : Strict α) : StrictAction α := fun _ m =>
  match x with
  | .ok outcome => .ok (outcome.mapError (.fault m.line), m)
  | .error cause => .error cause

/-- Does arithmetic that depends on the state of the run. -/
def carryOutAt (x : Limits → Machine → Strict α) : StrictAction α := fun limits m =>
  carryOut (x limits m) limits m

/-- Aborts for what no memory holds. -/
def hold (bytes : Nat) : StrictAction Unit := fun _ m =>
  if bytes < memoryBytes then .ok (.ok (), m) else .error (.memory bytes)

/-- Takes a step. -/
def tick : StrictAction Unit := do
  let _ ← carryOutAt fun _ m => Strict.addCounts m.steps 1
  ofAction Action.tick

/-- Adds a line to the output. -/
def writeLine (line : String) : StrictAction Unit := do
  hold line.utf8ByteSize
  carryOutAt fun limits m => Strict.arrange m limits.maxOutputBytes line
  ofAction (Action.writeLine line)

/-- Does something that begins without a binding of a name, and gives the name back the binding that
it had. -/
def shadow (name : String) (x : StrictAction α) : StrictAction α := fun limits m =>
  match x limits (m.unbind name) with
  | .ok (result, after) => .ok (result, after.restore name (m.get? name))
  | .error cause => .error cause

theorem shadow_apply (name : String) (x : StrictAction α) (limits : Limits) (m : Machine) :
    shadow name x limits m =
      match x limits (m.unbind name) with
      | .ok (result, after) => .ok (result, after.restore name (m.get? name))
      | .error cause => .error cause := rfl

/-- Takes a step and does a round, up to a number of times. -/
def roundsUpTo (round : StrictAction Bool) : (most : Nat) → StrictAction Unit
  | 0 => ofAction (Action.roundsUpTo (pure true) 0)
  | most + 1 => do
      let more ← (do tick; round)
      if more then roundsUpTo round most else return ()

/-- Takes a step and does a round, until a round is the last. -/
def rounds (round : StrictAction Bool) : StrictAction Unit := fun limits m =>
  roundsUpTo round (limits.maxSteps + 1) limits m

end StrictAction

open StrictAction (carryOut hold ofAction)

instance : Host StrictAction where
  fail cause := ofAction (Action.fail cause)
  tick := StrictAction.tick
  enterLine line := ofAction (Action.enterLine line)
  lookUp name := ofAction (Action.lookUp name)
  bindName name v := ofAction (Action.bindName name v)
  shadow := StrictAction.shadow
  writeLine := StrictAction.writeLine
  draw x := ofAction (Action.draw x)
  rounds := StrictAction.rounds
  report
    | .gave _ v => hold v.sizeBytes
    | .changed v => hold v.sizeBytes

namespace StrictAction

/-- Collects what an action gives for items, if it gives anything. -/
def collect (element : Value → StrictAction (Option Value)) (bytes count : Nat)
    (kept : List Value) : List Value → StrictAction (List Value)
  | [] => return kept.reverse
  | v :: rest => do
      match ← element v with
      | none => collect element bytes count kept rest
      | some w => do
          let bytes := Strict.addSaturating bytes (← carryOut (Strict.measure w))
          Host.ofOutcome (checkBytes bytes)
          Host.ofOutcome (checkItems (count + 1))
          collect element bytes (count + 1) (w :: kept) rest

/-- Calls a built-in function by its name. -/
def callBuiltin (name : String) (args : List Value) : StrictAction Value := do
  match Builtin.ofName? name with
  | some .print =>
      writeLine (" ".intercalate (args.map Value.text))
      return .absent
  | some (.function f) => carryOut (Strict.call f args)
  | none => Host.fail (.undefinedName name)

end StrictAction

mutual

/-- Evaluates an expression. -/
def Expr.evalStrict (e : Expr) : StrictAction Value :=
  evaluating e <| match e with
    | .absent => pure .absent
    | .bool b => pure (.bool b)
    | .int n => pure (.int n)
    | .float x => pure (.float (.ofFloat x))
    | .str s => pure (.str s)
    | .list items => do
        return .list (← evalAllStrict items)
    | .var name => readVariable name
    | .neg operand => do
        Host.ofOutcome (negate (← operand.evalStrict))
    | .not operand => do
        return .bool !(← operand.evalStrict).truthy
    | .binary op left right => do
        let l ← left.evalStrict
        let r ← right.evalStrict
        carryOut (Strict.operate op l r)
    | .and left right => do
        let l ← left.evalStrict
        if l.truthy then right.evalStrict else return l
    | .or left right => do
        let l ← left.evalStrict
        if l.truthy then return l else right.evalStrict
    | .index target index => do
        let t ← target.evalStrict
        let i ← index.evalStrict
        carryOut (Strict.itemAt t i)
    | .slice target start stop => do
        let t ← target.evalStrict
        let a ← evalOptionalStrict start
        let b ← evalOptionalStrict stop
        carryOut (Strict.slice t a b)
    | .attribute target name => do
        readAttribute (← target.evalStrict) name
    | .call (.attribute target name) args => do
        let receiver ← target.evalStrict
        let values ← evalAllStrict args
        match mutation? receiver name with
        | some (m, items) => do
            let (result, items) ← carryOut (Strict.mutate m items values)
            hold (Value.list items).sizeBytes
            if target.isPlace then target.storeStrict (.list items)
            return result
        | none => callMember receiver name values
    | .call (.var name) args => do
        match ← Host.lookUp name with
        | some v => Host.fail (.valueNotCallable v.kind)
        | none => StrictAction.callBuiltin name (← evalAllStrict args)
    | .call _ _ => Host.fail .expressionNotCallable
    | .comprehension element name source condition => do
        let items ← Host.ofOutcome (iterate (← source.evalStrict))
        let round (v : Value) : StrictAction (Option Value) := do
          Host.bindName name v
          if ← holdsForStrict condition then return some (← element.evalStrict) else return none
        return .list (← Host.shadow name (StrictAction.collect round 0 0 [] items))

/-- Evaluates expressions from left to right. -/
def evalAllStrict : List Expr → StrictAction (List Value)
  | [] => return []
  | e :: rest => do
      let v ← e.evalStrict
      let vs ← evalAllStrict rest
      return v :: vs

/-- Evaluates an expression that may be missing. -/
def evalOptionalStrict : Option Expr → StrictAction (Option Value)
  | none => return none
  | some e => do return some (← e.evalStrict)

/-- Whether a condition holds; one that is missing does. -/
def holdsForStrict : Option Expr → StrictAction Bool
  | none => return true
  | some e => do return (← e.evalStrict).truthy

/-- Writes a value to a place. -/
def Expr.storeStrict (e : Expr) (v : Value) : StrictAction Unit :=
  match e with
  | .var name => Host.bindName name v
  | .index target index => do
      let i ← index.evalStrict
      let container ← target.evalStrict
      let changed ← carryOut (Strict.withItem container i v)
      Host.report (.changed changed)
      target.storeStrict changed
  | _ => Host.fail .badTarget

end

mutual

/-- Runs a statement. -/
def Stmt.runStrict : Stmt → StrictAction Flow
  | .mk line act => do
      Host.enterLine line
      Host.tick
      act.runStrict

/-- Runs what a statement does. -/
def Act.runStrict : Act → StrictAction Flow
  | .eval e => do
      let _ ← e.evalStrict
      return .next
  | .assign target value => do
      let v ← value.evalStrict
      target.storeStrict v
      return .next
  | .update target op value => do
      let current ← target.evalStrict
      let v ← value.evalStrict
      let w ← carryOut (Strict.operate op current v)
      hold w.sizeBytes
      target.storeStrict w
      return .next
  | .choose arms => arms.runStrict
  | .forEach name source body => do
      let items ← Host.ofOutcome (iterate (← source.evalStrict))
      let round (v : Value) : StrictAction Flow := do
        Host.tick
        Host.bindName name v
        runAllStrict body
      Host.forEach round items
      return .next
  | .whileTrue condition body => do
      let round : StrictAction Bool := do
        if (← condition.evalStrict).truthy then
          match ← runAllStrict body with
          | .breakLoop => return false
          | _ => return true
        else return false
      Host.rounds round
      return .next
  | .breakLoop => return .breakLoop
  | .continueLoop => return .continueLoop

/-- Runs the first arm whose condition holds. -/
def Arms.runStrict : Arms → StrictAction Flow
  | .when condition body rest => do
      if (← condition.evalStrict).truthy then runAllStrict body else rest.runStrict
  | .otherwise body => runAllStrict body
  | .done => return .next

/-- Runs statements one after the other, up to one that breaks or continues a loop. -/
def runAllStrict : List Stmt → StrictAction Flow
  | [] => return .next
  | s :: rest => do
      match ← s.runStrict with
      | .next => runAllStrict rest
      | flow => return flow

end

/-- Runs a program. -/
def runProgramStrict (program : List Stmt) : StrictAction Unit := do
  let _ ← runAllStrict program

/-- Runs a script over variables that hold tags. -/
def Runner.runStrict (r : Runner) (source : String) (vars : TagVariables) :
    Except Abort (Except ScriptError Yield) :=
  match (do screen source; (parse source).mapError .malformed : Except ScriptError (List Stmt)) with
  | .error e => .ok (.error e)
  | .ok program =>
      match runProgramStrict program r.limits (.withTags (.ofSeed r.seed) vars) with
      | .error cause => .error cause
      | .ok (.error stop, _) => .ok (.error (.stopped stop))
      | .ok (.ok (), m) => .ok do return ⟨m.output, ← readBack m vars⟩

end PromptWeave.Script
