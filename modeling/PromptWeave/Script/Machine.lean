import PromptWeave.Dictionary
import PromptWeave.Script.Host
import PromptWeave.Text.Utf8

/-!
# The machine that runs scripts

A run changes a machine: what the names are bound to, the steps taken, the output and the generator.
Each action takes a machine to a result and the machine afterwards, also when it fails. The limits of
a run never change while it lasts.
-/
namespace PromptWeave.Script

open PromptWeave.Random (Generator)

/-- What a run may spend. -/
structure Limits where
  maxSteps : Nat
  maxOutputBytes : Nat
  deriving Repr, DecidableEq

/-- The state of a run. -/
structure Machine where
  bindings : Dictionary Value
  steps : Nat
  output : String
  /-- Whether output has been cut off. -/
  truncated : Bool
  /-- The line of the statement that was begun last. -/
  line : Nat
  generator : Generator

/-- What stands in the place of the output that was cut off. -/
def truncationMark : String := "\n[output truncated]\n"

namespace Machine

/-- A machine before its first step. Only the libraries are bound. -/
def start (generator : Generator) : Machine where
  bindings := .ofList ([Library.re, .math, .random].map fun l => (l.name, .library l))
  steps := 0
  output := ""
  truncated := false
  line := 0
  generator

/-- The value of a name. -/
def get? (m : Machine) (name : String) : Option Value := m.bindings.get? name

/-- Binds a name. -/
def bind (m : Machine) (name : String) (v : Value) : Machine :=
  { m with bindings := m.bindings.insert name v }

/-- Takes the binding of a name away. -/
def unbind (m : Machine) (name : String) : Machine :=
  { m with bindings := m.bindings.erase name }

/-- Gives a name the binding that was saved for it, if there was one. -/
def restore (m : Machine) (name : String) (saved : Option Value) : Machine :=
  match saved with
  | some v => m.bind name v
  | none => m.unbind name

/-- Adds a line to the output. The first line that does not fit is cut off at the limit between two
characters and marked; after it nothing is written. -/
def write (m : Machine) (maxOutputBytes : Nat) (line : String) : Machine :=
  if m.truncated then m
  else
    let room := maxOutputBytes - m.output.utf8ByteSize
    if line.utf8ByteSize + 1 ≤ room then { m with output := m.output ++ line ++ "\n" }
    else
      { m with output := m.output ++ Text.takeBytes room line ++ truncationMark, truncated := true }

@[simp] theorem steps_bind (m : Machine) (name : String) (v : Value) :
    (m.bind name v).steps = m.steps := rfl

@[simp] theorem steps_unbind (m : Machine) (name : String) : (m.unbind name).steps = m.steps := rfl

@[simp] theorem steps_restore (m : Machine) (name : String) (saved : Option Value) :
    (m.restore name saved).steps = m.steps := by
  cases saved <;> rfl

@[simp] theorem steps_write (m : Machine) (maxOutputBytes : Nat) (line : String) :
    (m.write maxOutputBytes line).steps = m.steps := by
  unfold write
  split
  · rfl
  · dsimp only
    split <;> rfl

end Machine

/-- Something that a run does. -/
def Action (α : Type) := Limits → Machine → Except Stop α × Machine

namespace Action

/-- Does nothing. -/
@[inline] protected def pure (a : α) : Action α := fun _ m => (.ok a, m)

/-- Does one thing after another. What follows a failure is left out. -/
@[inline] protected def bind (x : Action α) (f : α → Action β) : Action β := fun limits m =>
  match x limits m with
  | (.ok a, m) => f a limits m
  | (.error e, m) => (.error e, m)

/-- Fails on the line of the current statement. -/
def fail (cause : Fault) : Action α := fun _ m => (.error (.fault m.line cause), m)

/-- Takes a step. The first step over the limit ends the run. -/
def tick : Action Unit := fun limits m =>
  let m := { m with steps := m.steps + 1 }
  if limits.maxSteps < m.steps then (.error (.stepLimit limits.maxSteps), m) else (.ok (), m)

/-- Begins the statement on a line. -/
def enterLine (line : Nat) : Action Unit := fun _ m => (.ok (), { m with line })

/-- The value of a name. -/
def lookUp (name : String) : Action (Option Value) := fun _ m => (.ok (m.get? name), m)

/-- Binds a name. -/
def bindName (name : String) (v : Value) : Action Unit := fun _ m => (.ok (), m.bind name v)

/-- Does something that begins without a binding of a name, and gives the name back the binding that
it had. -/
def shadow (name : String) (x : Action α) : Action α := fun limits m =>
  let (result, after) := x limits (m.unbind name)
  (result, after.restore name (m.get? name))

/-- Adds a line to the output. -/
def writeLine (line : String) : Action Unit := fun limits m =>
  (.ok (), m.write limits.maxOutputBytes line)

/-- Draws with the generator. An operation that fails leaves the generator as it is. -/
def draw (x : Generator → Outcome (α × Generator)) : Action α := fun _ m =>
  match x m.generator with
  | .ok (a, generator) => (.ok a, { m with generator })
  | .error cause => (.error (.fault m.line cause), m)

/-- Takes a step and does a round, up to a number of times. The run ends for want of steps before
the rounds do. -/
def roundsUpTo (round : Action Bool) : (most : Nat) → Action Unit
  | 0 => fun limits m => (.error (.stepLimit limits.maxSteps), m)
  | most + 1 => fun limits m =>
      match tick limits m with
      | (.error e, m) => (.error e, m)
      | (.ok (), m) =>
          match round limits m with
          | (.error e, m) => (.error e, m)
          | (.ok false, m) => (.ok (), m)
          | (.ok true, m) => roundsUpTo round most limits m

/-- Takes a step and does a round, until a round is the last. No run has steps for more rounds than
its limit and one. -/
def rounds (round : Action Bool) : Action Unit := fun limits m =>
  roundsUpTo round (limits.maxSteps + 1) limits m

end Action

/-- The machine takes no notice of the values that a run makes. -/
instance : Host Action where
  pure := Action.pure
  bind := Action.bind
  fail := Action.fail
  tick := Action.tick
  enterLine := Action.enterLine
  lookUp := Action.lookUp
  bindName := Action.bindName
  shadow := Action.shadow
  writeLine := Action.writeLine
  draw := Action.draw
  rounds := Action.rounds
  report _ := Action.pure ()

namespace Action

@[simp] theorem host_fail (cause : Fault) : (Host.fail cause : Action α) = fail cause := rfl

@[simp] theorem host_tick : (Host.tick : Action Unit) = tick := rfl

@[simp] theorem host_enterLine (line : Nat) : (Host.enterLine line : Action Unit) = enterLine line :=
  rfl

@[simp] theorem host_lookUp (name : String) :
    (Host.lookUp name : Action (Option Value)) = lookUp name := rfl

@[simp] theorem host_bindName (name : String) (v : Value) :
    (Host.bindName name v : Action Unit) = bindName name v := rfl

@[simp] theorem host_shadow (name : String) (x : Action α) : Host.shadow name x = shadow name x := rfl

@[simp] theorem host_writeLine (line : String) :
    (Host.writeLine line : Action Unit) = writeLine line := rfl

@[simp] theorem host_draw (x : Generator → Outcome (α × Generator)) :
    (Host.draw x : Action α) = draw x := rfl

@[simp] theorem host_rounds (round : Action Bool) : Host.rounds round = rounds round := rfl

@[simp] theorem host_report (r : Report) : (Host.report r : Action Unit) = pure () := rfl

@[simp] theorem pure_apply (a : α) (limits : Limits) (m : Machine) :
    (pure a : Action α) limits m = (.ok a, m) := rfl

theorem bind_apply (x : Action α) (f : α → Action β) (limits : Limits) (m : Machine) :
    (x >>= f) limits m =
      match x limits m with
      | (.ok a, m) => f a limits m
      | (.error e, m) => (.error e, m) := rfl

theorem bind_ok {x : Action α} {limits : Limits} {m m' : Machine} {a : α} (f : α → Action β)
    (h : x limits m = (.ok a, m')) : (x >>= f) limits m = f a limits m' := by
  rw [bind_apply, h]

theorem bind_error {x : Action α} {limits : Limits} {m m' : Machine} {e : Stop} (f : α → Action β)
    (h : x limits m = (.error e, m')) : (x >>= f) limits m = (.error e, m') := by
  rw [bind_apply, h]

/-- A bounded number of rounds is a step with a round, and one round less. -/
theorem roundsUpTo_succ (round : Action Bool) (most : Nat) :
    roundsUpTo round (most + 1) =
      (tick >>= fun _ => round) >>= fun more => if more then roundsUpTo round most else pure () := by
  funext limits m
  simp only [roundsUpTo, bind_apply]
  rcases tick limits m with ⟨_ | _, m₁⟩
  · rfl
  · rcases h : round limits m₁ with ⟨_ | _ | _, m₂⟩ <;> simp [h]

end Action
end PromptWeave.Script
