import PromptWeave.Random.Generator
import PromptWeave.Script.Operators
import PromptWeave.Script.Syntax

/-!
# What scripts run on

A script says what is done, and a host says what doing it means. The machine is one host; another may
watch what a run does. A script asks nothing of its host beyond the operations below, so whatever
holds of each of them holds of every script.
-/
namespace PromptWeave.Script

open PromptWeave.Random (Generator)

/-- How a statement hands on to the next. -/
inductive Flow where
  | next
  | breakLoop
  | continueLoop
  deriving Repr, DecidableEq

/-- What a run tells its host about the values that it makes. -/
inductive Report where
  /-- An expression has a value. -/
  | gave (e : Expr) (v : Value)
  /-- An item of a list has been replaced; the list afterwards. -/
  | changed (container : Value)

/-- What a script asks of its host. -/
class Host (M : Type → Type) extends Monad M where
  /-- Fails on the line of the current statement. -/
  fail {α : Type} (cause : Fault) : M α
  /-- Takes a step. The first step over the limit ends the run. -/
  tick : M Unit
  /-- Begins the statement on a line. -/
  enterLine (line : Nat) : M Unit
  /-- The value of a name. -/
  lookUp (name : String) : M (Option Value)
  /-- Binds a name. -/
  bindName (name : String) (v : Value) : M Unit
  /-- Does something that begins without a binding of a name. Afterwards, also after a failure, the
  name has again the binding that it had, if it had one. -/
  shadow {α : Type} (name : String) (x : M α) : M α
  /-- Adds a line to the output. -/
  writeLine (line : String) : M Unit
  /-- Draws with the generator. An operation that fails leaves the generator as it is. -/
  draw {α : Type} (x : Generator → Outcome (α × Generator)) : M α
  /-- Takes a step and does a round, over and over, until a round is the last. -/
  rounds (round : M Bool) : M Unit
  /-- Takes notice of a value. -/
  report (r : Report) : M Unit

namespace Host

variable {M : Type → Type} [Host M]

/-- The outcome of an operation on values. -/
def ofOutcome (x : Outcome α) : M α :=
  match x with
  | .ok a => pure a
  | .error cause => fail cause

/-- Does something with each item, until one of the rounds breaks the loop. -/
@[specialize] def forEach (body : Value → M Flow) : List Value → M Unit
  | [] => pure ()
  | v :: rest => do
      match ← body v with
      | .breakLoop => return ()
      | _ => forEach body rest

/-- Collects what an action gives for items, if it gives anything. `bytes` is the room that the
values take, `count` their number and `kept` holds them back to front. -/
@[specialize] def collect (element : Value → M (Option Value)) (bytes count : Nat)
    (kept : List Value) : List Value → M (List Value)
  | [] => return kept.reverse
  | v :: rest => do
      match ← element v with
      | none => collect element bytes count kept rest
      | some w => do
          let bytes := bytes + w.sizeBytes
          ofOutcome (checkBytes bytes)
          ofOutcome (checkItems (count + 1))
          collect element bytes (count + 1) (w :: kept) rest

end Host
end PromptWeave.Script
