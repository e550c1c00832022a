import PromptWeave.Proofs.Script.Congruence

/-!
# Scripts on two hosts

A relation between the doings of two hosts that every operation of a host respects is respected by
every script, whatever names stand in it. One induction over the syntax serves all statements about pairs
of runs: the same run with two limits, or a run of the machine and a run that is watched.
-/
namespace PromptWeave.Script

variable {M N : Type → Type} [Host M] [Host N]

/-- What the operations of two hosts have to respect, so that all scripts do. -/
structure Simulation (R : (α : Type) → M α → N α → Prop) : Prop where
  pure {α : Type} (a : α) : R _ (pure a : M α) (pure a)
  bind {α β : Type} {x : M α} {y : N α} {f : α → M β} {g : α → N β} :
    R _ x y → (∀ a, R _ (f a) (g a)) → R _ (x >>= f) (y >>= g)
  fail {α : Type} (cause : Fault) : R _ (Host.fail cause : M α) (Host.fail cause)
  tick : R _ (Host.tick : M Unit) Host.tick
  enterLine (line : Nat) : R _ (Host.enterLine line : M Unit) (Host.enterLine line)
  lookUp (name : String) : R _ (Host.lookUp name : M (Option Value)) (Host.lookUp name)
  bindName (name : String) (v : Value) : R _ (Host.bindName name v : M Unit) (Host.bindName name v)
  shadow {α : Type} {x : M α} {y : N α} (name : String) :
    R _ x y → R _ (Host.shadow name x) (Host.shadow name y)
  writeLine (line : String) : R _ (Host.writeLine line : M Unit) (Host.writeLine line)
  draw {α : Type} (x : Random.Generator → Outcome (α × Random.Generator)) :
    R _ (Host.draw x : M α) (Host.draw x)
  rounds {x : M Bool} {y : N Bool} : R _ x y → R _ (Host.rounds x) (Host.rounds y)
  report (r : Report) : R _ (Host.report r : M Unit) (Host.report r)

namespace Simulation

variable {R : (α : Type) → M α → N α → Prop} (h : Simulation R)
include h

/-- Expressions need no more than that of a relation, whatever names stand in them. -/
theorem correspondence : Correspondence (fun _ => True) R where
  pure := h.pure
  bind := h.bind
  fail := h.fail
  tick := h.tick
  lookUp name _ := h.lookUp name
  bindName name v _ := h.bindName name v
  shadow name _ := h.shadow name
  writeLine := h.writeLine
  draw := h.draw
  report := h.report

/-- Both hosts are left with what an operation on values gives. -/
theorem ofOutcome {α : Type} (x : Outcome α) :
    R _ (Host.ofOutcome x : M α) (Host.ofOutcome x) :=
  h.correspondence.ofOutcome x

theorem forEach {body : Value → M Flow} {body' : Value → N Flow}
    (hbody : ∀ v, R _ (body v) (body' v)) (items : List Value) :
    R _ (Host.forEach body items) (Host.forEach body' items) := by
  induction items with
  | nil => exact h.pure ()
  | cons v rest ih =>
      refine h.bind (hbody v) fun flow => ?_
      cases flow with
      | breakLoop => exact h.pure ()
      | next => exact ih
      | continueLoop => exact ih

/-- Every expression does on both hosts what the relation allows. -/
theorem eval (e : Expr) : R _ (e.eval : M Value) e.eval :=
  h.correspondence.eval e fun _ _ => trivial

theorem store (e : Expr) (v : Value) : R _ (e.store v : M Unit) (e.store v) :=
  h.correspondence.store e (fun _ _ => trivial) v

mutual

/-- Every statement does on both hosts what the relation allows. -/
theorem run : (s : Stmt) → R _ (s.run : M Flow) s.run
  | .mk line act => h.bind (h.enterLine line) fun _ => h.bind h.tick fun _ => runAct act

theorem runAct : (a : Act) → R _ (a.run : M Flow) a.run
  | .eval e => h.bind (h.eval e) fun _ => h.pure _
  | .assign target value => h.bind (h.eval value) fun v => h.bind (h.store target v) fun _ => h.pure _
  | .update target _ value =>
      h.bind (h.eval target) fun _ => h.bind (h.eval value) fun _ => h.bind (h.ofOutcome _) fun v =>
        h.bind (h.store target v) fun _ => h.pure _
  | .choose arms => runArms arms
  | .forEach name source body => by
      rw [Act.run, Act.run]
      refine h.bind (h.eval source) fun _ => h.bind (h.ofOutcome _) fun items => ?_
      refine h.bind (h.forEach (fun v => ?_) items) fun _ => h.pure _
      exact h.bind h.tick fun _ => h.bind (h.bindName name v) fun _ => runAll body
  | .whileTrue condition body => by
      rw [Act.run, Act.run]
      refine h.bind (h.rounds (h.bind (h.eval condition) fun v => ?_)) fun _ => h.pure _
      split
      · refine h.bind (runAll body) fun flow => ?_
        cases flow <;> exact h.pure _
      · exact h.pure _
  | .breakLoop => h.pure _
  | .continueLoop => h.pure _

theorem runArms : (a : Arms) → R _ (a.run : M Flow) a.run
  | .when condition body rest => by
      rw [Arms.run, Arms.run]
      refine h.bind (h.eval condition) fun v => ?_
      split
      · exact runAll body
      · exact runArms rest
  | .otherwise body => runAll body
  | .done => h.pure _

theorem runAll : (program : List Stmt) → R _ (Script.runAll program : M Flow) (Script.runAll program)
  | [] => h.pure _
  | s :: rest => by
      rw [Script.runAll, Script.runAll]
      refine h.bind (run s) fun flow => ?_
      cases flow with
      | next => exact runAll rest
      | breakLoop => exact h.pure _
      | continueLoop => exact h.pure _

end

/-- Every program does on both hosts what the relation allows. -/
theorem perform (program : List Stmt) :
    R _ (Script.perform program : M Unit) (Script.perform program) :=
  h.bind (h.runAll program) fun _ => h.pure _

end Simulation
end PromptWeave.Script
