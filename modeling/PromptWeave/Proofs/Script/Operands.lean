import PromptWeave.Proofs.Script.Inversion

/-!
# Expressions whose operands have values

An expression that has a step left takes it and evaluates its operands from left to right. If these have
values, it comes to what its operation makes of the values, be that a value or a failure.
-/
namespace PromptWeave.Script

open PromptWeave.Script.Action

/-- The operands of an expression have values: there is a step for the expression, and after it the
operands come to the values, one after another. -/
structure Operands (limits : Limits) (m : Machine) (operands : List Expr) (values : List Value)
    (m' : Machine) : Prop where
  steps : m.steps < limits.maxSteps
  evaluated : Succeeds limits m.stepped (evalAll operands) values m'

/-- The arguments of a call have values, and the name that is called is not bound to anything. -/
structure Called (limits : Limits) (m : Machine) (name : String) (args : List Expr)
    (values : List Value) (m' : Machine) : Prop extends Operands limits m args values m' where
  free : m.get? name = none

/-- The sequence that is cut has a value, and so has each bound that is there. -/
structure SliceOperands (limits : Limits) (m : Machine) (target : Expr) (start stop : Option Expr)
    (t : Value) (a b : Option Value) (m' : Machine) : Prop where
  steps : m.steps < limits.maxSteps
  evaluated : ∃ m₁ m₂, Succeeds limits m.stepped target.eval t m₁ ∧
    Succeeds limits m₁ (evalOptional start) a m₂ ∧ Succeeds limits m₂ (evalOptional stop) b m'

/-- Whether an expression comes to an outcome: a value, or a failure on the line of the statement that
was begun last. -/
def HasOutcome (limits : Limits) (m : Machine) (e : Expr) (outcome : Outcome Value) (m' : Machine) :
    Prop :=
  (e.eval : Action Value) limits m = (outcome.mapError (.fault m'.line), m')

/-- Whether an expression fails with a message. -/
def Raises (limits : Limits) (m : Machine) (e : Expr) (message : String) (m' : Machine) : Prop :=
  ∃ cause : Fault, HasOutcome limits m e (.error cause) m' ∧ cause.message = message

variable {limits : Limits} {m m₁ m₂ m' : Machine} {e left right target : Expr} {args : List Expr}
  {name : String} {l r t v : Value} {values : List Value} {a b : Option Value}
  {start stop : Option Expr} {message : String}

/-- A machine that has taken some more steps. -/
def Machine.later (m : Machine) (n : Nat) : Machine := { m with steps := m.steps + n }

/-- A variable takes one step of those that are left. -/
theorem succeeds_var_later (h : m.get? name = some v) {n : Nat} (hn : m.steps + n < limits.maxSteps) :
    Succeeds limits (m.later n) (Expr.var name).eval v (m.later (n + 1)) :=
  succeeds_var.2 ⟨hn, h, rfl⟩

theorem ofOutcome_apply (x : Outcome Value) :
    (Host.ofOutcome x : Action Value) limits m = (x.mapError (.fault m.line), m) := by
  cases x <;> rfl

theorem succeeds_evalAll_one :
    Succeeds limits m (evalAll [e]) [v] m' ↔ Succeeds limits m e.eval v m' := by
  rw [succeeds_evalAll_cons]
  constructor
  · rintro ⟨w, mid, rest, he, hrest, heq⟩
    obtain ⟨rfl, rfl⟩ := succeeds_evalAll_nil.1 hrest
    cases heq
    exact he
  · intro he
    exact ⟨v, m', [], he, succeeds_evalAll_nil.2 ⟨rfl, rfl⟩, rfl⟩

theorem succeeds_evalAll_two : Succeeds limits m (evalAll [left, right]) [l, r] m' ↔
    ∃ mid, Succeeds limits m left.eval l mid ∧ Succeeds limits mid right.eval r m' := by
  rw [succeeds_evalAll_cons]
  constructor
  · rintro ⟨_, mid, rest, hleft, hrest, heq⟩
    cases heq
    exact ⟨mid, hleft, succeeds_evalAll_one.1 hrest⟩
  · rintro ⟨mid, hleft, hright⟩
    exact ⟨l, mid, [r], hleft, succeeds_evalAll_one.2 hright, rfl⟩

/-- A binary expression comes to what its operator makes of the values of its sides. -/
theorem hasOutcome_binary (op : BinaryOp) (h : Operands limits m [left, right] [l, r] m') :
    HasOutcome limits m (.binary op left right) (op.apply l r) m' := by
  obtain ⟨mid, hleft, hright⟩ := succeeds_evalAll_two.1 h.evaluated
  rw [HasOutcome, Expr.eval, evaluating_apply h.steps, bind_ok _ hleft, bind_ok _ hright,
    ofOutcome_apply]

theorem hasOutcome_neg (h : Operands limits m [e] [v] m') :
    HasOutcome limits m (.neg e) (negate v) m' := by
  have hoperand : Succeeds limits m.stepped e.eval v m' := succeeds_evalAll_one.1 h.evaluated
  rw [HasOutcome, Expr.eval, evaluating_apply h.steps, bind_ok _ hoperand, ofOutcome_apply]

theorem hasOutcome_index (h : Operands limits m [target, e] [t, v] m') :
    HasOutcome limits m (.index target e) (itemAt t v) m' := by
  obtain ⟨mid, htarget, hindex⟩ := succeeds_evalAll_two.1 h.evaluated
  rw [HasOutcome, Expr.eval, evaluating_apply h.steps, bind_ok _ htarget, bind_ok _ hindex,
    ofOutcome_apply]

theorem hasOutcome_slice (h : SliceOperands limits m target start stop t a b m') :
    HasOutcome limits m (.slice target start stop) (slice t a b) m' := by
  obtain ⟨m₁, m₂, htarget, hstart, hstop⟩ := h.evaluated
  rw [HasOutcome, Expr.eval, evaluating_apply h.steps, bind_ok _ htarget, bind_ok _ hstart,
    bind_ok _ hstop, ofOutcome_apply]

/-- A call of a built-in function by a name that is not bound comes to what the function makes of the
values of the arguments. -/
theorem hasOutcome_call {f : Function} (hname : Builtin.ofName? name = some (.function f))
    (h : Called limits m name args values m') :
    HasOutcome limits m (.call (.var name) args) (f.apply values) m' := by
  have hfree : Succeeds limits m.stepped (lookUp name) none m.stepped :=
    succeeds_lookUp.2 ⟨h.free.symm, rfl⟩
  rw [HasOutcome, Expr.eval, evaluating_apply h.steps, host_lookUp, bind_ok _ hfree]
  dsimp only
  rw [bind_ok _ h.evaluated, callBuiltin, hname]
  exact ofOutcome_apply _

end PromptWeave.Script
