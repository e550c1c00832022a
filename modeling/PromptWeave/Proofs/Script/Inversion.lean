import PromptWeave.Proofs.Script.Confinement

/-!
# Successful evaluations taken apart

What it takes for an evaluation to succeed, form by form: the evaluations that it is made of, each with
the machine that it is left with. Only the forms that read and write places are taken apart here.
-/
namespace PromptWeave.Script

/-- A machine that has taken one more step. -/
def Machine.stepped (m : Machine) : Machine := { m with steps := m.steps + 1 }

@[simp] theorem Machine.get?_stepped (m : Machine) (name : String) :
    m.stepped.get? name = m.get? name := rfl

namespace Action

variable {α β : Type} {limits : Limits} {m m' : Machine}

/-- Whether an action succeeds, with what it gives and the machine that it is left with. -/
def Succeeds (limits : Limits) (m : Machine) (x : Action α) (a : α) (m' : Machine) : Prop :=
  x limits m = (.ok a, m')

theorem succeeds_of_fst (x : Action α) {a : α} (h : (x limits m).1 = .ok a) :
    Succeeds limits m x a (x limits m).2 := Prod.ext h rfl

theorem succeeds_pure {a b : α} : Succeeds limits m (pure a) b m' ↔ b = a ∧ m = m' := by
  simp [Succeeds, pure_apply, eq_comm]

theorem succeeds_bind {x : Action α} {f : α → Action β} {b : β} :
    Succeeds limits m (x >>= f) b m' ↔
      ∃ a mid, Succeeds limits m x a mid ∧ Succeeds limits mid (f a) b m' := by
  unfold Succeeds
  rw [bind_apply]
  rcases x limits m with ⟨_ | a, mid⟩ <;> simp

theorem not_succeeds_fail {cause : Fault} {a : α} : ¬ Succeeds limits m (fail cause) a m' := nofun

theorem succeeds_tick {a : Unit} :
    Succeeds limits m tick a m' ↔ m.steps < limits.maxSteps ∧ m' = m.stepped := by
  unfold Succeeds tick
  dsimp only
  split
  · simp
    omega
  · simp [Machine.stepped, eq_comm]
    omega

theorem succeeds_lookUp {name : String} {found : Option Value} :
    Succeeds limits m (lookUp name) found m' ↔ found = m.get? name ∧ m = m' := by
  simp [Succeeds, lookUp, eq_comm]

theorem succeeds_bindName {name : String} {v : Value} {a : Unit} :
    Succeeds limits m (bindName name v) a m' ↔ m' = m.bind name v := by
  simp [Succeeds, bindName, eq_comm]

theorem succeeds_ofOutcome {x : Outcome α} {a : α} :
    Succeeds limits m (Host.ofOutcome x) a m' ↔ x = .ok a ∧ m = m' := by
  cases x with
  | ok b => simp [Host.ofOutcome, succeeds_pure, eq_comm]
  | error cause => simp [Host.ofOutcome, not_succeeds_fail]

end Action

open PromptWeave.Script.Action

variable {limits : Limits} {m m' : Machine} {v : Value} {name : String} {target index : Expr}
  {args : List Expr}

theorem succeeds_evaluating {e : Expr} {x : Action Value} :
    Succeeds limits m (evaluating e x) v m' ↔
      m.steps < limits.maxSteps ∧ Succeeds limits m.stepped x v m' := by
  simp only [evaluating, host_tick, host_report, succeeds_bind, succeeds_tick, succeeds_pure]
  constructor
  · rintro ⟨_, _, ⟨hsteps, rfl⟩, a, _, hx, _, _, ⟨-, rfl⟩, rfl, rfl⟩
    exact ⟨hsteps, hx⟩
  · rintro ⟨hsteps, hx⟩
    exact ⟨(), _, ⟨hsteps, rfl⟩, v, m', hx, (), m', ⟨trivial, rfl⟩, rfl, rfl⟩

/-- An expression with a step left is evaluated by what its form says. -/
theorem evaluating_apply (h : m.steps < limits.maxSteps) (e : Expr) (x : Action Value) :
    evaluating e x limits m = x limits m.stepped := by
  have htick : Succeeds limits m tick () m.stepped := succeeds_tick.2 ⟨h, rfl⟩
  rw [evaluating, host_tick, bind_ok _ htick, bind_apply]
  rcases x limits m.stepped with ⟨e | v, m'⟩ <;> rfl

theorem succeeds_readVariable :
    Succeeds limits m (readVariable name) v m' ↔ m.get? name = some v ∧ m = m' := by
  rw [readVariable, host_lookUp, succeeds_bind]
  simp only [succeeds_lookUp]
  constructor
  · rintro ⟨_, _, ⟨rfl, rfl⟩, hread⟩
    cases hfound : m.get? name with
    | none =>
        rw [hfound] at hread
        dsimp only at hread
        split at hread <;> cases hread
    | some found =>
        rw [hfound] at hread
        obtain ⟨rfl, rfl⟩ := succeeds_pure.1 hread
        exact ⟨rfl, rfl⟩
  · rintro ⟨hfound, rfl⟩
    refine ⟨_, _, ⟨rfl, rfl⟩, ?_⟩
    rw [hfound]
    exact succeeds_pure.2 ⟨rfl, rfl⟩

theorem succeeds_int {n : Int64} : Succeeds limits m (Expr.int n).eval v m' ↔
    m.steps < limits.maxSteps ∧ v = .int n ∧ m.stepped = m' := by
  rw [Expr.eval, succeeds_evaluating, succeeds_pure]

theorem succeeds_evalAll_nil {values : List Value} :
    Succeeds limits m (evalAll []) values m' ↔ values = [] ∧ m = m' := by
  rw [evalAll, succeeds_pure]

theorem succeeds_evalAll_cons {e : Expr} {es : List Expr} {values : List Value} :
    Succeeds limits m (evalAll (e :: es)) values m' ↔ ∃ v mid rest, Succeeds limits m e.eval v mid ∧
      Succeeds limits mid (evalAll es) rest m' ∧ values = v :: rest := by
  rw [evalAll]
  simp only [succeeds_bind, succeeds_pure]
  constructor
  · rintro ⟨v, mid, hv, rest, _, hrest, rfl, rfl⟩
    exact ⟨v, mid, rest, hv, hrest, rfl⟩
  · rintro ⟨v, mid, rest, hv, hrest, rfl⟩
    exact ⟨v, mid, hv, rest, m', hrest, rfl, rfl⟩

/-! ### Reading and writing places -/

theorem succeeds_var : Succeeds limits m (Expr.var name).eval v m' ↔
    m.steps < limits.maxSteps ∧ m.get? name = some v ∧ m' = m.stepped := by
  rw [Expr.eval, succeeds_evaluating, succeeds_readVariable, Machine.get?_stepped, eq_comm (a := m')]

/-- The container of an item is read before the index. -/
theorem succeeds_index : Succeeds limits m (Expr.index target index).eval v m' ↔
    m.steps < limits.maxSteps ∧ ∃ container mid i,
      Succeeds limits m.stepped target.eval container mid ∧ Succeeds limits mid index.eval i m' ∧
        itemAt container i = .ok v := by
  rw [Expr.eval, succeeds_evaluating]
  simp only [succeeds_bind, succeeds_ofOutcome]
  constructor
  · rintro ⟨hsteps, container, mid, htarget, i, _, hindex, hitem, rfl⟩
    exact ⟨hsteps, container, mid, i, htarget, hindex, hitem⟩
  · rintro ⟨hsteps, container, mid, i, htarget, hindex, hitem⟩
    exact ⟨hsteps, container, mid, htarget, i, m', hindex, hitem, rfl⟩

theorem succeeds_store_var {a : Unit} :
    Succeeds limits m ((Expr.var name).store v) a m' ↔ m' = m.bind name v := by
  rw [Expr.store, host_bindName, succeeds_bindName]

/-- The index is evaluated before the container is read, and the container is written back last. -/
theorem succeeds_store_index {a : Unit} : Succeeds limits m ((Expr.index target index).store v) a m' ↔
    ∃ i mid container last changed, Succeeds limits m index.eval i mid ∧
      Succeeds limits mid target.eval container last ∧ withItem container i v = .ok changed ∧
        Succeeds limits last (target.store changed) a m' := by
  rw [Expr.store]
  simp only [succeeds_bind, succeeds_ofOutcome, host_report, succeeds_pure]
  constructor
  · rintro ⟨i, mid, hindex, container, last, htarget, changed, _, ⟨hchanged, rfl⟩, _, _, ⟨-, rfl⟩,
      hstore⟩
    exact ⟨i, mid, container, last, changed, hindex, htarget, hchanged, hstore⟩
  · rintro ⟨i, mid, container, last, changed, hindex, htarget, hchanged, hstore⟩
    exact ⟨i, mid, hindex, container, last, htarget, changed, _, ⟨hchanged, rfl⟩, (), _, ⟨trivial, rfl⟩,
      hstore⟩

theorem succeeds_assign {target value : Expr} {flow : Flow} :
    Succeeds limits m (Act.assign target value).run flow m' ↔
      flow = .next ∧ ∃ v mid, Succeeds limits m value.eval v mid ∧
        Succeeds limits mid (target.store v) () m' := by
  rw [Act.run]
  simp only [succeeds_bind, succeeds_pure]
  constructor
  · rintro ⟨v, mid, hvalue, _, _, hstore, rfl, rfl⟩
    exact ⟨rfl, v, mid, hvalue, hstore⟩
  · rintro ⟨rfl, v, mid, hvalue, hstore⟩
    exact ⟨v, mid, hvalue, (), m', hstore, rfl, rfl⟩

/-- The target is read before the other value is evaluated. -/
theorem succeeds_update {target value : Expr} {op : BinaryOp} {flow : Flow} :
    Succeeds limits m (Act.update target op value).run flow m' ↔
      flow = .next ∧ ∃ current mid v last w, Succeeds limits m target.eval current mid ∧
        Succeeds limits mid value.eval v last ∧ op.apply current v = .ok w ∧
          Succeeds limits last (target.store w) () m' := by
  rw [Act.run]
  simp only [succeeds_bind, succeeds_ofOutcome, succeeds_pure]
  constructor
  · rintro ⟨current, mid, htarget, v, last, hvalue, w, _, ⟨hw, rfl⟩, _, _, hstore, rfl, rfl⟩
    exact ⟨rfl, current, mid, v, last, w, htarget, hvalue, hw, hstore⟩
  · rintro ⟨rfl, current, mid, v, last, w, htarget, hvalue, hw, hstore⟩
    exact ⟨current, mid, htarget, v, last, hvalue, w, _, ⟨hw, rfl⟩, (), m', hstore, rfl, rfl⟩

/-! ### Calls of changing methods -/

/-- No value but a list has a method of such a name. -/
theorem not_succeeds_callMember {method : Mutator} (hmethod : Mutator.ofName? name = some method)
    {receiver : Value} (hreceiver : ∀ items, receiver ≠ .list items) (values : List Value) :
    ¬ Succeeds limits m (callMember receiver name values) v m' := by
  intro hcall
  unfold Mutator.ofName? at hmethod
  cases receiver with
  | list items => exact hreceiver items rfl
  | library l =>
      split at hmethod
      case h_9 => cases hmethod
      all_goals cases l <;> cases hcall
  | str s =>
      split at hmethod
      case h_9 => cases hmethod
      all_goals cases hcall
  | _ => cases hcall

/-- The changed list is written back to a place and to nothing else. -/
theorem succeeds_writeBack {result : Value} {changed : List Value} :
    Succeeds limits m (do
        if target.isPlace then target.store (.list changed)
        return result) v m' ↔
      v = result ∧
        if target.isPlace then Succeeds limits m (target.store (.list changed)) () m' else m = m' := by
  by_cases hplace : target.isPlace
  · simp only [hplace, if_true, succeeds_bind, succeeds_pure]
    constructor
    · rintro ⟨_, _, hstore, rfl, rfl⟩
      exact ⟨rfl, hstore⟩
    · rintro ⟨rfl, hstore⟩
      exact ⟨(), m', hstore, rfl, rfl⟩
  · simp only [hplace, Bool.false_eq_true, if_false, succeeds_pure]

/-- A call of a changing method reads its receiver, evaluates its arguments, changes the list that was
read and writes it back, if the receiver is a place. -/
theorem succeeds_mutation {method : Mutator} (hmethod : Mutator.ofName? name = some method) :
    Succeeds limits m (Expr.call (.attribute target name) args).eval v m' ↔
      m.steps < limits.maxSteps ∧ ∃ items mid values last changed,
        Succeeds limits m.stepped target.eval (.list items) mid ∧
        Succeeds limits mid (evalAll args) values last ∧
        method.apply items values = .ok (v, changed) ∧
        if target.isPlace then Succeeds limits last (target.store (.list changed)) () m'
        else last = m' := by
  have hsome (items : List Value) : mutation? (.list items) name = some (method, items) :=
    mutation?_eq_some.2 ⟨rfl, hmethod⟩
  rw [Expr.eval, succeeds_evaluating]
  simp only [succeeds_bind]
  constructor
  · rintro ⟨hsteps, receiver, mid, htarget, values, last, hargs, hcall⟩
    by_cases hlist : ∃ items, receiver = .list items
    · obtain ⟨items, rfl⟩ := hlist
      rw [hsome] at hcall
      obtain ⟨⟨result, changed⟩, _, hgiven, hback⟩ := succeeds_bind.1 hcall
      obtain ⟨happly, rfl⟩ := succeeds_ofOutcome.1 hgiven
      obtain ⟨rfl, hwritten⟩ := succeeds_writeBack.1 hback
      exact ⟨hsteps, items, mid, values, last, changed, htarget, hargs, happly, hwritten⟩
    · have hnone : mutation? receiver name = none := by
        cases receiver with
        | list items => exact (hlist ⟨items, rfl⟩).elim
        | _ => rfl
      rw [hnone] at hcall
      exact (not_succeeds_callMember hmethod (fun items h => hlist ⟨items, h⟩) values hcall).elim
  · rintro ⟨hsteps, items, mid, values, last, changed, htarget, hargs, happly, hwritten⟩
    refine ⟨hsteps, .list items, mid, htarget, values, last, hargs, ?_⟩
    rw [hsome]
    exact succeeds_bind.2 ⟨(v, changed), last, succeeds_ofOutcome.2 ⟨happly, rfl⟩,
      succeeds_writeBack.2 ⟨rfl, hwritten⟩⟩

end PromptWeave.Script
