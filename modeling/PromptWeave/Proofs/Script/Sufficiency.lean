import PromptWeave.Proofs.Script.Budget
import PromptWeave.Proofs.Script.Confinement

/-!
# Sufficient budgets

Expressions do not loop without end. On every machine there is a number of steps that is enough for an
expression: with as many steps or more the evaluation is not cut off, and always comes to the same end.
A loop over the items of a list needs finitely many steps if each of its rounds does.
-/
namespace PromptWeave.Script

open PromptWeave.Script.Action

variable {α β : Type}

/-- Whether an action comes to one and the same end with any sufficient number of steps. -/
def Finishes (x : Action α) : Prop :=
  ∀ bytes m, ∃ enough outcome, ¬ IsCut outcome.1 ∧
    ∀ steps, enough ≤ steps → x ⟨steps, bytes⟩ m = outcome

/-- What takes no steps finishes. -/
theorem Finishes.of_forall {x : Action α}
    (h : ∀ bytes m, ∃ outcome, ¬ IsCut outcome.1 ∧ ∀ steps, x ⟨steps, bytes⟩ m = outcome) :
    Finishes x := by
  intro bytes m
  obtain ⟨outcome, hcut, hrun⟩ := h bytes m
  exact ⟨0, outcome, hcut, fun steps _ => hrun steps⟩

theorem finishes_pure (a : α) : Finishes (pure a) :=
  .of_forall fun _ m => ⟨(.ok a, m), not_isCut_ok a, fun _ => rfl⟩

theorem finishes_fail (cause : Fault) : Finishes (fail cause : Action α) :=
  .of_forall fun _ m => ⟨(.error (.fault m.line cause), m), not_isCut_fault _ _, fun _ => rfl⟩

theorem finishes_bind {x : Action α} {f : α → Action β} (hx : Finishes x)
    (hf : ∀ a, Finishes (f a)) : Finishes (x >>= f) := by
  intro bytes m
  obtain ⟨enough, ⟨result, mid⟩, hcut, hrun⟩ := hx bytes m
  cases result with
  | error e =>
      exact ⟨enough, (.error e, mid), fun h => hcut ((isCut_error_iff e).1 h),
        fun steps hsteps => bind_error f (hrun steps hsteps)⟩
  | ok a =>
      obtain ⟨more, outcome, hcut', hrest⟩ := hf a bytes mid
      refine ⟨max enough more, outcome, hcut', fun steps hsteps => ?_⟩
      rw [bind_ok f (hrun steps (by omega))]
      exact hrest steps (by omega)

theorem finishes_tick : Finishes tick := by
  intro bytes m
  refine ⟨m.steps + 1, (.ok (), { m with steps := m.steps + 1 }), not_isCut_ok (), ?_⟩
  intro steps hsteps
  unfold tick
  dsimp only
  rw [if_neg (by omega)]

theorem finishes_shadow {x : Action α} (name : String) (hx : Finishes x) :
    Finishes (shadow name x) := by
  intro bytes m
  obtain ⟨enough, outcome, hcut, hrun⟩ := hx bytes (m.unbind name)
  refine ⟨enough, (outcome.1, outcome.2.restore name (m.get? name)), hcut, fun steps hsteps => ?_⟩
  unfold shadow
  rw [hrun steps hsteps]

theorem finishes_draw (x : Random.Generator → Outcome (α × Random.Generator)) :
    Finishes (draw x) := by
  refine .of_forall fun bytes m => ?_
  unfold draw
  rcases x m.generator with cause | ⟨a, generator⟩
  · exact ⟨_, not_isCut_fault _ _, fun _ => rfl⟩
  · exact ⟨_, not_isCut_ok _, fun _ => rfl⟩

/-- Every expression finishes, whatever it binds. -/
theorem confined_finishes : Confined (M := Action) (fun _ => True) fun _ x => Finishes x where
  pure := finishes_pure
  bind := finishes_bind
  fail cause _ := finishes_fail cause
  tick := finishes_tick
  lookUp name := .of_forall fun _ m => ⟨(.ok (m.get? name), m), not_isCut_ok _, fun _ => rfl⟩
  bindName name v _ := .of_forall fun _ m => ⟨(.ok (), m.bind name v), not_isCut_ok _, fun _ => rfl⟩
  shadow name hx := finishes_shadow name (hx trivial)
  writeLine line :=
    .of_forall fun bytes m => ⟨(.ok (), m.write bytes line), not_isCut_ok _, fun _ => rfl⟩
  draw x _ := finishes_draw x
  report _ := finishes_pure ()

theorem finishes_eval (e : Expr) : Finishes (e.eval : Action Value) :=
  confined_finishes.eval e fun _ _ => trivial

theorem finishes_store {p : Expr} (hp : p.isPlace = true) (v : Value) :
    Finishes (p.store v : Action Unit) :=
  confined_finishes.store p hp (fun _ _ => trivial) (fun _ _ => trivial) v

theorem finishes_forEach {body : Value → Action Flow} (hbody : ∀ v, Finishes (body v))
    (items : List Value) : Finishes (Host.forEach body items) := by
  induction items with
  | nil => exact finishes_pure ()
  | cons v rest ih =>
      refine finishes_bind (hbody v) fun flow => ?_
      cases flow with
      | breakLoop => exact finishes_pure ()
      | next => exact ih
      | continueLoop => exact ih

/-! ### Statements -/

theorem finishes_stmt {act : Act} (hact : Finishes (act.run : Action Flow)) (line : Nat) :
    Finishes ((Stmt.mk line act).run : Action Flow) := by
  have hline : Finishes (enterLine line) :=
    .of_forall fun _ m => ⟨(.ok (), { m with line }), not_isCut_ok (), fun _ => rfl⟩
  rw [Stmt.run]
  exact finishes_bind hline fun _ => finishes_bind finishes_tick fun _ => hact

theorem finishes_runAll {program : List Stmt} (h : ∀ s ∈ program, Finishes (s.run : Action Flow)) :
    Finishes (runAll program : Action Flow) := by
  induction program with
  | nil => exact finishes_pure _
  | cons s rest ih =>
      rw [runAll]
      refine finishes_bind (h s List.mem_cons_self) fun flow => ?_
      cases flow with
      | next => exact ih fun s hs => h s (List.mem_cons_of_mem _ hs)
      | breakLoop => exact finishes_pure _
      | continueLoop => exact finishes_pure _

theorem finishes_eval_act (e : Expr) : Finishes ((Act.eval e).run : Action Flow) := by
  rw [Act.run]
  exact finishes_bind (finishes_eval e) fun _ => finishes_pure _

theorem finishes_assign {p : Expr} (hp : p.isPlace = true) (value : Expr) :
    Finishes ((Act.assign p value).run : Action Flow) := by
  rw [Act.run]
  exact finishes_bind (finishes_eval value) fun v => finishes_bind (finishes_store hp v) fun _ =>
    finishes_pure _

theorem finishes_when {condition : Expr} {body : List Stmt} {rest : Arms}
    (hbody : Finishes (runAll body : Action Flow)) (hrest : Finishes (rest.run : Action Flow)) :
    Finishes ((Arms.when condition body rest).run : Action Flow) := by
  rw [Arms.run]
  refine finishes_bind (finishes_eval condition) fun v => ?_
  split
  · exact hbody
  · exact hrest

/-- A loop over the items of a list finishes if its body does. -/
theorem finishes_forEach_act {body : List Stmt} (hbody : Finishes (runAll body : Action Flow))
    (x : String) (source : Expr) : Finishes ((Act.forEach x source body).run : Action Flow) := by
  rw [Act.run]
  refine finishes_bind (finishes_eval source) fun v => ?_
  refine finishes_bind (confined_finishes.ofOutcome (spares_iterate v)) fun items => ?_
  refine finishes_bind (finishes_forEach (fun w => ?_) items) fun _ => finishes_pure _
  exact finishes_bind finishes_tick fun _ =>
    finishes_bind (confined_finishes.bindName x w trivial) fun _ => hbody

end PromptWeave.Script
