import PromptWeave.Proofs.Script.Budget
import PromptWeave.Proofs.Script.Flow
import PromptWeave.Proofs.Script.Inversion

/-!
# Failures of statements

A run that fails with a fault fails in one statement, the innermost to which what cannot be evaluated
belongs. The statement is found along the run: past what has succeeded, and into the body that has not.
-/
namespace PromptWeave.Script

open PromptWeave.Script.Action

namespace Action

variable {α β : Type} {limits : Limits} {m m' : Machine} {line : Nat} {cause : Fault}

/-- Whether an action fails with a fault, with the line that it is reported on. -/
def Faults (limits : Limits) (m : Machine) (x : Action α) (line : Nat) (cause : Fault) : Prop :=
  (x limits m).1 = .error (.fault line cause)

theorem not_faults_pure {a : α} : ¬Faults limits m (pure a) line cause := nofun

/-- One thing after another fails where the first fails, and where the first succeeds and the other
fails. -/
theorem faults_bind {x : Action α} {f : α → Action β} :
    Faults limits m (x >>= f) line cause ↔
      Faults limits m x line cause ∨
        ∃ a mid, Succeeds limits m x a mid ∧ Faults limits mid (f a) line cause := by
  unfold Faults Succeeds
  rw [bind_apply]
  rcases x limits m with ⟨e | a, mid⟩ <;> simp

theorem faults_tick_bind {f : Unit → Action α} :
    Faults limits m (tick >>= f) line cause ↔
      m.steps < limits.maxSteps ∧ Faults limits m.stepped (f ()) line cause := by
  rw [faults_bind]
  simp only [succeeds_tick]
  constructor
  · rintro (hfaults | ⟨_, _, ⟨hsteps, rfl⟩, hfaults⟩)
    · unfold Faults tick at hfaults
      dsimp only at hfaults
      split at hfaults <;> cases hfaults
    · exact ⟨hsteps, hfaults⟩
  · rintro ⟨hsteps, hfaults⟩
    exact .inr ⟨(), _, ⟨hsteps, rfl⟩, hfaults⟩

/-- What succeeds does not fail. -/
theorem Succeeds.not_faults {x : Action α} {a : α} (h : Succeeds limits m x a m') :
    ¬Faults limits m x line cause := by
  intro hfaults
  rw [Faults, h] at hfaults
  cases hfaults

theorem Succeeds.unique {x : Action α} {a b : α} {m₁ m₂ : Machine} (h : Succeeds limits m x a m₁)
    (h' : Succeeds limits m x b m₂) : a = b ∧ m₁ = m₂ := by
  have heq : (Except.ok a, m₁) = (Except.ok b, m₂) := h.symm.trans h'
  cases heq
  exact ⟨rfl, rfl⟩

theorem Faults.unique {x : Action α} {line' : Nat} {cause' : Fault}
    (h : Faults limits m x line cause) (h' : Faults limits m x line' cause') :
    line = line' ∧ cause = cause' := by
  have heq : (Except.error (Stop.fault line cause) : Except Stop α) = .error (.fault line' cause') :=
    h.symm.trans h'
  cases heq
  exact ⟨rfl, rfl⟩

end Action

/-! ### Parts of statements -/

/-- The items that a loop runs over. -/
def itemsOf (source : Expr) : Action (List Value) := do Host.ofOutcome (iterate (← source.eval))

/-- Whether an act has no statements inside. -/
def Act.IsPlain : Act → Prop
  | .choose _ => False
  | .forEach _ _ _ => False
  | .whileTrue _ _ => False
  | _ => True

/-- A round of a loop over items. -/
def itemRound (name : String) (body : List Stmt) (v : Value) : Action Flow := do
  tick
  bindName name v
  runAll body

/-- A round of a loop with a condition. It is the last if the condition does not hold and if the body
breaks the loop. -/
def lapOf (condition : Expr) (body : List Stmt) : Action Bool := do
  if (← condition.eval).truthy then
    match ← runAll body with
    | .breakLoop => return false
    | _ => return true
  else return false

theorem run_forEach (name : String) (source : Expr) (body : List Stmt) :
    ((Act.forEach name source body).run : Action Flow) = (do
      let items ← itemsOf source
      Host.forEach (itemRound name body) items
      return .next) := by
  rw [Act.run, itemsOf, Action.bind_bind]
  rfl

theorem run_whileTrue (condition : Expr) (body : List Stmt) :
    ((Act.whileTrue condition body).run : Action Flow) = (do
      rounds (lapOf condition body)
      return .next) := by
  rw [Act.run]
  rfl

/-- The rounds over items fail if the round for the first item does, or if it succeeds without breaking
the loop and the rounds over the others fail. -/
theorem faults_forEach_cons {limits : Limits} {m : Machine} {line : Nat} {cause : Fault} {name : String}
    {body : List Stmt} {v : Value} {rest : List Value} :
    Faults limits m (Host.forEach (itemRound name body) (v :: rest)) line cause ↔
      m.steps < limits.maxSteps ∧
        (Faults limits (m.stepped.bind name v) (runAll body) line cause ∨
          ∃ flow m₁, Succeeds limits (m.stepped.bind name v) (runAll body) flow m₁ ∧
            flow ≠ .breakLoop ∧
              Faults limits m₁ (Host.forEach (itemRound name body) rest) line cause) := by
  have hround (limits : Limits) (m : Machine) :
      (do bindName name v; runAll body : Action Flow) limits m =
        (runAll body : Action Flow) limits (m.bind name v) := rfl
  rw [Host.forEach, itemRound, Action.bind_bind, faults_tick_bind, faults_bind]
  unfold Faults Succeeds
  rw [hround]
  refine and_congr_right fun _ => or_congr_right ⟨?_, ?_⟩
  · rintro ⟨flow, m₁, hround, hfaults⟩
    cases flow with
    | breakLoop => cases hfaults
    | next => exact ⟨.next, m₁, hround, nofun, hfaults⟩
    | continueLoop => exact ⟨.continueLoop, m₁, hround, nofun, hfaults⟩
  · rintro ⟨flow, m₁, hround, hflow, hfaults⟩
    refine ⟨flow, m₁, hround, ?_⟩
    cases flow with
    | breakLoop => exact absurd rfl hflow
    | next => exact hfaults
    | continueLoop => exact hfaults

/-- Laps fail if the condition does, if it holds and the body fails, or if the body succeeds without
breaking the loop and the other laps fail. -/
theorem faults_roundsUpTo_succ {limits : Limits} {m : Machine} {line : Nat} {cause : Fault}
    {condition : Expr} {body : List Stmt} {most : Nat} :
    Faults limits m (roundsUpTo (lapOf condition body) (most + 1)) line cause ↔
      m.steps < limits.maxSteps ∧
        (Faults limits m.stepped condition.eval line cause ∨
          ∃ v m₁, Succeeds limits m.stepped condition.eval v m₁ ∧ v.truthy = true ∧
            (Faults limits m₁ (runAll body) line cause ∨
              ∃ flow m₂, Succeeds limits m₁ (runAll body) flow m₂ ∧ flow ≠ .breakLoop ∧
                Faults limits m₂ (roundsUpTo (lapOf condition body) most) line cause)) := by
  rw [roundsUpTo_succ, Action.bind_bind, faults_tick_bind]
  nth_rewrite 1 [lapOf]
  rw [Action.bind_bind, faults_bind]
  refine and_congr_right fun _ => or_congr_right (exists_congr fun v => exists_congr fun m₁ =>
    and_congr_right fun _ => ?_)
  by_cases hv : v.truthy = true
  · rw [if_pos hv, Action.bind_bind, faults_bind]
    refine Iff.trans (or_congr_right (exists_congr fun flow => exists_congr fun m₂ =>
      and_congr_right fun _ => ?_)) (and_iff_right hv).symm
    cases flow with
    | breakLoop => exact ⟨nofun, fun h => absurd rfl h.1⟩
    | next => exact ⟨fun h => ⟨nofun, h⟩, fun h => h.2⟩
    | continueLoop => exact ⟨fun h => ⟨nofun, h⟩, fun h => h.2⟩
  · rw [if_neg hv]
    exact ⟨nofun, fun h => absurd h.1 hv⟩

/-! ### Which statement fails -/

/-- The failure of a statement's own evaluation. -/
structure Failure where
  /-- The innermost statement to which what fails belongs. -/
  owner : Stmt
  /-- The line that is reported. -/
  line : Nat
  cause : Fault
  /-- Whether the condition of a loop failed after a lap. -/
  again : Bool

/-- A part of a program that is about to be run. -/
inductive Task where
  | stmt (s : Stmt)
  /-- The arms that are left of a choice, whose whole statement is `owner`. -/
  | arms (owner : Stmt) (arms : Arms)
  /-- The rounds of a loop over the items that are left. -/
  | items (name : String) (body : List Stmt) (values : List Value)
  /-- The laps that are left of the loop on a line, some of which may have been run. -/
  | laps (line : Nat) (condition : Expr) (body : List Stmt) (again : Bool)
  | body (program : List Stmt)

/-- The machine when the act of the statement on a line is run. -/
def Machine.begun (m : Machine) (line : Nat) : Machine := { m.stepped with line }

/-- Which failure a part of a program comes to. A failure inside a body is that of one of its statements.
The items of a loop and the conditions of loops and choices belong to the statement as a whole. -/
inductive FailsIn (limits : Limits) : Task → Machine → Failure → Prop where
  | plain {m : Machine} {line shown : Nat} {act : Act} {cause : Fault} :
      m.steps < limits.maxSteps → act.IsPlain → Faults limits (m.begun line) act.run shown cause →
      FailsIn limits (.stmt (.mk line act)) m ⟨.mk line act, shown, cause, false⟩
  | choose {m : Machine} {line : Nat} {arms : Arms} {f : Failure} :
      m.steps < limits.maxSteps →
      FailsIn limits (.arms (.mk line (.choose arms)) arms) (m.begun line) f →
      FailsIn limits (.stmt (.mk line (.choose arms))) m f
  | source {m : Machine} {line shown : Nat} {name : String} {source : Expr} {body : List Stmt}
      {cause : Fault} :
      m.steps < limits.maxSteps → Faults limits (m.begun line) (itemsOf source) shown cause →
      FailsIn limits (.stmt (.mk line (.forEach name source body))) m
        ⟨.mk line (.forEach name source body), shown, cause, false⟩
  | items {m m₁ : Machine} {line : Nat} {name : String} {source : Expr} {body : List Stmt}
      {values : List Value} {f : Failure} :
      m.steps < limits.maxSteps → Succeeds limits (m.begun line) (itemsOf source) values m₁ →
      FailsIn limits (.items name body values) m₁ f →
      FailsIn limits (.stmt (.mk line (.forEach name source body))) m f
  | loop {m : Machine} {line : Nat} {condition : Expr} {body : List Stmt} {f : Failure} :
      m.steps < limits.maxSteps →
      FailsIn limits (.laps line condition body false) (m.begun line) f →
      FailsIn limits (.stmt (.mk line (.whileTrue condition body))) m f
  | condition {m : Machine} {owner : Stmt} {condition : Expr} {body : List Stmt} {rest : Arms}
      {shown : Nat} {cause : Fault} :
      Faults limits m condition.eval shown cause →
      FailsIn limits (.arms owner (.when condition body rest)) m ⟨owner, shown, cause, false⟩
  | chosen {m m₁ : Machine} {owner : Stmt} {condition : Expr} {body : List Stmt} {rest : Arms}
      {v : Value} {f : Failure} :
      Succeeds limits m condition.eval v m₁ → v.truthy = true → FailsIn limits (.body body) m₁ f →
      FailsIn limits (.arms owner (.when condition body rest)) m f
  | skipped {m m₁ : Machine} {owner : Stmt} {condition : Expr} {body : List Stmt} {rest : Arms}
      {v : Value} {f : Failure} :
      Succeeds limits m condition.eval v m₁ → v.truthy = false →
      FailsIn limits (.arms owner rest) m₁ f →
      FailsIn limits (.arms owner (.when condition body rest)) m f
  | otherwise {m : Machine} {owner : Stmt} {body : List Stmt} {f : Failure} :
      FailsIn limits (.body body) m f → FailsIn limits (.arms owner (.otherwise body)) m f
  | round {m : Machine} {name : String} {body : List Stmt} {v : Value} {rest : List Value} {f : Failure} :
      m.steps < limits.maxSteps → FailsIn limits (.body body) (m.stepped.bind name v) f →
      FailsIn limits (.items name body (v :: rest)) m f
  | laterRound {m m₁ : Machine} {name : String} {body : List Stmt} {v : Value} {rest : List Value}
      {flow : Flow} {f : Failure} :
      m.steps < limits.maxSteps → Succeeds limits (m.stepped.bind name v) (runAll body) flow m₁ →
      flow ≠ .breakLoop → FailsIn limits (.items name body rest) m₁ f →
      FailsIn limits (.items name body (v :: rest)) m f
  | lapCondition {m : Machine} {line shown : Nat} {condition : Expr} {body : List Stmt} {again : Bool}
      {cause : Fault} :
      m.steps < limits.maxSteps → Faults limits m.stepped condition.eval shown cause →
      FailsIn limits (.laps line condition body again) m
        ⟨.mk line (.whileTrue condition body), shown, cause, again⟩
  | lap {m m₁ : Machine} {line : Nat} {condition : Expr} {body : List Stmt} {again : Bool} {v : Value}
      {f : Failure} :
      m.steps < limits.maxSteps → Succeeds limits m.stepped condition.eval v m₁ → v.truthy = true →
      FailsIn limits (.body body) m₁ f → FailsIn limits (.laps line condition body again) m f
  | laterLap {m m₁ m₂ : Machine} {line : Nat} {condition : Expr} {body : List Stmt} {again : Bool}
      {v : Value} {flow : Flow} {f : Failure} :
      m.steps < limits.maxSteps → Succeeds limits m.stepped condition.eval v m₁ → v.truthy = true →
      Succeeds limits m₁ (runAll body) flow m₂ → flow ≠ .breakLoop →
      FailsIn limits (.laps line condition body true) m₂ f →
      FailsIn limits (.laps line condition body again) m f
  | here {m : Machine} {s : Stmt} {rest : List Stmt} {f : Failure} :
      FailsIn limits (.stmt s) m f → FailsIn limits (.body (s :: rest)) m f
  | behind {m m₁ : Machine} {s : Stmt} {rest : List Stmt} {f : Failure} :
      Succeeds limits m s.run .next m₁ → FailsIn limits (.body rest) m₁ f →
      FailsIn limits (.body (s :: rest)) m f

/-- Whether running a part of a program fails with a fault. Laps are given more rounds than they have
steps for. -/
def Task.Faults (limits : Limits) (m : Machine) (line : Nat) (cause : Fault) : Task → Prop
  | .stmt s => Action.Faults limits m s.run line cause
  | .arms _ left => Action.Faults limits m left.run line cause
  | .items name program values =>
      Action.Faults limits m (Host.forEach (itemRound name program) values) line cause
  | .laps _ condition program _ => ∀ most, limits.maxSteps < m.steps + most →
      Action.Faults limits m (roundsUpTo (lapOf condition program) most) line cause
  | .body program => Action.Faults limits m (runAll program) line cause

section Parts

variable {limits : Limits} {m : Machine} {line : Nat} {cause : Fault}

theorem faults_stmt {begins : Nat} {act : Act} :
    Faults limits m (Stmt.mk begins act).run line cause ↔
      m.steps < limits.maxSteps ∧ Faults limits (m.begun begins) act.run line cause := by
  have hrun : ((Stmt.mk begins act).run : Action Flow) limits m =
      (do tick; act.run : Action Flow) limits { m with line := begins } := by
    rw [Stmt.run]
    rfl
  rw [Faults, hrun, ← Faults, faults_tick_bind]
  rfl

/-- A loop over items fails if its items do, or one of its rounds. -/
theorem faults_forEach {name : String} {source : Expr} {body : List Stmt} :
    Faults limits m (Act.forEach name source body).run line cause ↔
      Faults limits m (itemsOf source) line cause ∨
        ∃ values m₁, Succeeds limits m (itemsOf source) values m₁ ∧
          Faults limits m₁ (Host.forEach (itemRound name body) values) line cause := by
  rw [run_forEach, faults_bind]
  refine or_congr_right (exists_congr fun values => exists_congr fun m₁ => and_congr_right fun _ => ?_)
  rw [faults_bind]
  exact or_iff_left fun ⟨_, _, _, h⟩ => not_faults_pure h

theorem faults_whileTrue {condition : Expr} {body : List Stmt} :
    Faults limits m (Act.whileTrue condition body).run line cause ↔
      Faults limits m (roundsUpTo (lapOf condition body) (limits.maxSteps + 1)) line cause := by
  rw [run_whileTrue, faults_bind]
  exact or_iff_left fun ⟨_, _, _, h⟩ => not_faults_pure h

theorem faults_when {condition : Expr} {body : List Stmt} {rest : Arms} :
    Faults limits m (Arms.when condition body rest).run line cause ↔
      Faults limits m condition.eval line cause ∨ ∃ v m₁, Succeeds limits m condition.eval v m₁ ∧
        if v.truthy then Faults limits m₁ (runAll body) line cause
        else Faults limits m₁ rest.run line cause := by
  rw [Arms.run, faults_bind]
  refine or_congr_right (exists_congr fun v => exists_congr fun m₁ => and_congr_right fun _ => ?_)
  split <;> rfl

theorem faults_runAll_cons {s : Stmt} {rest : List Stmt} :
    Faults limits m (runAll (s :: rest)) line cause ↔
      Faults limits m s.run line cause ∨
        ∃ m₁, Succeeds limits m s.run .next m₁ ∧ Faults limits m₁ (runAll rest) line cause := by
  rw [runAll, faults_bind]
  refine or_congr_right ⟨?_, fun ⟨m₁, hs, hfaults⟩ => ⟨.next, m₁, hs, hfaults⟩⟩
  rintro ⟨flow, m₁, hs, hfaults⟩
  cases flow with
  | next => exact ⟨m₁, hs, hfaults⟩
  | breakLoop => cases hfaults
  | continueLoop => cases hfaults

end Parts

/-- After a lap the counter is further on, and still within the limit. -/
theorem steps_after_lap {limits : Limits} {m m₁ m₂ : Machine} {condition : Expr} {body : List Stmt}
    {v : Value} {flow : Flow} (hsteps : m.steps < limits.maxSteps)
    (hcondition : Succeeds limits m.stepped condition.eval v m₁)
    (hbody : Succeeds limits m₁ (runAll body) flow m₂) : m.steps < m₂.steps := by
  have hfirst := simulation_countsSteps.eval condition limits m.stepped hsteps
  rw [hcondition] at hfirst
  have hrest := simulation_countsSteps.runAll body limits m₁ hfirst.within
  rw [hbody] at hrest
  exact Nat.lt_of_lt_of_le (Nat.lt_succ_self _) (Nat.le_trans hfirst.mono hrest.mono)

/-- What fails in a part of a program is a failure of the run. -/
theorem FailsIn.faults {limits : Limits} {t : Task} {m : Machine} {f : Failure} (h : FailsIn limits t m f) :
    t.Faults limits m f.line f.cause := by
  induction h with
  | plain hsteps _ hfaults => exact faults_stmt.2 ⟨hsteps, hfaults⟩
  | choose hsteps _ ih =>
      refine faults_stmt.2 ⟨hsteps, ?_⟩
      rw [Act.run]
      exact ih
  | source hsteps hfaults => exact faults_stmt.2 ⟨hsteps, faults_forEach.2 (.inl hfaults)⟩
  | items hsteps hsource _ ih =>
      exact faults_stmt.2 ⟨hsteps, faults_forEach.2 (.inr ⟨_, _, hsource, ih⟩)⟩
  | loop hsteps _ ih =>
      refine faults_stmt.2 ⟨hsteps, faults_whileTrue.2 (ih _ ?_)⟩
      exact Nat.lt_of_lt_of_le (Nat.lt_succ_self _) (Nat.le_add_left _ _)
  | condition hfaults => exact faults_when.2 (.inl hfaults)
  | chosen hcondition hv _ ih =>
      refine faults_when.2 (.inr ⟨_, _, hcondition, ?_⟩)
      rw [if_pos hv]
      exact ih
  | skipped hcondition hv _ ih =>
      refine faults_when.2 (.inr ⟨_, _, hcondition, ?_⟩)
      rw [hv]
      exact ih
  | otherwise _ ih =>
      rw [Task.Faults, Arms.run]
      exact ih
  | round hsteps _ ih => exact faults_forEach_cons.2 ⟨hsteps, .inl ih⟩
  | laterRound hsteps hround hflow _ ih =>
      exact faults_forEach_cons.2 ⟨hsteps, .inr ⟨_, _, hround, hflow, ih⟩⟩
  | lapCondition hsteps hfaults =>
      intro most hmost
      obtain ⟨most, rfl⟩ := Nat.exists_eq_succ_of_ne_zero (n := most) (by omega)
      exact faults_roundsUpTo_succ.2 ⟨hsteps, .inl hfaults⟩
  | lap hsteps hcondition hv _ ih =>
      intro most hmost
      obtain ⟨most, rfl⟩ := Nat.exists_eq_succ_of_ne_zero (n := most) (by omega)
      exact faults_roundsUpTo_succ.2 ⟨hsteps, .inr ⟨_, _, hcondition, hv, .inl ih⟩⟩
  | laterLap hsteps hcondition hv hbody hflow _ ih =>
      intro most hmost
      obtain ⟨most, rfl⟩ := Nat.exists_eq_succ_of_ne_zero (n := most) (by omega)
      have hlap := steps_after_lap hsteps hcondition hbody
      have hlater := ih most (by omega)
      exact faults_roundsUpTo_succ.2
        ⟨hsteps, .inr ⟨_, _, hcondition, hv, .inr ⟨_, _, hbody, hflow, hlater⟩⟩⟩
  | here _ ih => exact faults_runAll_cons.2 (.inl ih)
  | behind hs _ ih => exact faults_runAll_cons.2 (.inr ⟨_, hs, ih⟩)

/-- Whether a part of a program comes to a failure that is reported so. -/
def FailsSo (limits : Limits) (t : Task) (m : Machine) (line : Nat) (cause : Fault) : Prop :=
  ∃ f, FailsIn limits t m f ∧ f.line = line ∧ f.cause = cause

theorem FailsSo.lift {limits : Limits} {t t' : Task} {m m' : Machine} {line : Nat} {cause : Fault}
    (h : FailsSo limits t m line cause) (hlift : ∀ f, FailsIn limits t m f → FailsIn limits t' m' f) :
    FailsSo limits t' m' line cause := by
  obtain ⟨f, hf, hline, hcause⟩ := h
  exact ⟨f, hlift f hf, hline, hcause⟩

section Loops

variable {limits : Limits} {line : Nat} {cause : Fault} {body : List Stmt}
  (hbody : ∀ m, Faults limits m (runAll body) line cause → FailsSo limits (.body body) m line cause)

include hbody

theorem failsSo_items {name : String} {values : List Value} {m : Machine}
    (h : Faults limits m (Host.forEach (itemRound name body) values) line cause) :
    FailsSo limits (.items name body values) m line cause := by
  induction values generalizing m with
  | nil => exact (not_faults_pure h).elim
  | cons v rest ih =>
      obtain ⟨hsteps, hround | ⟨flow, m₁, hround, hflow, hrest⟩⟩ := faults_forEach_cons.1 h
      · exact (hbody _ hround).lift fun _ => .round hsteps
      · exact (ih hrest).lift fun _ => .laterRound hsteps hround hflow

theorem failsSo_laps {begins : Nat} {condition : Expr} {again : Bool} {most : Nat} {m : Machine}
    (h : Faults limits m (roundsUpTo (lapOf condition body) most) line cause) :
    FailsSo limits (.laps begins condition body again) m line cause := by
  induction most generalizing m again with
  | zero => cases h
  | succ most ih =>
      obtain ⟨hsteps, hcondition | ⟨v, m₁, hcondition, hv, hrun⟩⟩ := faults_roundsUpTo_succ.1 h
      · exact ⟨_, .lapCondition hsteps hcondition, rfl, rfl⟩
      obtain hlap | ⟨flow, m₂, hlap, hflow, hrest⟩ := hrun
      · exact (hbody _ hlap).lift fun _ => .lap hsteps hcondition hv
      · exact (ih hrest).lift fun _ => .laterLap hsteps hcondition hv hlap hflow

end Loops

section Completeness

variable {limits : Limits} {line : Nat} {cause : Fault}

theorem failsSo_plain {begins : Nat} {act : Act} {m : Machine} (hplain : act.IsPlain)
    (hsteps : m.steps < limits.maxSteps) (h : Faults limits (m.begun begins) act.run line cause) :
    FailsSo limits (.stmt (.mk begins act)) m line cause :=
  ⟨_, .plain hsteps hplain h, rfl, rfl⟩

mutual

/-- A statement that fails comes to a failure. -/
theorem Stmt.failsSo : (s : Stmt) → (m : Machine) → Faults limits m s.run line cause →
    FailsSo limits (.stmt s) m line cause
  | .mk begins act, m, h => act.failsSo begins m (faults_stmt.1 h).1 (faults_stmt.1 h).2

theorem Act.failsSo : (act : Act) → (begins : Nat) → (m : Machine) → m.steps < limits.maxSteps →
    Faults limits (m.begun begins) act.run line cause → FailsSo limits (.stmt (.mk begins act)) m line cause
  | .choose arms, begins, m, hsteps, h => by
      rw [Act.run] at h
      exact (arms.failsSo (.mk begins (.choose arms)) _ h).lift fun _ => .choose hsteps
  | .forEach name source body, begins, m, hsteps, h => by
      obtain hsource | ⟨values, m₁, hsource, hitems⟩ := faults_forEach.1 h
      · exact ⟨_, .source hsteps hsource, rfl, rfl⟩
      · exact (failsSo_items (failsSo_runAll body) hitems).lift fun _ => .items hsteps hsource
  | .whileTrue condition body, begins, m, hsteps, h =>
      (failsSo_laps (failsSo_runAll body) (faults_whileTrue.1 h)).lift fun _ => .loop hsteps
  | .eval _, _, _, hsteps, h => failsSo_plain trivial hsteps h
  | .assign _ _, _, _, hsteps, h => failsSo_plain trivial hsteps h
  | .update _ _ _, _, _, hsteps, h => failsSo_plain trivial hsteps h
  | .breakLoop, _, _, hsteps, h => failsSo_plain trivial hsteps h
  | .continueLoop, _, _, hsteps, h => failsSo_plain trivial hsteps h

theorem Arms.failsSo : (arms : Arms) → (owner : Stmt) → (m : Machine) →
    Faults limits m arms.run line cause → FailsSo limits (.arms owner arms) m line cause
  | .when condition body rest, owner, m, h => by
      obtain hcondition | ⟨v, m₁, hcondition, hrun⟩ := faults_when.1 h
      · exact ⟨_, .condition hcondition, rfl, rfl⟩
      cases hv : v.truthy with
      | true =>
          rw [hv] at hrun
          exact (failsSo_runAll body m₁ hrun).lift fun _ => .chosen hcondition hv
      | false =>
          rw [hv] at hrun
          exact (rest.failsSo owner m₁ hrun).lift fun _ => .skipped hcondition hv
  | .otherwise body, owner, m, h => by
      rw [Arms.run] at h
      exact (failsSo_runAll body m h).lift fun _ => .otherwise
  | .done, _, _, h => by
      rw [Arms.run] at h
      exact (not_faults_pure h).elim

theorem failsSo_runAll : (program : List Stmt) → (m : Machine) →
    Faults limits m (runAll program) line cause → FailsSo limits (.body program) m line cause
  | [], m, h => by
      rw [runAll] at h
      exact (not_faults_pure h).elim
  | s :: rest, m, h => by
      obtain hs | ⟨m₁, hs, hrest⟩ := faults_runAll_cons.1 h
      · exact (s.failsSo m hs).lift fun _ => .here
      · exact (failsSo_runAll rest m₁ hrest).lift fun _ => .behind hs

end

end Completeness

/-- What a body that succeeds contains does not fail. -/
theorem FailsIn.not_succeeds {limits : Limits} {body : List Stmt} {m m' : Machine} {f : Failure}
    {flow : Flow} (h : FailsIn limits (.body body) m f) : ¬Succeeds limits m (runAll body) flow m' :=
  fun hsucceeds => hsucceeds.not_faults h.faults

/-- A part of a program comes to one failure. -/
theorem FailsIn.unique {limits : Limits} {t : Task} {m : Machine} {f g : Failure}
    (hf : FailsIn limits t m f) (hg : FailsIn limits t m g) : f = g := by
  induction hf with
  | plain _ hplain hfaults =>
      cases hg with
      | plain _ _ hfaults' =>
          obtain ⟨rfl, rfl⟩ := hfaults.unique hfaults'
          rfl
      | _ => exact hplain.elim
  | choose _ _ ih =>
      cases hg with
      | plain _ hplain _ => exact hplain.elim
      | choose _ h => exact ih h
  | source _ hfaults =>
      cases hg with
      | plain _ hplain _ => exact hplain.elim
      | source _ hfaults' =>
          obtain ⟨rfl, rfl⟩ := hfaults.unique hfaults'
          rfl
      | items _ hsource _ => exact (hsource.not_faults hfaults).elim
  | items _ hsource _ ih =>
      cases hg with
      | plain _ hplain _ => exact hplain.elim
      | source _ hfaults => exact (hsource.not_faults hfaults).elim
      | items _ hsource' h =>
          obtain ⟨rfl, rfl⟩ := hsource.unique hsource'
          exact ih h
  | loop _ _ ih =>
      cases hg with
      | plain _ hplain _ => exact hplain.elim
      | loop _ h => exact ih h
  | condition hfaults =>
      cases hg with
      | condition hfaults' =>
          obtain ⟨rfl, rfl⟩ := hfaults.unique hfaults'
          rfl
      | chosen hcondition _ _ => exact (hcondition.not_faults hfaults).elim
      | skipped hcondition _ _ => exact (hcondition.not_faults hfaults).elim
  | chosen hcondition hv _ ih =>
      cases hg with
      | condition hfaults => exact (hcondition.not_faults hfaults).elim
      | chosen hcondition' _ h =>
          obtain ⟨rfl, rfl⟩ := hcondition.unique hcondition'
          exact ih h
      | skipped hcondition' hv' _ =>
          obtain ⟨rfl, rfl⟩ := hcondition.unique hcondition'
          exact absurd (hv.symm.trans hv') nofun
  | skipped hcondition hv _ ih =>
      cases hg with
      | condition hfaults => exact (hcondition.not_faults hfaults).elim
      | chosen hcondition' hv' _ =>
          obtain ⟨rfl, rfl⟩ := hcondition.unique hcondition'
          exact absurd (hv'.symm.trans hv) nofun
      | skipped hcondition' _ h =>
          obtain ⟨rfl, rfl⟩ := hcondition.unique hcondition'
          exact ih h
  | otherwise _ ih =>
      cases hg with
      | otherwise h => exact ih h
  | round _ hround ih =>
      cases hg with
      | round _ h => exact ih h
      | laterRound _ hsucceeds _ _ => exact (hround.not_succeeds hsucceeds).elim
  | laterRound _ hround _ _ ih =>
      cases hg with
      | round _ h => exact (h.not_succeeds hround).elim
      | laterRound _ hround' _ h =>
          obtain ⟨-, rfl⟩ := hround.unique hround'
          exact ih h
  | lapCondition _ hfaults =>
      cases hg with
      | lapCondition _ hfaults' =>
          obtain ⟨rfl, rfl⟩ := hfaults.unique hfaults'
          rfl
      | lap _ hcondition _ _ => exact (hcondition.not_faults hfaults).elim
      | laterLap _ hcondition _ _ _ _ => exact (hcondition.not_faults hfaults).elim
  | lap _ hcondition _ hbody ih =>
      cases hg with
      | lapCondition _ hfaults => exact (hcondition.not_faults hfaults).elim
      | lap _ hcondition' _ h =>
          obtain ⟨-, rfl⟩ := hcondition.unique hcondition'
          exact ih h
      | laterLap _ hcondition' _ hsucceeds _ _ =>
          obtain ⟨-, rfl⟩ := hcondition.unique hcondition'
          exact (hbody.not_succeeds hsucceeds).elim
  | laterLap _ hcondition _ hsucceeds _ _ ih =>
      cases hg with
      | lapCondition _ hfaults => exact (hcondition.not_faults hfaults).elim
      | lap _ hcondition' _ h =>
          obtain ⟨-, rfl⟩ := hcondition.unique hcondition'
          exact (h.not_succeeds hsucceeds).elim
      | laterLap _ hcondition' _ hsucceeds' _ h =>
          obtain ⟨-, rfl⟩ := hcondition.unique hcondition'
          obtain ⟨-, rfl⟩ := hsucceeds.unique hsucceeds'
          exact ih h
  | here hs ih =>
      cases hg with
      | here h => exact ih h
      | behind hsucceeds _ => exact (hsucceeds.not_faults hs.faults).elim
  | behind hsucceeds _ ih =>
      cases hg with
      | here h => exact (hsucceeds.not_faults h.faults).elim
      | behind hsucceeds' h =>
          obtain ⟨-, rfl⟩ := hsucceeds.unique hsucceeds'
          exact ih h

/-! ### Whole programs -/

/-- A run fails with a fault exactly if its program comes to a failure that is reported so. -/
theorem faults_runProgram_iff {program : List Stmt} {limits : Limits} {m : Machine} {line : Nat}
    {cause : Fault} :
    (runProgram program limits m).1 = .error (.fault line cause) ↔
      FailsSo limits (.body program) m line cause := by
  have hrun : Faults limits m (runProgram program) line cause ↔
      Faults limits m (runAll program) line cause :=
    faults_bind.trans (or_iff_left fun ⟨_, _, _, h⟩ => not_faults_pure h)
  refine hrun.trans ⟨failsSo_runAll program m, ?_⟩
  rintro ⟨f, hf, rfl, rfl⟩
  exact hf.faults

end PromptWeave.Script
