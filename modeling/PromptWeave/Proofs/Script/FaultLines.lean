import Mathlib
import PromptWeave.Proofs.Script.Failures

/-!
# The lines of faults

A fault is reported on the line of the statement that was begun last, and it belongs to the innermost
statement whose own evaluation fails. The two are the same but for one case: the condition of a loop that
is evaluated again is evaluated after the statements of the body. Main statement:
`faults_on_own_line_unless_lap`.
-/
namespace PromptWeave.Script

open PromptWeave.Script.Action

/-! ### The line of the machine -/

/-- Whether an action leaves the line as it is, and fails on that line only. -/
structure KeepsLine (α : Type) (x : Action α) : Prop where
  line (limits : Limits) (m : Machine) : (x limits m).2.line = m.line
  faults {limits : Limits} {m : Machine} {line : Nat} {cause : Fault} :
    Faults limits m x line cause → line = m.line

theorem Machine.line_restore (m : Machine) (name : String) (saved : Option Value) :
    (m.restore name saved).line = m.line := by
  cases saved <;> rfl

theorem Machine.line_write (m : Machine) (maxOutputBytes : Nat) (line : String) :
    (m.write maxOutputBytes line).line = m.line := by
  unfold write
  split
  · rfl
  · dsimp only
    split <;> rfl

namespace KeepsLine

variable {α β : Type}

theorem pure (a : α) : KeepsLine α (pure a) := ⟨fun _ _ => rfl, nofun⟩

theorem bind {x : Action α} {f : α → Action β} (hx : KeepsLine α x) (hf : ∀ a, KeepsLine β (f a)) :
    KeepsLine β (x >>= f) where
  line limits m := by
    have hline := hx.line limits m
    rw [bind_apply]
    rcases hrun : x limits m with ⟨e | a, mid⟩
    all_goals rw [hrun] at hline
    · exact hline
    · exact ((hf a).line limits mid).trans hline
  faults {limits m line cause} h := by
    rcases faults_bind.1 h with h | ⟨a, mid, hsucceeds, h⟩
    · exact hx.faults h
    · have hline := hx.line limits m
      rw [hsucceeds] at hline
      exact ((hf a).faults h).trans hline

theorem tick : KeepsLine Unit Action.tick where
  line limits m := by
    unfold Action.tick
    dsimp only
    split <;> rfl
  faults {limits m line cause} h := by
    unfold Faults Action.tick at h
    dsimp only at h
    split at h <;> cases h

theorem shadow {x : Action α} (name : String) (hx : KeepsLine α x) :
    KeepsLine α (Action.shadow name x) where
  line limits m := (Machine.line_restore _ _ _).trans (hx.line limits (m.unbind name))
  faults {_ m _ _} h := hx.faults (m := m.unbind name) h

theorem draw (x : Random.Generator → Outcome (α × Random.Generator)) :
    KeepsLine α (Action.draw x) where
  line limits m := by
    unfold Action.draw
    split <;> rfl
  faults {limits m line cause} h := by
    unfold Faults Action.draw at h
    split at h <;> cases h
    rfl

end KeepsLine

theorem KeepsLine.line_of_succeeds {α : Type} {x : Action α} (hx : KeepsLine α x) {limits : Limits}
    {m m' : Machine} {a : α} (h : Succeeds limits m x a m') : m'.line = m.line := by
  have hline := hx.line limits m
  rwa [h] at hline

/-- What expressions do leaves the line as it is, whatever names stand in them. -/
theorem correspondence_keepsLine :
    Correspondence (M := Action) (N := Action) (fun _ => True) fun α x _ => KeepsLine α x where
  pure := KeepsLine.pure
  bind := KeepsLine.bind
  fail _ := ⟨fun _ _ => rfl, fun h => by cases h; rfl⟩
  tick := .tick
  lookUp _ _ := ⟨fun _ _ => rfl, nofun⟩
  bindName _ _ _ := ⟨fun _ _ => rfl, nofun⟩
  shadow name _ := .shadow name
  writeLine line := ⟨fun limits m => m.line_write limits.maxOutputBytes line, nofun⟩
  draw := .draw
  report _ := .pure ()

theorem keepsLine_eval (e : Expr) : KeepsLine Value e.eval :=
  correspondence_keepsLine.eval e fun _ _ => trivial

theorem keepsLine_store (e : Expr) (v : Value) : KeepsLine Unit (e.store v) :=
  correspondence_keepsLine.store e (fun _ _ => trivial) v

theorem keepsLine_ofOutcome {α : Type} (x : Outcome α) : KeepsLine α (Host.ofOutcome x) :=
  correspondence_keepsLine.ofOutcome x

theorem keepsLine_itemsOf (source : Expr) : KeepsLine (List Value) (itemsOf source) :=
  (keepsLine_eval source).bind fun _ => keepsLine_ofOutcome _

theorem Act.keepsLine_of_isPlain : (act : Act) → act.IsPlain → KeepsLine Flow act.run
  | .eval e, _ => (keepsLine_eval e).bind fun _ => .pure _
  | .assign target value, _ =>
      (keepsLine_eval value).bind fun v => (keepsLine_store target v).bind fun _ => .pure _
  | .update target _ value, _ =>
      (keepsLine_eval target).bind fun _ => (keepsLine_eval value).bind fun _ =>
        (keepsLine_ofOutcome _).bind fun v => (keepsLine_store target v).bind fun _ => .pure _
  | .breakLoop, _ => .pure _
  | .continueLoop, _ => .pure _

/-! ### The line after a body -/

mutual

/-- The lines of a statement and of the statements inside it. -/
def Stmt.lines : Stmt → List Nat
  | .mk line act => line :: act.lines

def Act.lines : Act → List Nat
  | .choose arms => arms.lines
  | .forEach _ _ body => linesOfAll body
  | .whileTrue _ body => linesOfAll body
  | _ => []

def Arms.lines : Arms → List Nat
  | .when _ body rest => linesOfAll body ++ rest.lines
  | .otherwise body => linesOfAll body
  | .done => []

/-- The lines of statements and of the statements inside them. -/
def linesOfAll : List Stmt → List Nat
  | [] => []
  | s :: rest => s.lines ++ linesOfAll rest

end

/-- Whether an action leaves the machine on the line where it was or on one of some lines. -/
def StaysOn {α : Type} (lines : List Nat) (x : Action α) : Prop :=
  ∀ limits m, (x limits m).2.line = m.line ∨ (x limits m).2.line ∈ lines

section StaysOn

variable {α β : Type} {lines more : List Nat}

theorem StaysOn.mono {x : Action α} (h : StaysOn lines x) (hsub : lines ⊆ more) : StaysOn more x :=
  fun limits m => (h limits m).imp_right fun hmem => hsub hmem

theorem KeepsLine.staysOn {x : Action α} (h : KeepsLine α x) : StaysOn lines x :=
  fun limits m => .inl (h.line limits m)

theorem StaysOn.bind {x : Action α} {f : α → Action β} (hx : StaysOn lines x)
    (hf : ∀ a, StaysOn lines (f a)) : StaysOn lines (x >>= f) := by
  intro limits m
  have hfirst := hx limits m
  rw [bind_apply]
  rcases hrun : x limits m with ⟨e | a, mid⟩
  all_goals rw [hrun] at hfirst
  · exact hfirst
  · rcases hf a limits mid with hrest | hrest
    · exact hfirst.imp hrest.trans fun hmem => by rwa [← hrest] at hmem
    · exact .inr hrest

theorem staysOn_pure {a : α} : StaysOn lines (pure a) := (KeepsLine.pure a).staysOn

theorem staysOn_tick : StaysOn lines tick := KeepsLine.tick.staysOn

theorem staysOn_ite {p : Prop} [Decidable p] {x y : Action α} (hx : StaysOn lines x)
    (hy : StaysOn lines y) : StaysOn lines (if p then x else y) := by
  split
  · exact hx
  · exact hy

theorem staysOn_forEach {body : Value → Action Flow} (hbody : ∀ v, StaysOn lines (body v))
    (items : List Value) : StaysOn lines (Host.forEach body items) := by
  induction items with
  | nil => exact staysOn_pure
  | cons v rest ih =>
      refine (hbody v).bind fun flow => ?_
      cases flow with
      | breakLoop => exact staysOn_pure
      | next => exact ih
      | continueLoop => exact ih

theorem staysOn_rounds {round : Action Bool} (hround : StaysOn lines round) :
    StaysOn lines (rounds round) := by
  suffices h : ∀ most, StaysOn lines (roundsUpTo round most) from fun limits m => h _ limits m
  intro most
  induction most with
  | zero => exact fun _ _ => .inl rfl
  | succ most ih =>
      rw [roundsUpTo_succ]
      exact (staysOn_tick.bind fun _ => hround).bind fun _ => staysOn_ite ih staysOn_pure

end StaysOn

mutual

/-- A statement leaves the machine on its line or on one of a statement inside. -/
theorem Stmt.line_run : (s : Stmt) → (limits : Limits) → (m : Machine) →
    ((s.run : Action Flow) limits m).2.line ∈ s.lines
  | .mk line act, limits, m => by
      have hact := (staysOn_tick.bind fun _ => act.staysOn) limits { m with line }
      rw [Stmt.run, Stmt.lines, List.mem_cons]
      exact hact

theorem Act.staysOn : (act : Act) → StaysOn act.lines act.run
  | .choose arms => by
      rw [Act.run, Act.lines]
      exact arms.staysOn
  | .forEach name source body => by
      rw [run_forEach, Act.lines]
      refine (keepsLine_itemsOf source).staysOn.bind fun items => ?_
      refine (staysOn_forEach (fun v => ?_) items).bind fun _ => staysOn_pure
      have hbound : StaysOn (linesOfAll body) (bindName name v) := fun _ _ => .inl rfl
      exact staysOn_tick.bind fun _ => hbound.bind fun _ => staysOn_runAll body
  | .whileTrue condition body => by
      rw [run_whileTrue, Act.lines]
      refine (staysOn_rounds ?_).bind fun _ => staysOn_pure
      refine (keepsLine_eval condition).staysOn.bind fun v => staysOn_ite ?_ staysOn_pure
      refine (staysOn_runAll body).bind fun flow => ?_
      cases flow <;> exact staysOn_pure
  | .eval e => (Act.keepsLine_of_isPlain (.eval e) trivial).staysOn
  | .assign target e => (Act.keepsLine_of_isPlain (.assign target e) trivial).staysOn
  | .update target op e => (Act.keepsLine_of_isPlain (.update target op e) trivial).staysOn
  | .breakLoop => (Act.keepsLine_of_isPlain .breakLoop trivial).staysOn
  | .continueLoop => (Act.keepsLine_of_isPlain .continueLoop trivial).staysOn

theorem Arms.staysOn : (arms : Arms) → StaysOn arms.lines arms.run
  | .when condition body rest => by
      rw [Arms.run, Arms.lines]
      refine (keepsLine_eval condition).staysOn.bind fun v => staysOn_ite ?_ ?_
      · exact (staysOn_runAll body).mono (List.subset_append_left _ _)
      · exact rest.staysOn.mono (List.subset_append_right _ _)
  | .otherwise body => by
      rw [Arms.run, Arms.lines]
      exact staysOn_runAll body
  | .done => by
      rw [Arms.run]
      exact staysOn_pure

theorem staysOn_runAll : (program : List Stmt) → StaysOn (linesOfAll program) (runAll program)
  | [] => by
      rw [runAll]
      exact staysOn_pure
  | s :: rest => by
      rw [runAll, linesOfAll]
      have hs : StaysOn s.lines (s.run : Action Flow) := fun limits m => .inr (s.line_run limits m)
      refine (hs.mono (List.subset_append_left _ _)).bind fun flow => ?_
      cases flow with
      | next => exact (staysOn_runAll rest).mono (List.subset_append_right _ _)
      | breakLoop => exact staysOn_pure
      | continueLoop => exact staysOn_pure

end

/-- A body that has been run leaves the machine on the line of one of its statements, if it has any. -/
theorem line_after_body {limits : Limits} {m m' : Machine} {body : List Stmt} {flow : Flow}
    (h : Succeeds limits m (runAll body) flow m') :
    body = [] ∧ m'.line = m.line ∨ m'.line ∈ linesOfAll body := by
  cases body with
  | nil =>
      rw [runAll, succeeds_pure] at h
      exact .inl ⟨rfl, by rw [h.2]⟩
  | cons s rest =>
      rw [runAll, succeeds_bind] at h
      obtain ⟨flow', m₁, hs, hrest⟩ := h
      have hfirst := s.line_run limits m
      rw [hs] at hfirst
      rw [linesOfAll, List.mem_append]
      cases flow' with
      | next =>
          have hrun : (runAll rest : Action Flow) limits m₁ = (.ok flow, m') := hrest
          have hlater := staysOn_runAll rest limits m₁
          rw [hrun] at hlater
          exact .inr (hlater.imp (fun heq => by rwa [heq]) id)
      | breakLoop =>
          obtain ⟨-, rfl⟩ := succeeds_pure.1 hrest
          exact .inr (.inl hfirst)
      | continueLoop =>
          obtain ⟨-, rfl⟩ := succeeds_pure.1 hrest
          exact .inr (.inl hfirst)

/-! ### The line of a failure -/

/-- Where the machine is when a part of a program is about to be run: on the line of the statement that the
part belongs to, unless a lap of a loop has been run. -/
def Task.Placed (m : Machine) : Task → Prop
  | .arms owner _ => m.line = owner.line
  | .laps line _ _ false => m.line = line
  | .laps line _ program true => program = [] ∧ m.line = line ∨ m.line ∈ linesOfAll program
  | _ => True

/-- Laps without statements leave the machine on the line of their loop. -/
theorem Task.Placed.line_eq {m : Machine} {line : Nat} {condition : Expr} {body : List Stmt} {again : Bool}
    (h : Task.Placed m (.laps line condition body again)) (hnil : body = []) : m.line = line := by
  subst hnil
  cases again with
  | false => exact h
  | true => exact h.elim And.right nofun

/-- What the line of a failure may be: that of its statement, or after a lap of a loop that of a statement
in the body. -/
structure Failure.Placed (f : Failure) : Prop where
  first : f.again = false → f.line = f.owner.line
  later : f.again = true → ∃ line condition body, f.owner = .mk line (.whileTrue condition body) ∧
    (body = [] ∧ f.line = line ∨ f.line ∈ linesOfAll body)

theorem FailsIn.placed {limits : Limits} {t : Task} {m : Machine} {f : Failure}
    (h : FailsIn limits t m f) (hplaced : t.Placed m) : f.Placed := by
  induction h with
  | plain _ hplain hfaults => exact ⟨fun _ => (Act.keepsLine_of_isPlain _ hplain).faults hfaults, nofun⟩
  | choose _ _ ih => exact ih rfl
  | source _ hfaults => exact ⟨fun _ => (keepsLine_itemsOf _).faults hfaults, nofun⟩
  | items _ _ _ ih => exact ih trivial
  | loop _ _ ih => exact ih rfl
  | condition hfaults => exact ⟨fun _ => ((keepsLine_eval _).faults hfaults).trans hplaced, nofun⟩
  | chosen _ _ _ ih => exact ih trivial
  | skipped hcondition _ _ ih => exact ih (((keepsLine_eval _).line_of_succeeds hcondition).trans hplaced)
  | otherwise _ ih => exact ih trivial
  | round _ _ ih => exact ih trivial
  | laterRound _ _ _ _ ih => exact ih trivial
  -- The condition is evaluated on the line of the loop before the first lap only.
  | @lapCondition _ _ _ _ _ again _ _ hfaults =>
      have hline := (keepsLine_eval _).faults hfaults
      cases again with
      | false => exact ⟨fun _ => hline.trans hplaced, nofun⟩
      | true => exact ⟨nofun, fun _ => ⟨_, _, _, rfl, by rwa [hline]⟩⟩
  | lap _ _ _ _ ih => exact ih trivial
  | laterLap _ hcondition _ hbody _ _ ih =>
      refine ih ((line_after_body hbody).imp_left fun ⟨hnil, hkept⟩ => ⟨hnil, ?_⟩)
      exact (hkept.trans ((keepsLine_eval _).line_of_succeeds hcondition)).trans (hplaced.line_eq hnil)
  | here _ ih => exact ih trivial
  | behind _ _ ih => exact ih trivial

/-! ### Whole programs -/

/-- A run that fails with a fault has one failure, which belongs to one statement. The line that is
reported is that of the statement, unless what fails is the condition of a loop after a lap. Then it is
that of a statement in the body of the loop, or the loop's own if nothing is in the body. -/
theorem faults_on_own_line_unless_lap {program : List Stmt} {limits : Limits} {m : Machine} {line : Nat}
    {cause : Fault} (h : (runProgram program limits m).1 = .error (.fault line cause)) :
    ∃ f, (∀ g, FailsIn limits (.body program) m g ↔ g = f) ∧ f.cause = cause ∧
      (f.again = false → line = f.owner.line) ∧
      (f.again = true → ∃ begins condition body, f.owner = .mk begins (.whileTrue condition body) ∧
        (body = [] ∧ line = begins ∨ line ∈ linesOfAll body)) := by
  obtain ⟨f, hf, rfl, rfl⟩ := faults_runProgram_iff.1 h
  have hplaced : f.Placed := hf.placed trivial
  exact ⟨f, fun g => ⟨fun hg => hg.unique hf, fun hg => hg ▸ hf⟩, rfl, hplaced.first, hplaced.later⟩

/-- The condition of a loop that cannot be evaluated the first time is reported where it stands. -/
theorem faults_on_own_line_unless_lap_first :
    let program : List Stmt := [.mk 1 (.assign (.var "xs") (.list [])),
      .mk 2 (.whileTrue (.index (.var "xs") (.int 0)) [.mk 3 (.eval (.var "xs"))])]
    let limits : Limits := ⟨100, 100⟩
    let m : Machine := .start (.ofSeed 0)
    (runProgram program limits m).1 = .error (.fault 2 (.indexOutOfRange 0)) ∧
      ∃ f, (∀ g, FailsIn limits (.body program) m g ↔ g = f) ∧ f.cause = .indexOutOfRange 0 ∧
        (f.again = false → 2 = f.owner.line) ∧
        (f.again = true → ∃ begins condition body, f.owner = .mk begins (.whileTrue condition body) ∧
          (body = [] ∧ 2 = begins ∨ 2 ∈ linesOfAll body)) := by
  intro program limits m
  have hrun : (runProgram program limits m).1 = .error (.fault 2 (.indexOutOfRange 0)) := by rfl
  exact ⟨hrun, faults_on_own_line_unless_lap hrun⟩

/-- A loop on the second line whose condition fails after a lap. The fault is reported on the third line,
where a statement of the body has been run without a fault. -/
theorem loop_condition_faults_on_line_of_body :
    let source := "xs = [1]\nwhile xs[0] \x7b\n xs = []\n\x7d"
    let first : Stmt := .mk 1 (.assign (.var "xs") (.list [.int 1]))
    let condition : Expr := .index (.var "xs") (.int 0)
    let body : List Stmt := [.mk 3 (.assign (.var "xs") (.list []))]
    let loop : Stmt := .mk 2 (.whileTrue condition body)
    let limits : Limits := ⟨100, 100⟩
    let m : Machine := .start (.ofSeed 0)
    parse source = .ok [first, loop] ∧
      (runProgram [first, loop] limits m).1 = .error (.fault 3 (.indexOutOfRange 0)) ∧
      FailsIn limits (.body [first, loop]) m ⟨loop, 3, .indexOutOfRange 0, true⟩ ∧ loop.line ≠ 3 := by
  intro source first condition body loop limits m
  let m₁ : Machine := { m.bind "xs" (.list [.int 1]) with line := 1, steps := 3 }
  let m₂ : Machine := { m₁ with line := 2, steps := 8 }
  let m₃ : Machine := { m₂.bind "xs" (.list []) with line := 3, steps := 10 }
  have hfirst : Succeeds limits m first.run .next m₁ := by rfl
  have hcondition : Succeeds limits (m₁.begun 2).stepped condition.eval (.int 1) m₂ := by rfl
  have hbody : Succeeds limits m₂ (runAll body) .next m₃ := by rfl
  have hagain : Faults limits m₃.stepped condition.eval 3 (.indexOutOfRange 0) := by rfl
  refine ⟨by cbv, by cbv, .behind hfirst (.here (.loop (by decide) ?_)), by decide⟩
  exact .laterLap (by decide) hcondition rfl hbody (by decide) (.lapCondition (by decide) hagain)

end PromptWeave.Script
