import PromptWeave.Proofs.Script.Confinement
import PromptWeave.Proofs.Script.Flow
import PromptWeave.Proofs.Script.Recognition

/-!
# Runs of accepted scripts

The interpreter relies on two things that it does not check: that no jump is left over where a script
ends, and that only places are assigned to. The parser sees to both. So all statements of an accepted
script are run, a jump leaves no more than the loop around it, and no run fails for want of a place.
-/
namespace PromptWeave.Script

open PromptWeave.Script.Action

/-! ### Targets -/

/-- Whether an action never fails because of what it writes to. -/
def Avoids {α : Type} (x : Action α) : Prop :=
  ∀ limits m line, (x limits m).1 ≠ .error (.fault line .badTarget)

section
variable {α β : Type} {x : Action α}

theorem avoids_pure (a : α) : Avoids (pure a) := nofun

theorem avoids_bind {f : α → Action β} (hx : Avoids x) (hf : ∀ a, Avoids (f a)) :
    Avoids (x >>= f) := by
  intro limits m line
  rw [bind_apply]
  have hstop := hx limits m line
  cases hrun : x limits m with
  | mk result after =>
      rw [hrun] at hstop
      cases result with
      | ok a => exact hf a limits after line
      | error e =>
          rintro ⟨⟩
          exact hstop rfl

theorem avoids_ite {p : Prop} [Decidable p] {y : Action α} (hx : Avoids x) (hy : Avoids y) :
    Avoids (if p then x else y) := by
  split
  · exact hx
  · exact hy

theorem avoids_fail {cause : Fault} (h : cause ≠ .badTarget) : Avoids (fail cause : Action α) := by
  rintro limits m line ⟨⟩
  exact h rfl

theorem avoids_tick : Avoids tick := by
  intro limits m line
  unfold tick
  dsimp only
  split <;> nofun

theorem avoids_draw {x : Random.Generator → Outcome (α × Random.Generator)}
    (h : ∀ g, Spares (x g)) : Avoids (draw x) := by
  intro limits m line
  have hspares := h m.generator
  cases hx : x m.generator with
  | ok drawn => simp [draw, hx]
  | error cause =>
      rw [hx, spares_error] at hspares
      simp [draw, hx, hspares]

/-- A round at a time: the bound on their number is another way to run out of steps. -/
theorem avoids_roundsUpTo {round : Action Bool} (h : Avoids round) (most : Nat) :
    Avoids (roundsUpTo round most) := by
  induction most with
  | zero => nofun
  | succ most ih =>
      rw [roundsUpTo_succ]
      exact avoids_bind (avoids_bind avoids_tick fun _ => h) fun _ => avoids_ite ih (avoids_pure ())

theorem avoids_rounds {round : Action Bool} (h : Avoids round) : Avoids (rounds round) :=
  fun limits m => avoids_roundsUpTo h (limits.maxSteps + 1) limits m

theorem avoids_forEach {body : Value → Action Flow} (h : ∀ v, Avoids (body v)) (items : List Value) :
    Avoids (Host.forEach body items) := by
  induction items with
  | nil => exact avoids_pure ()
  | cons v rest ih =>
      refine avoids_bind (h v) fun flow => ?_
      cases flow with
      | breakLoop => exact avoids_pure ()
      | next => exact ih
      | continueLoop => exact ih

end

/-- The operations of the machine never fail because of what is written to, whatever names are bound. -/
theorem confined_avoids : Confined (M := Action) (fun _ => True) fun _ x => Avoids x where
  pure := avoids_pure
  bind := avoids_bind
  fail _ := avoids_fail
  tick := avoids_tick
  lookUp _ := nofun
  bindName _ _ _ := nofun
  shadow name h := fun limits m => h trivial limits (m.unbind name)
  writeLine _ := nofun
  draw _ := avoids_draw
  report _ := nofun

/-- No expression fails because of what it writes to: a list is written back to places only. -/
theorem Expr.avoids (e : Expr) : Avoids e.eval := confined_avoids.eval e fun _ _ => trivial

theorem Place.avoids {e : Expr} (h : Place e) (v : Value) : Avoids (e.store v) :=
  confined_avoids.store e (isPlace_iff.2 h) (fun _ _ => trivial) (fun _ _ => trivial) v

theorem avoids_ofOutcome {x : Outcome α} (h : Spares x) : Avoids (Host.ofOutcome x) :=
  confined_avoids.ofOutcome h

variable {body : List Stmt}

/-- Whether none of the statements fails because of what it writes to. -/
def AllAvoid (body : List Stmt) : Prop := ∀ s ∈ body, Avoids s.run

theorem AllAvoid.runAll (h : AllAvoid body) : Avoids (runAll body) := by
  induction body with
  | nil =>
      rw [Script.runAll]
      exact avoids_pure _
  | cons s rest ih =>
      rw [Script.runAll]
      refine avoids_bind (h s List.mem_cons_self) fun flow => ?_
      cases flow with
      | next => exact ih fun t ht => h t (List.mem_cons_of_mem s ht)
      | breakLoop => exact avoids_pure _
      | continueLoop => exact avoids_pure _

theorem avoids_stmt {line : Nat} {act : Act} (h : Avoids act.run) : Avoids (Stmt.mk line act).run := by
  rw [Stmt.run]
  exact avoids_bind nofun fun _ => avoids_bind avoids_tick fun _ => h

mutual

theorem Sentence.avoids {inLoop : Bool} {ts : List Token} {act : Act} :
    Sentence inLoop ts act → Avoids act.run
  | .eval _ => by
      rw [Act.run]
      exact avoids_bind (Expr.avoids _) fun _ => avoids_pure _
  | .assign _ hplace _ => by
      rw [Act.run]
      exact avoids_bind (Expr.avoids _) fun v => avoids_bind (hplace.avoids v) fun _ => avoids_pure _
  | .update _ hplace _ _ => by
      rw [Act.run]
      refine avoids_bind (Expr.avoids _) fun current => avoids_bind (Expr.avoids _) fun v => ?_
      refine avoids_bind (avoids_ofOutcome (spares_operator _ _ _)) fun w => ?_
      exact avoids_bind (hplace.avoids w) fun _ => avoids_pure _
  | .choose h h' => by
      rw [Act.run, Arms.run]
      exact avoids_bind (Expr.avoids _) fun _ => avoids_ite h.avoids.runAll h'.avoids
  | .forEach h => by
      rw [Act.run]
      refine avoids_bind (Expr.avoids _) fun v => ?_
      refine avoids_bind (avoids_ofOutcome (spares_iterate v)) fun items => ?_
      refine avoids_bind (avoids_forEach (fun w => ?_) items) fun _ => avoids_pure _
      exact avoids_bind avoids_tick fun _ => avoids_bind nofun fun _ => h.avoids.runAll
  | .whileTrue h => by
      rw [Act.run]
      -- The flow of the body stays in the loop.
      refine avoids_bind (avoids_rounds ?_) fun _ => avoids_pure _
      refine avoids_bind (Expr.avoids _) fun v => avoids_ite ?_ (avoids_pure _)
      refine avoids_bind h.avoids.runAll fun flow => ?_
      cases flow <;> exact avoids_pure _
  | .breakLoop => by
      rw [Act.run]
      exact avoids_pure _
  | .continueLoop => by
      rw [Act.run]
      exact avoids_pure _

theorem Guarded.avoids {inLoop : Bool} {ts : List Token} {arm : Expr × List Stmt} :
    Guarded inLoop ts arm → AllAvoid arm.2
  | .mk _ hbody => hbody.avoids

theorem MoreArms.avoids {inLoop : Bool} {ts : List Token} {more : Arms} :
    MoreArms inLoop ts more → Avoids more.run
  | .done => by
      rw [Arms.run]
      exact avoids_pure _
  | .elif _ h h' => by
      rw [Arms.run]
      exact avoids_bind (Expr.avoids _) fun _ => avoids_ite h.avoids.runAll h'.avoids
  | .elseIf _ h h' => by
      rw [Arms.run]
      exact avoids_bind (Expr.avoids _) fun _ => avoids_ite h.avoids.runAll h'.avoids
  | .otherwise _ hbody => by
      rw [Arms.run]
      exact hbody.avoids.runAll

theorem Block.avoids {inLoop : Bool} {ts : List Token} {body : List Stmt} :
    Block inLoop ts body → AllAvoid body
  | .mk _ hbody => hbody.avoids

theorem Body.avoids {inLoop : Bool} {ts : List Token} {body : List Stmt} :
    Body inLoop ts body → AllAvoid body
  | .none => nofun
  | .last h => by
      rintro _ (_ | ⟨_, ⟨⟩⟩)
      exact avoids_stmt h.avoids
  | .more h _ hrest => by
      rintro s (_ | ⟨_, hs⟩)
      · exact avoids_stmt h.avoids
      · exact hrest.avoids s hs

end

/-! ### Loops -/

/-- Whether an act is a loop. -/
def Act.IsLoop : Act → Prop
  | .forEach .. => True
  | .whileTrue .. => True
  | _ => False

/-- A loop hands on to the statement behind it, whatever jumps are in its body. -/
theorem Act.IsLoop.handsOn {act : Act} (h : act.IsLoop) (line : Nat) :
    HandsOn (Stmt.mk line act).run := by
  rw [Stmt.run]
  refine handsOn_bind fun _ => handsOn_bind fun _ => ?_
  cases act with
  | forEach name source body =>
      rw [Act.run]
      exact handsOn_bind fun _ => handsOn_bind fun _ => handsOn_bind fun _ => handsOn_pure
  | whileTrue condition body =>
      rw [Act.run]
      exact handsOn_bind fun _ => handsOn_pure
  | _ => exact h.elim

/-! ### Accepted scripts -/

/-- Statements that hand on are run one after the other. -/
theorem AllHandOn.runProgram_eq (h : AllHandOn body) :
    runProgram body = body.foldr (fun s rest => do let _ ← s.run; rest) (pure ()) := by
  unfold runProgram perform
  induction body with
  | nil =>
      rw [runAll, bind_of_pure]
      rfl
  | cons s rest ih =>
      rw [runAll_cons (h s List.mem_cons_self), bind_bind,
        ih fun t ht => h t (List.mem_cons_of_mem s ht)]
      rfl

/-- The interpreter may rely on what the parser has seen to. An accepted script ends without a jump, so
all its statements are run one after the other. A loop, wherever it stands, hands on to the statement
behind it, so a jump leaves no more than the loop around it. And no assignment or changing method ever
fails because of what it writes to. -/
theorem accepted_scripts_run_without_stray_jumps {source : String} {program : List Stmt}
    (h : parse source = .ok program) :
    HandsOn (runAll program) ∧
      runProgram program = program.foldr (fun s rest => do let _ ← s.run; rest) (pure ()) ∧
      (∀ line act rest, act.IsLoop →
        (runAll (.mk line act :: rest) : Action Flow) =
          (do let _ ← (Stmt.mk line act).run; runAll rest)) ∧
      ∀ limits m line, (runProgram program limits m).1 ≠ .error (.fault line .badTarget) := by
  obtain ⟨tokens, -, ⟨-, hbody⟩⟩ := isScript_of_parse h
  have hhand := hbody.handsOn rfl
  refine ⟨hhand.handsOn, hhand.runProgram_eq, fun line act rest hloop => ?_, ?_⟩
  · exact runAll_cons (hloop.handsOn line) rest
  · exact avoids_bind hbody.avoids.runAll fun _ => avoids_pure ()

theorem accepted_scripts_run_without_stray_jumps_nested :
    let source := "xs = [[3], [4]]\nfor x in xs \x7b\n while True \x7b\n" ++
      "  xs[0].append(x)\n  break \x7d\n if len(xs[0]) > 2 \x7b continue \x7d\n xs[1][0] += 1 \x7d"
    ∃ program, parse source = .ok program ∧ HandsOn (runAll program) ∧
      ∀ limits m line, (runProgram program limits m).1 ≠ .error (.fault line .badTarget) := by
  intro source
  have hread : (parse source).toBool = true := by decide +kernel
  cases hprogram : parse source with
  | error e =>
      rw [hprogram] at hread
      cases hread
  | ok program =>
      obtain ⟨hends, -, -, hplaces⟩ := accepted_scripts_run_without_stray_jumps hprogram
      exact ⟨program, rfl, hends, hplaces⟩

end PromptWeave.Script
