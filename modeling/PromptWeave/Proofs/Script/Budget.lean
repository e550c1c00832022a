import PromptWeave.Proofs.Outcome
import PromptWeave.Proofs.Script.Simulation
import PromptWeave.Script.Execution

/-!
# The step budget

The steps of a run are counted, and a run ends for want of steps exactly when its counter has passed
the limit. Apart from that the limit is invisible: a run that does not end for want of steps is the
same run under every larger limit.
-/
namespace PromptWeave.Script

/-- Whether a run ended for want of steps. -/
def IsCut {α : Type} (result : Except Stop α) : Prop := ∃ n, result = .error (.stepLimit n)

@[simp] theorem not_isCut_ok {α : Type} (a : α) : ¬ IsCut (.ok a : Except Stop α) := by
  simp [IsCut]

@[simp] theorem not_isCut_fault {α : Type} (line : Nat) (cause : Fault) :
    ¬ IsCut (.error (.fault line cause) : Except Stop α) := by
  simp [IsCut]

@[simp] theorem isCut_stepLimit {α : Type} (n : Nat) :
    IsCut (.error (.stepLimit n) : Except Stop α) := ⟨n, rfl⟩

/-- Whether a run was cut off does not depend on what it would have given. -/
theorem isCut_error_iff {α β : Type} (e : Stop) :
    IsCut (.error e : Except Stop α) ↔ IsCut (.error e : Except Stop β) := by
  simp [IsCut]

/-! ### The counter -/

/-- How an outcome stands to a limit: the counter did not go back, and either it is within the limit
and the run was not cut off, or it is one step over and the run was cut off there. -/
structure Counted {α : Type} (maxSteps before : Nat) (outcome : Except Stop α × Machine) : Prop where
  mono : before ≤ outcome.2.steps
  cut_iff : outcome.2.steps ≤ maxSteps ∧ ¬ IsCut outcome.1 ∨
    outcome.2.steps = maxSteps + 1 ∧ outcome.1 = .error (.stepLimit maxSteps)

/-- An outcome whose counter stands still. -/
theorem Counted.still {α : Type} {maxSteps : Nat} {outcome : Except Stop α × Machine} {m : Machine}
    (hm : m.steps ≤ maxSteps) (hsteps : outcome.2.steps = m.steps) (hcut : ¬ IsCut outcome.1) :
    Counted maxSteps m.steps outcome :=
  ⟨by omega, Or.inl ⟨by omega, hcut⟩⟩

/-- The actions that count their steps. -/
def CountsSteps (α : Type) (x : Action α) : Prop :=
  ∀ limits m, m.steps ≤ limits.maxSteps → Counted limits.maxSteps m.steps (x limits m)

theorem countsSteps_pure {α : Type} (a : α) : CountsSteps α (pure a) :=
  fun _ _ hm => .still hm rfl (not_isCut_ok a)

/-- What gives a value has stayed within the limit. -/
theorem Counted.within {α : Type} {maxSteps before : Nat} {a : α} {m : Machine}
    (h : Counted maxSteps before (.ok a, m)) : m.steps ≤ maxSteps := by
  rcases h.cut_iff with hwithin | hover
  · exact hwithin.1
  · cases hover.2

/-- One thing after another counts its steps, if what follows does from where the first has led. -/
theorem Counted.bind {α β : Type} {x : Action α} {f : α → Action β} {limits : Limits} {m : Machine}
    (hx : Counted limits.maxSteps m.steps (x limits m))
    (hf : ∀ a m₁, x limits m = (.ok a, m₁) → m₁.steps ≤ limits.maxSteps →
      Counted limits.maxSteps m₁.steps (f a limits m₁)) :
    Counted limits.maxSteps m.steps ((x >>= f) limits m) := by
  rcases hrun : x limits m with ⟨e | a, m₁⟩
  · rw [Action.bind_error f hrun]
    rw [hrun] at hx
    refine ⟨hx.mono, hx.cut_iff.imp (fun h => ⟨h.1, ?_⟩) fun h => ⟨h.1, ?_⟩⟩
    · exact fun hcut => h.2 ((isCut_error_iff e).1 hcut)
    · cases h.2
      rfl
  · rw [Action.bind_ok f hrun]
    rw [hrun] at hx
    have hrest := hf a m₁ hrun hx.within
    exact ⟨Nat.le_trans hx.mono hrest.mono, hrest.cut_iff⟩

theorem countsSteps_bind {α β : Type} {x : Action α} {f : α → Action β} (hx : CountsSteps α x)
    (hf : ∀ a, CountsSteps β (f a)) : CountsSteps β (x >>= f) :=
  fun limits m hm => (hx limits m hm).bind fun a m₁ _ h => hf a limits m₁ h

theorem countsSteps_tick : CountsSteps Unit Action.tick := by
  intro limits m hm
  unfold Action.tick
  dsimp only
  split
  · exact ⟨by dsimp only; omega, Or.inr ⟨by dsimp only; omega, rfl⟩⟩
  · exact ⟨by dsimp only; omega, Or.inl ⟨by dsimp only; omega, not_isCut_ok ()⟩⟩

/-- A step that is not the one over the limit is counted. -/
theorem steps_of_tick_ok {limits : Limits} {m m₁ : Machine}
    (h : Action.tick limits m = (.ok (), m₁)) : m₁.steps = m.steps + 1 := by
  unfold Action.tick at h
  dsimp only at h
  split at h
  · cases h
  · cases h
    rfl

theorem countsSteps_shadow {α : Type} {x : Action α} (name : String) (hx : CountsSteps α x) :
    CountsSteps α (Action.shadow name x) := by
  intro limits m hm
  have hcount := hx limits (m.unbind name) (by simpa using hm)
  rw [Machine.steps_unbind] at hcount
  constructor
  · simpa [Action.shadow] using hcount.mono
  · simpa [Action.shadow] using hcount.cut_iff

theorem countsSteps_draw {α : Type} (x : Random.Generator → Outcome (α × Random.Generator)) :
    CountsSteps α (Action.draw x) := by
  intro limits m hm
  unfold Action.draw
  split
  · exact .still hm rfl (not_isCut_ok _)
  · exact .still hm rfl (not_isCut_fault _ _)

/-- A step with a round puts the counter forward. -/
theorem steps_lt_of_lap {round : Action Bool} (hround : CountsSteps Bool round) {limits : Limits}
    {m m₂ : Machine} {more : Bool} (hm : m.steps ≤ limits.maxSteps)
    (h : (Action.tick >>= fun _ => round) limits m = (.ok more, m₂)) : m.steps < m₂.steps := by
  rcases htick : Action.tick limits m with ⟨e | _, m₁⟩
  · rw [Action.bind_error _ htick] at h
    cases h
  · rw [Action.bind_ok _ htick] at h
    have hsteps := steps_of_tick_ok htick
    have hcount := countsSteps_tick limits m hm
    rw [htick] at hcount
    have hmono := (hround limits m₁ hcount.within).mono
    rw [h] at hmono
    dsimp only at hmono
    omega

/-- Rounds never end for want of rounds: every round takes a step, so that the run is out of steps
before. -/
theorem countsSteps_rounds {round : Action Bool} (hround : CountsSteps Bool round) :
    CountsSteps Unit (Action.rounds round) := by
  intro limits m hm
  suffices h : ∀ most m, m.steps ≤ limits.maxSteps → limits.maxSteps < m.steps + most →
      Counted limits.maxSteps m.steps (Action.roundsUpTo round most limits m) from
    h _ m hm (by omega)
  intro most
  induction most with
  | zero => intro m hm hmost; omega
  | succ most ih =>
      intro m hm hmost
      rw [Action.roundsUpTo_succ]
      have hlap := countsSteps_bind countsSteps_tick fun _ => hround
      refine (hlap limits m hm).bind fun more m₁ hrun hm₁ => ?_
      have hsteps := steps_lt_of_lap hround hm hrun
      cases more with
      | true => exact ih m₁ hm₁ (by omega)
      | false => exact countsSteps_pure () limits m₁ hm₁

theorem simulation_countsSteps :
    Simulation (M := Action) (N := Action) fun α x _ => CountsSteps α x where
  pure a := countsSteps_pure a
  bind hx hf := countsSteps_bind hx hf
  fail _ _ _ hm := .still hm rfl (not_isCut_fault _ _)
  tick := countsSteps_tick
  enterLine _ _ _ hm := .still hm rfl (not_isCut_ok _)
  lookUp _ _ _ hm := .still hm rfl (not_isCut_ok _)
  bindName _ _ _ _ hm := .still hm rfl (not_isCut_ok _)
  shadow name hx := countsSteps_shadow name hx
  writeLine line _ m hm := .still hm (m.steps_write _ line) (not_isCut_ok _)
  draw x := countsSteps_draw x
  rounds hround := countsSteps_rounds hround
  report _ _ _ hm := .still hm rfl (not_isCut_ok _)

/-- Every run counts its steps. -/
theorem countsSteps_runProgram (program : List Stmt) : CountsSteps Unit (runProgram program) :=
  simulation_countsSteps.perform program

/-! ### Two budgets -/

/-- A run under a limit that does not cut it off, and the same run under another limit. -/
def SameUnlessCut (small large : Limits) (α : Type) (x y : Action α) : Prop :=
  ∀ m, ¬ IsCut (x small m).1 → y large m = x small m

theorem sameUnlessCut_bind {small large : Limits} {α β : Type} {x y : Action α}
    {f g : α → Action β} (hxy : SameUnlessCut small large α x y)
    (hfg : ∀ a, SameUnlessCut small large β (f a) (g a)) :
    SameUnlessCut small large β (x >>= f) (y >>= g) := by
  intro m hcut
  rcases hrun : x small m with ⟨e | a, m₁⟩
  · rw [Action.bind_error f hrun] at hcut ⊢
    have hsame := hxy m (by rw [hrun]; exact fun h => hcut ((isCut_error_iff e).1 h))
    exact Action.bind_error g (hsame.trans hrun)
  · rw [Action.bind_ok f hrun] at hcut ⊢
    have hsame := hxy m (by rw [hrun]; exact not_isCut_ok a)
    rw [Action.bind_ok g (hsame.trans hrun)]
    exact hfg a m₁ hcut

theorem sameUnlessCut_tick {small large : Limits} (hle : small.maxSteps ≤ large.maxSteps) :
    SameUnlessCut small large Unit Action.tick Action.tick := by
  intro m hcut
  unfold Action.tick at hcut ⊢
  dsimp only at hcut ⊢
  split at hcut
  · exact absurd (isCut_stepLimit _) hcut
  · rename_i hwithin
    rw [if_neg (by omega), if_neg hwithin]

theorem sameUnlessCut_roundsUpTo {small large : Limits} (hle : small.maxSteps ≤ large.maxSteps)
    {x y : Action Bool} (hxy : SameUnlessCut small large Bool x y) {few many : Nat}
    (hmany : few ≤ many) :
    SameUnlessCut small large Unit (Action.roundsUpTo x few) (Action.roundsUpTo y many) := by
  induction few generalizing many with
  | zero =>
      intro m hcut
      exact absurd (isCut_stepLimit _) hcut
  | succ few ih =>
      obtain ⟨many, rfl⟩ : ∃ k, many = k + 1 := ⟨many - 1, by omega⟩
      rw [Action.roundsUpTo_succ, Action.roundsUpTo_succ]
      have hlap := sameUnlessCut_bind (sameUnlessCut_tick hle) fun _ => hxy
      refine sameUnlessCut_bind hlap fun more => ?_
      cases more with
      | true => exact ih (by omega)
      | false => exact fun _ _ => rfl

theorem sameUnlessCut_shadow {small large : Limits} {α : Type} {x y : Action α} (name : String)
    (hxy : SameUnlessCut small large α x y) :
    SameUnlessCut small large α (Action.shadow name x) (Action.shadow name y) := by
  intro m hcut
  unfold Action.shadow
  rw [hxy (m.unbind name) hcut]

theorem simulation_sameUnlessCut (small large : Limits) (hle : small.maxSteps ≤ large.maxSteps)
    (hbytes : small.maxOutputBytes = large.maxOutputBytes) :
    Simulation (M := Action) (N := Action) (SameUnlessCut small large) where
  pure _ _ _ := rfl
  bind hxy hfg := sameUnlessCut_bind hxy hfg
  fail _ _ _ := rfl
  tick := sameUnlessCut_tick hle
  enterLine _ _ _ := rfl
  lookUp _ _ _ := rfl
  bindName _ _ _ _ := rfl
  shadow name hxy := sameUnlessCut_shadow name hxy
  writeLine _ m _ := by simp only [Action.host_writeLine, Action.writeLine, hbytes]
  draw _ _ _ := rfl
  rounds hxy := fun m hcut => sameUnlessCut_roundsUpTo hle hxy (by omega) m hcut
  report _ _ _ := rfl

/-- A run that is not cut off is the same run under a larger limit. -/
theorem runProgram_of_le (program : List Stmt) {m : Machine} {small large bytes : Nat}
    (hle : small ≤ large) (hcut : ¬ IsCut (runProgram program ⟨small, bytes⟩ m).1) :
    runProgram program ⟨large, bytes⟩ m = runProgram program ⟨small, bytes⟩ m :=
  (simulation_sameUnlessCut (Limits.mk small bytes) (Limits.mk large bytes) hle rfl).perform
    program m hcut

/-- A script that is not stopped for want of steps comes to the same end under a larger limit. -/
theorem run_of_le {small large bytes : Nat} (hle : small ≤ large) {seed : UInt64}
    {source : String} {vars : TagVariables}
    (hcut : ∀ n, (⟨⟨small, bytes⟩, seed⟩ : Runner).run source vars ≠
      .error (.stopped (.stepLimit n))) :
    (⟨⟨large, bytes⟩, seed⟩ : Runner).run source vars =
      (⟨⟨small, bytes⟩, seed⟩ : Runner).run source vars := by
  unfold Runner.run at hcut ⊢
  cases hscreen : screen source with
  | error e => rfl
  | ok _ =>
      cases hparse : parse source with
      | error e => rfl
      | ok program =>
          simp only [hscreen, hparse, bind, Except.bind, mapError_ok] at hcut ⊢
          rw [runProgram_of_le program hle]
          rintro ⟨n, hn⟩
          rcases hshort : runProgram program ⟨small, bytes⟩ (.withTags (.ofSeed seed) vars)
            with ⟨r, m⟩
          rw [hshort] at hn
          subst hn
          exact hcut n (by rw [hshort])

/-- The step budget cuts a run off and does nothing else. A run that it does not cut off is the same
under every larger budget, result and machine. A run that takes more steps than a smaller budget
allows is cut off by that budget at the first step over it. A script that is not stopped for want of
steps comes to the same end under every larger budget. -/
theorem budget_only_cuts_off (program : List Stmt) (m : Machine) (bytes : Nat) {small large : Nat}
    (hle : small ≤ large) (hm : m.steps ≤ small) :
    let short := runProgram program ⟨small, bytes⟩ m
    let long := runProgram program ⟨large, bytes⟩ m
    (¬ IsCut short.1 → long = short) ∧
      (small < long.2.steps →
        short.1 = .error (.stepLimit small) ∧ short.2.steps = small + 1) ∧
      ∀ seed source vars,
        (∀ n, (⟨⟨small, bytes⟩, seed⟩ : Runner).run source vars ≠
          .error (.stopped (.stepLimit n))) →
        (⟨⟨large, bytes⟩, seed⟩ : Runner).run source vars =
          (⟨⟨small, bytes⟩, seed⟩ : Runner).run source vars := by
  intro short long
  have hcount := countsSteps_runProgram program ⟨small, bytes⟩ m hm
  refine ⟨runProgram_of_le program hle, fun hover => ?_, fun _ _ _ hcut => run_of_le hle hcut⟩
  rcases hcount.cut_iff with ⟨hwithin, hcut⟩ | ⟨hsteps, hcut⟩
  · have hsame : long = short := runProgram_of_le program hle hcut
    rw [hsame] at hover
    exact absurd hwithin (Nat.not_le_of_lt hover)
  · exact ⟨hcut, hsteps⟩

/-- A loop without end takes more than three steps, so a budget of three cuts it off. -/
theorem budget_only_cuts_off_endless :
    let endless : List Stmt := [.mk 1 (.whileTrue (.bool true) [])]
    let m : Machine := .start (.ofSeed 0)
    3 ≤ 7 ∧ m.steps ≤ 3 ∧ 3 < (runProgram endless ⟨7, 100⟩ m).2.steps ∧
      (runProgram endless ⟨3, 100⟩ m).1 = .error (.stepLimit 3) ∧
      (runProgram endless ⟨3, 100⟩ m).2.steps = 4 := by
  intro endless m
  have hover : 3 < (runProgram endless ⟨7, 100⟩ m).2.steps := by decide +kernel
  exact ⟨by decide, by decide, hover,
    (budget_only_cuts_off endless m 100 (by decide) (by decide)).2.1 hover⟩

end PromptWeave.Script
