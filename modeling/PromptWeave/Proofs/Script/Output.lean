import PromptWeave.Proofs.Script.Simulation
import PromptWeave.Proofs.Text.Bytes

/-!
# The cap on output

No operation of a run looks at what has been written. So a run writes the same text under every cap,
and a cap decides only how much of the text is kept. Main statement: `output_cap_only_cuts`.
-/
namespace PromptWeave.Script

open PromptWeave.Random (Generator)
open PromptWeave.Text (takeBytes takeBytes_append_of_ge takeBytes_append_of_le IsLongestFront)

/-- What a cap leaves of a text that has been written. -/
def capped (cap : Nat) (written : String) : String :=
  if written.utf8ByteSize ≤ cap then written else takeBytes cap written ++ truncationMark

theorem capped_of_le {cap : Nat} {written : String} (h : written.utf8ByteSize ≤ cap) :
    capped cap written = written := if_pos h

theorem capped_of_lt {cap : Nat} {written : String} (h : cap < written.utf8ByteSize) :
    capped cap written = takeBytes cap written ++ truncationMark := if_neg (Nat.not_le.2 h)

namespace Machine

/-- The machine with what a cap leaves of a text as its output. -/
def showing (m : Machine) (cap : Nat) (written : String) : Machine :=
  { m with
    output := capped cap written
    truncated := decide (cap < written.utf8ByteSize) }

/-- Behind the cap nothing more is shown. -/
theorem showing_append_of_lt {cap : Nat} {written : String} (h : cap < written.utf8ByteSize)
    (m : Machine) (more : String) : m.showing cap (written ++ more) = m.showing cap written := by
  have hmore : cap < (written ++ more).utf8ByteSize := by
    rw [String.utf8ByteSize_append]
    omega
  simp only [showing, capped_of_lt h, capped_of_lt hmore, decide_eq_true h, decide_eq_true hmore,
    takeBytes_append_of_ge (Nat.le_of_lt h)]

/-- A line that is written adds itself and its end to the text, of which the cap leaves what it
leaves. -/
theorem write_showing (m : Machine) (cap : Nat) (written line : String) :
    (m.showing cap written).write cap line = m.showing cap (written ++ (line ++ "\n")) := by
  have hline : (line ++ "\n").utf8ByteSize = line.utf8ByteSize + 1 := by
    rw [String.utf8ByteSize_append]
    rfl
  by_cases hbehind : cap < written.utf8ByteSize
  · rw [showing_append_of_lt hbehind]
    simp [write, showing, hbehind]
  · have hwithin : written.utf8ByteSize ≤ cap := Nat.not_lt.1 hbehind
    have hsize : (written ++ (line ++ "\n")).utf8ByteSize =
        written.utf8ByteSize + (line.utf8ByteSize + 1) := by
      rw [String.utf8ByteSize_append, hline]
    simp only [write, showing, capped_of_le hwithin, decide_eq_false hbehind, Bool.false_eq_true,
      if_false]
    by_cases hfits : line.utf8ByteSize + 1 ≤ cap - written.utf8ByteSize
    · have hall : (written ++ (line ++ "\n")).utf8ByteSize ≤ cap := by omega
      rw [if_pos hfits, capped_of_le hall, decide_eq_false (Nat.not_lt.2 hall), String.append_assoc]
    · have hover : cap < (written ++ (line ++ "\n")).utf8ByteSize := by omega
      -- The end of the line is one byte, so what is left of the line fills the room.
      have hfull : cap - written.utf8ByteSize ≤ line.utf8ByteSize := by omega
      rw [if_neg hfits, capped_of_lt hover, decide_eq_true hover, takeBytes_append_of_le hwithin,
        takeBytes_append_of_ge hfull]

end Machine

/-! ### What a doing writes -/

/-- Whether a doing comes from one machine to a result and another machine and writes a text on the
way, whatever the cap and whatever has been written before. -/
def Writes {α : Type} (x : Action α) (maxSteps : Nat) (m : Machine) (result : Except Stop α)
    (last : Machine) (text : String) : Prop :=
  ∀ cap written, x ⟨maxSteps, cap⟩ (m.showing cap written) =
    (result, last.showing cap (written ++ text))

/-- A doing that writes nothing. -/
theorem Writes.nothing {α : Type} {x : Action α} {maxSteps : Nat} {m last : Machine}
    {result : Except Stop α}
    (h : ∀ cap written, x ⟨maxSteps, cap⟩ (m.showing cap written) =
      (result, last.showing cap written)) : Writes x maxSteps m result last "" := by
  intro cap written
  rw [h, String.append_empty]

/-- The doings of which it is settled what they come to and what they write before anything is said of
the output. -/
def Settled (α : Type) (x : Action α) : Prop :=
  ∀ maxSteps m, ∃ result last text, Writes x maxSteps m result last text

theorem settled_pure {α : Type} (a : α) : Settled α (pure a) :=
  fun _ m => ⟨.ok a, m, "", .nothing fun _ _ => rfl⟩

theorem Writes.bind {α β : Type} {x : Action α} {f : α → Action β} {maxSteps : Nat} {m : Machine}
    (hx : ∃ result last text, Writes x maxSteps m result last text)
    (hf : ∀ a m, ∃ result last text, Writes (f a) maxSteps m result last text) :
    ∃ result last text, Writes (x >>= f) maxSteps m result last text := by
  obtain ⟨result, middle, first, hfirst⟩ := hx
  cases result with
  | error e => exact ⟨.error e, middle, first, fun cap written => Action.bind_error f (hfirst cap written)⟩
  | ok a =>
      obtain ⟨result, last, rest, hrest⟩ := hf a middle
      refine ⟨result, last, first ++ rest, fun cap written => ?_⟩
      rw [Action.bind_ok f (hfirst cap written), hrest, String.append_assoc]

theorem settled_bind {α β : Type} {x : Action α} {f : α → Action β} (hx : Settled α x)
    (hf : ∀ a, Settled β (f a)) : Settled β (x >>= f) :=
  fun maxSteps m => Writes.bind (hx maxSteps m) fun a => hf a maxSteps

theorem settled_tick : Settled Unit Action.tick := by
  intro maxSteps m
  let next : Machine := { m with steps := m.steps + 1 }
  by_cases hover : maxSteps < m.steps + 1
  · exact ⟨.error (.stepLimit maxSteps), next, "", .nothing fun _ _ => if_pos hover⟩
  · exact ⟨.ok (), next, "", .nothing fun _ _ => if_neg hover⟩

theorem settled_shadow {α : Type} {x : Action α} (name : String) (hx : Settled α x) :
    Settled α (Action.shadow name x) := by
  intro maxSteps m
  obtain ⟨result, last, text, h⟩ := hx maxSteps (m.unbind name)
  refine ⟨result, last.restore name (m.get? name), text, fun cap written => ?_⟩
  have hinner : x ⟨maxSteps, cap⟩ ((m.showing cap written).unbind name) =
      (result, last.showing cap (written ++ text)) := h cap written
  rw [Action.shadow, hinner]
  change (result, (last.showing cap (written ++ text)).restore name (m.get? name)) = _
  cases m.get? name <;> rfl

theorem settled_writeLine (line : String) : Settled Unit (Action.writeLine line) :=
  fun _ m => ⟨.ok (), m, line ++ "\n", fun cap written => by
    rw [Action.writeLine, Machine.write_showing]⟩

theorem settled_draw {α : Type} (x : Generator → Outcome (α × Generator)) :
    Settled α (Action.draw x) := by
  intro maxSteps m
  cases hdraw : x m.generator with
  | ok drawn =>
      refine ⟨.ok drawn.1, { m with generator := drawn.2 }, "", .nothing fun cap written => ?_⟩
      have hsame : x (m.showing cap written).generator = .ok drawn := hdraw
      rw [Action.draw, hsame]
      rfl
  | error cause =>
      refine ⟨.error (.fault m.line cause), m, "", .nothing fun cap written => ?_⟩
      have hsame : x (m.showing cap written).generator = .error cause := hdraw
      rw [Action.draw, hsame]
      rfl

theorem settled_roundsUpTo {round : Action Bool} (hround : Settled Bool round) (most : Nat) :
    Settled Unit (Action.roundsUpTo round most) := by
  induction most with
  | zero => exact fun maxSteps m => ⟨.error (.stepLimit maxSteps), m, "", .nothing fun _ _ => rfl⟩
  | succ most ih =>
      rw [Action.roundsUpTo_succ]
      refine settled_bind (settled_bind settled_tick fun _ => hround) fun more => ?_
      cases more with
      | true => exact ih
      | false => exact settled_pure ()

/-- Nothing that a script does looks at the output. -/
theorem simulation_settled :
    Simulation (M := Action) (N := Action) fun α x _ => Settled α x where
  pure a := settled_pure a
  bind hx hf := settled_bind hx hf
  fail cause := fun _ m => ⟨.error (.fault m.line cause), m, "", .nothing fun _ _ => rfl⟩
  tick := settled_tick
  enterLine line := fun _ m => ⟨.ok (), { m with line }, "", .nothing fun _ _ => rfl⟩
  lookUp name := fun _ m => ⟨.ok (m.get? name), m, "", .nothing fun _ _ => rfl⟩
  bindName name v := fun _ m => ⟨.ok (), m.bind name v, "", .nothing fun _ _ => rfl⟩
  shadow name hx := settled_shadow name hx
  writeLine line := settled_writeLine line
  draw x := settled_draw x
  rounds hround := fun maxSteps => settled_roundsUpTo hround (maxSteps + 1) maxSteps
  report _ := settled_pure ()

/-- The cap on output cuts the output and does nothing else, whatever the program, the bindings, the
generator and the budget. There is one text that the run writes: it is the output under every cap that
is no less than its bytes. Under a smaller cap the output is the longest beginning of that text that
fits, cut between characters, with one mark behind it. All else, the result also of a run that fails,
the bindings, the steps, the line and the generator, is the same under every cap. -/
theorem output_cap_only_cuts (program : List Stmt) (bindings : Dictionary Value)
    (generator : Generator) (maxSteps : Nat) :
    let start : Machine := { Machine.start generator with bindings }
    let run (cap : Nat) := runProgram program ⟨maxSteps, cap⟩ start
    ∃ full : String,
      (∀ cap, full.utf8ByteSize ≤ cap → (run cap).2.output = full) ∧
      (∀ cap, cap < full.utf8ByteSize → ∃ front, IsLongestFront cap full front ∧
        (run cap).2.output = front ++ truncationMark) ∧
      ∀ cap other, (run cap).1 = (run other).1 ∧
        (run cap).2.bindings = (run other).2.bindings ∧
        (run cap).2.steps = (run other).2.steps ∧
        (run cap).2.line = (run other).2.line ∧
        (run cap).2.generator = (run other).2.generator := by
  intro start run
  have hsettled : Settled Unit (runProgram program) := simulation_settled.perform program
  obtain ⟨result, last, full, hwrites⟩ := hsettled maxSteps start
  have hrun (cap : Nat) : run cap = (result, last.showing cap full) := by
    have hempty : start.showing cap "" = start := rfl
    have hfrom := hwrites cap ""
    rwa [hempty, String.empty_append] at hfrom
  refine ⟨full, fun cap hfits => ?_, fun cap hover => ?_, fun cap other => ?_⟩
  · rw [hrun]
    exact capped_of_le hfits
  · refine ⟨takeBytes cap full, Text.isLongestFront_takeBytes cap full, ?_⟩
    rw [hrun]
    exact capped_of_lt hover
  · rw [hrun, hrun]
    exact ⟨rfl, rfl, rfl, rfl, rfl⟩

end PromptWeave.Script
