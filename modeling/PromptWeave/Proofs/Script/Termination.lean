import PromptWeave.Proofs.Script.Budget
import PromptWeave.Proofs.Script.Course

/-!
# Every run ends within its budget

The machine bounds the rounds of a loop by the steps that a run may take. The courses of a run know no
such bound, and still every run has exactly one course, whose result and events are those of the
machine: the counter alone ends the loops that nothing else ends. After the step over the limit
nothing happens any more, except that the names of comprehensions get back their bindings.
-/
namespace PromptWeave.Script

/-! ### Events and the limit -/

/-- Whether an event gives a name the binding back that was put aside for it earlier. -/
def GivesBack (limits : Limits) (m : Machine) (before : List Event) (event : Event) : Prop :=
  ∃ name earlier later, before = earlier ++ .hid name :: later ∧
    event = .restored name ((m.replay limits earlier).get? name)

theorem GivesBack.append {limits : Limits} {m : Machine} {first before : List Event} {event : Event}
    (h : GivesBack limits (m.replay limits first) before event) :
    GivesBack limits m (first ++ before) event := by
  obtain ⟨name, earlier, later, rfl, rfl⟩ := h
  refine ⟨name, first ++ earlier, later, (List.append_assoc ..).symm, ?_⟩
  rw [Machine.replay_append]

/-- How events stand to a limit: a run that is not cut off stays within it, and a run that is cut off
does nothing after the step over it but give back bindings. -/
inductive Respects {α : Type} (limits : Limits) (m : Machine) : Except Stop α → List Event → Prop where
  | within {result : Except Stop α} {events : List Event} :
      ¬ IsCut result → .overran ∉ events → Respects limits m result events
  | cutOff {before after : List Event} :
      .overran ∉ before → (∀ event ∈ after, GivesBack limits m before event) →
      Respects limits m (.error (.stepLimit limits.maxSteps)) (before ++ .overran :: after)

namespace Respects

variable {α β : Type} {limits : Limits} {m : Machine}

theorem of_ok {a : α} {events : List Event}
    (h : Respects limits m (.ok a : Except Stop α) events) : .overran ∉ events := by
  generalize hr : (Except.ok a : Except Stop α) = r at h
  cases h with
  | within _ hevents => exact hevents
  | cutOff _ _ => cases hr

/-- A failure does not depend on what the run would have given. -/
theorem error {e : Stop} {events : List Event}
    (h : Respects limits m (.error e : Except Stop α) events) :
    Respects limits m (.error e : Except Stop β) events := by
  generalize hr : (Except.error e : Except Stop α) = r at h
  cases h with
  | within hcut hevents =>
      subst hr
      exact .within (fun hcut' => hcut ((isCut_error_iff e).1 hcut')) hevents
  | cutOff hbefore hafter =>
      cases hr
      exact .cutOff hbefore hafter

/-- Events within the limit may come first. -/
theorem append {first rest : List Event} {result : Except Stop α} (hfirst : .overran ∉ first)
    (h : Respects limits (m.replay limits first) result rest) :
    Respects limits m result (first ++ rest) := by
  cases h with
  | within hcut hevents =>
      exact .within hcut (by simp only [List.mem_append, not_or]; exact ⟨hfirst, hevents⟩)
  | cutOff hbefore hafter =>
      rw [← List.append_assoc]
      refine .cutOff ?_ fun event hevent => (hafter event hevent).append
      simp only [List.mem_append, not_or]
      exact ⟨hfirst, hbefore⟩

/-- A name whose binding is put aside may be given it back last, also after the step over the limit. -/
theorem shadow {events : List Event} {result : Except Stop α} (name : String)
    (h : Respects limits (m.unbind name) result events) :
    Respects limits m result (.hid name :: events ++ [.restored name (m.get? name)]) := by
  cases h with
  | within hcut hevents =>
      refine .within hcut ?_
      simp only [List.cons_append, List.mem_cons, List.mem_append, List.not_mem_nil, not_or]
      exact ⟨Event.noConfusion, hevents, Event.noConfusion, not_false⟩
  | @cutOff before after hbefore hafter =>
      have hsplit : .hid name :: (before ++ .overran :: after) ++ [.restored name (m.get? name)] =
          (.hid name :: before) ++ .overran :: (after ++ [.restored name (m.get? name)]) := by simp
      rw [hsplit]
      refine .cutOff ?_ fun event hevent => ?_
      · simp only [List.mem_cons, not_or]
        exact ⟨Event.noConfusion, hbefore⟩
      · rcases List.mem_append.1 hevent with hinner | hlast
        · have hput : m.unbind name = m.replay limits [.hid name] := rfl
          rw [hput] at hafter
          exact (hafter event hinner).append
        · exact ⟨name, [], before, rfl, List.mem_singleton.1 hlast⟩

end Respects

/-! ### The machine follows a course -/

/-- The events are the only course from a machine, and the outcome is theirs. -/
structure Traces {α : Type} (y : Course α) (limits : Limits) (m : Machine)
    (outcome : Except Stop α × Machine) (events : List Event) : Prop where
  course_iff : ∀ result events', y limits m result events' ↔ result = outcome.1 ∧ events' = events
  replay : outcome.2 = m.replay limits events
  respects : Respects limits m outcome.1 events

/-- A doing that comes to one result traces it, if it says what the machine does. -/
theorem Traces.single {α : Type} {outcome : Limits → Machine → Except Stop α × List Event}
    {limits : Limits} {m m' : Machine} {result : Except Stop α} {events : List Event}
    (h : outcome limits m = (result, events)) (hreplay : m' = m.replay limits events)
    (hrespects : Respects limits m result events) :
    Traces (Course.single outcome) limits m (result, m') events where
  course_iff _ _ := by rw [Course.single_iff, h, Prod.mk.injEq]
  replay := hreplay
  respects := hrespects

/-- The course of one thing after another is the one course of the first and then, unless it fails,
the one course of what follows. -/
theorem Traces.bind {α β : Type} {x : Action α} {y : Course α} {f : α → Action β}
    {g : α → Course β} {limits : Limits} {m : Machine}
    (hx : ∃ events, Traces y limits m (x limits m) events)
    (hf : ∀ a m₁, x limits m = (.ok a, m₁) →
      ∃ events, Traces (g a) limits m₁ (f a limits m₁) events) :
    ∃ events, Traces (y >>= g) limits m ((x >>= f) limits m) events := by
  obtain ⟨first, hfirst⟩ := hx
  rcases hrun : x limits m with ⟨e | a, m₁⟩
  · rw [hrun] at hfirst
    rw [Action.bind_error f hrun]
    refine ⟨first, fun result events => ?_, hfirst.replay, hfirst.respects.error⟩
    rw [Course.bind_iff]
    constructor
    · rintro (⟨e', hy, rfl⟩ | ⟨a, _, _, hy, _⟩)
      · obtain ⟨he, rfl⟩ := (hfirst.course_iff _ _).1 hy
        cases he
        exact ⟨rfl, rfl⟩
      · cases ((hfirst.course_iff _ _).1 hy).1
    · rintro ⟨rfl, rfl⟩
      exact Or.inl ⟨e, (hfirst.course_iff _ _).2 ⟨rfl, rfl⟩, rfl⟩
  · rw [hrun] at hfirst
    rw [Action.bind_ok f hrun]
    obtain ⟨rest, hrest⟩ := hf a m₁ hrun
    obtain rfl : m₁ = m.replay limits first := hfirst.replay
    refine ⟨first ++ rest, fun result events => ?_, ?_, ?_⟩
    · rw [Course.bind_iff]
      constructor
      · rintro (⟨e, hy, _⟩ | ⟨a', first', rest', hy, hg, rfl⟩)
        · cases ((hfirst.course_iff _ _).1 hy).1
        · obtain ⟨ha, rfl⟩ := (hfirst.course_iff _ _).1 hy
          cases ha
          obtain ⟨rfl, rfl⟩ := (hrest.course_iff _ _).1 hg
          exact ⟨rfl, rfl⟩
      · rintro ⟨rfl, rfl⟩
        exact Or.inr ⟨a, first, rest, (hfirst.course_iff _ _).2 ⟨rfl, rfl⟩,
          (hrest.course_iff _ _).2 ⟨rfl, rfl⟩, rfl⟩
    · rw [hrest.replay, Machine.replay_append]
    · exact .append hfirst.respects.of_ok hrest.respects

/-- The actions that follow a course, wherever they begin within their limit. -/
def Follows (α : Type) (x : Action α) (y : Course α) : Prop :=
  CountsSteps α x ∧
    ∀ limits m, m.steps ≤ limits.maxSteps → ∃ events, Traces y limits m (x limits m) events

theorem follows_bind {α β : Type} {x : Action α} {y : Course α} {f : α → Action β}
    {g : α → Course β} (hx : Follows α x y) (hf : ∀ a, Follows β (f a) (g a)) :
    Follows β (x >>= f) (y >>= g) := by
  refine ⟨countsSteps_bind hx.1 fun a => (hf a).1, fun limits m hm => ?_⟩
  refine Traces.bind (hx.2 limits m hm) fun a m₁ hrun => (hf a).2 limits m₁ ?_
  have hcount := hx.1 limits m hm
  rw [hrun] at hcount
  exact hcount.within

theorem follows_tick : Follows Unit Action.tick Course.tick := by
  refine ⟨countsSteps_tick, fun limits m hm => ?_⟩
  unfold Action.tick Course.tick
  dsimp only
  split
  · rename_i hover
    have hlast : Respects limits m (.error (.stepLimit limits.maxSteps) : Except Stop Unit)
        ([] ++ [.overran]) :=
      .cutOff List.not_mem_nil fun _ h => absurd h List.not_mem_nil
    exact ⟨[.overran], .single (if_pos hover) rfl hlast⟩
  · rename_i hwithin
    exact ⟨[.stepped], .single (if_neg hwithin) rfl (.within (not_isCut_ok ()) (by simp))⟩

theorem follows_draw {α : Type} (x : Random.Generator → Outcome (α × Random.Generator)) :
    Follows α (Action.draw x) (Course.draw x) := by
  refine ⟨countsSteps_draw x, fun limits m hm => ?_⟩
  unfold Action.draw Course.draw
  split
  · rename_i a generator hx
    exact ⟨[.drew generator], .single (by rw [hx]) rfl (.within (not_isCut_ok a) (by simp))⟩
  · rename_i cause hx
    exact ⟨[], .single (by rw [hx]) rfl (.within (not_isCut_fault _ _) (by simp))⟩

theorem follows_shadow {α : Type} {x : Action α} {y : Course α} (name : String)
    (hx : Follows α x y) : Follows α (Action.shadow name x) (Course.Shadowed name y) := by
  refine ⟨countsSteps_shadow name hx.1, fun limits m hm => ?_⟩
  obtain ⟨events, h⟩ := hx.2 limits (m.unbind name) hm
  refine ⟨.hid name :: events ++ [.restored name (m.get? name)], fun result events' => ?_, ?_, ?_⟩
  · constructor
    · intro hy
      cases hy with
      | mk hy =>
          obtain ⟨hresult, rfl⟩ := (h.course_iff _ _).1 hy
          exact ⟨hresult, rfl⟩
    · rintro ⟨rfl, rfl⟩
      exact .mk ((h.course_iff _ _).2 ⟨rfl, rfl⟩)
  · have hinner : (x limits (m.unbind name)).2 = (m.unbind name).replay limits events := h.replay
    simp only [Machine.replay_append, Machine.replay_cons, Machine.replay_nil, Machine.after]
    rw [← hinner]
    rfl
  · exact h.respects.shadow name

/-- One round less is left for every step that a round takes, so the rounds last as long as the
laps. -/
theorem follows_rounds {round : Action Bool} {lap : Course Bool} (hround : Follows Bool round lap) :
    Follows Unit (Action.rounds round) (Course.Laps (Course.tick >>= fun _ => lap)) := by
  refine ⟨countsSteps_rounds hround.1, fun limits m hm => ?_⟩
  suffices h : ∀ most m, m.steps ≤ limits.maxSteps → limits.maxSteps < m.steps + most →
      ∃ events, Traces (Course.Laps (Course.tick >>= fun _ => lap)) limits m
        (Action.roundsUpTo round most limits m) events from
    h _ m hm (by omega)
  intro most
  induction most with
  | zero => intro m hm hmost; omega
  | succ most ih =>
      intro m hm hmost
      rw [Action.roundsUpTo_succ, Course.laps_eq]
      have hlap := follows_bind follows_tick fun _ => hround
      refine Traces.bind (hlap.2 limits m hm) fun more m₁ hrun => ?_
      have hsteps := steps_lt_of_lap hround.1 hm hrun
      have hcount := hlap.1 limits m hm
      rw [hrun] at hcount
      cases more with
      | true => exact ih m₁ hcount.within (by omega)
      | false => exact ⟨[], .single rfl rfl (.within (not_isCut_ok ()) List.not_mem_nil)⟩

/-- The machine does what every script says, event by event. -/
theorem simulation_follows : Simulation Follows where
  pure a := ⟨countsSteps_pure a, fun _ _ _ => ⟨[], .single rfl rfl (.within (by simp) (by simp))⟩⟩
  bind hx hf := follows_bind hx hf
  fail cause := ⟨simulation_countsSteps.fail cause, fun _ _ _ =>
    ⟨[], .single rfl rfl (.within (by simp) (by simp))⟩⟩
  tick := follows_tick
  enterLine line := ⟨simulation_countsSteps.enterLine line, fun _ _ _ =>
    ⟨[.began line], .single rfl rfl (.within (by simp) (by simp))⟩⟩
  lookUp name := ⟨simulation_countsSteps.lookUp name, fun _ _ _ =>
    ⟨[], .single rfl rfl (.within (by simp) (by simp))⟩⟩
  bindName name v := ⟨simulation_countsSteps.bindName name v, fun _ _ _ =>
    ⟨[.bound name v], .single rfl rfl (.within (by simp) (by simp))⟩⟩
  shadow name hx := follows_shadow name hx
  writeLine line := ⟨simulation_countsSteps.writeLine line, fun _ _ _ =>
    ⟨[.wrote line], .single rfl rfl (.within (by simp) (by simp))⟩⟩
  draw x := follows_draw x
  rounds hround := follows_rounds hround
  report r := ⟨simulation_countsSteps.report r, fun _ _ _ =>
    ⟨[.saw r], .single rfl rfl (.within (by simp) (by simp))⟩⟩

/-- Every run ends, and within its limit. Whatever the program, a run that begins within its limit has
one course and no other, with no bound on the rounds of its loops, and the machine comes to its result
by its events. At no point of the run has the counter passed the limit by more than one step, and at
the end it has passed it exactly when the run was cut off. All that happens after the step over the
limit is that names are given back the bindings that were put aside for them. -/
theorem every_run_ends_within_its_budget (program : List Stmt) (limits : Limits) (m : Machine)
    (hm : m.steps ≤ limits.maxSteps) :
    let outcome := runProgram program limits m
    ∃ events,
      (∀ result events', (perform program : Course Unit) limits m result events' ↔
        result = outcome.1 ∧ events' = events) ∧
      outcome.2 = m.replay limits events ∧
      (∀ before after, events = before ++ after →
        (m.replay limits before).steps ≤ limits.maxSteps + 1) ∧
      (outcome.2.steps = limits.maxSteps + 1 ↔ outcome.1 = .error (.stepLimit limits.maxSteps)) ∧
      (outcome.1 = .error (.stepLimit limits.maxSteps) →
        ∃ before after bindings, events = before ++ .overran :: after ∧ .overran ∉ before ∧
          (∀ event ∈ after, GivesBack limits m before event) ∧
          outcome.2 = { m.replay limits (before ++ [.overran]) with bindings }) := by
  intro outcome
  have hfollows : Follows Unit (runProgram program) (perform program) :=
    simulation_follows.perform program
  obtain ⟨events, htraces⟩ := hfollows.2 limits m hm
  have hcount : Counted limits.maxSteps m.steps outcome := hfollows.1 limits m hm
  refine ⟨events, htraces.course_iff, htraces.replay, ?_, ?_, ?_⟩
  · rintro before after rfl
    have hmono := Machine.steps_le_replay limits (m.replay limits before) after
    have hreplay : outcome.2 = m.replay limits (before ++ after) := htraces.replay
    rw [← Machine.replay_append, ← hreplay] at hmono
    rcases hcount.cut_iff with h | h <;> omega
  · rcases hcount.cut_iff with ⟨hwithin, hcut⟩ | ⟨hsteps, hcut⟩
    · refine ⟨fun hover => by omega, fun hstop => absurd ?_ hcut⟩
      rw [hstop]
      exact isCut_stepLimit _
    · exact ⟨fun _ => hcut, fun _ => hsteps⟩
  · intro hstop
    have hrespects : Respects limits m outcome.1 events := htraces.respects
    generalize outcome.1 = result at hstop hrespects
    cases hrespects with
    | within hcut _ =>
        rw [hstop] at hcut
        exact absurd (isCut_stepLimit _) hcut
    | @cutOff before after hbefore hafter =>
        refine ⟨before, after, outcome.2.bindings, rfl, hbefore, hafter, ?_⟩
        have hreplay : outcome.2 = m.replay limits (before ++ .overran :: after) := htraces.replay
        rw [hreplay, List.append_cons, Machine.replay_append]
        refine Machine.replay_restored (fun event hevent => ?_) _
        obtain ⟨name, _, _, _, rfl⟩ := hafter event hevent
        exact ⟨name, _, rfl⟩

/-- Five steps do not suffice for the first element of a comprehension over two numbers. The name of
the comprehension is given back after the sixth. -/
theorem every_run_ends_within_its_budget_comprehension :
    let program : List Stmt :=
      [.mk 1 (.eval (.comprehension (.var "x") "x" (.list [.int 1, .int 2]) none))]
    let m : Machine := .start (.ofSeed 0)
    m.steps ≤ 5 ∧ ∃ before after,
      (perform program : Course Unit) ⟨5, 100⟩ m (.error (.stepLimit 5))
        (before ++ .overran :: after) ∧
      ∀ event ∈ after, GivesBack ⟨5, 100⟩ m before event := by
  intro program m
  have hstop : (runProgram program ⟨5, 100⟩ m).1 = .error (.stepLimit 5) := by rfl
  obtain ⟨events, hcourse, _, _, _, hover⟩ :=
    every_run_ends_within_its_budget program ⟨5, 100⟩ m (by decide)
  obtain ⟨before, after, _, rfl, _, hafter, _⟩ := hover hstop
  exact ⟨by decide, before, after, (hcourse _ _).2 ⟨hstop.symm, rfl⟩, hafter⟩

end PromptWeave.Script
