import PromptWeave.Script.Evaluation

/-!
# The course of a run

A second host, on which a script has no fuel to run out of. It says which results a doing can come to
and with which events: loops go round as often as their laps say, and a run that went on for ever would
have no course at all. A run changes its machine by its events and by nothing else, so the events tell
what the machine was at every point of the run.
-/
namespace PromptWeave.Script

open PromptWeave.Random (Generator)

/-- What happens in a run. -/
inductive Event where
  /-- A step within the limit. -/
  | stepped
  /-- The step over the limit. -/
  | overran
  /-- The statement on a line began. -/
  | began (line : Nat)
  /-- A name was bound. -/
  | bound (name : String) (v : Value)
  /-- The binding of a name was put aside. -/
  | hid (name : String)
  /-- A name was given back the binding that had been put aside, if there was one. -/
  | restored (name : String) (saved : Option Value)
  /-- A line was added to the output. -/
  | wrote (line : String)
  /-- The generator was drawn with. -/
  | drew (generator : Generator)
  /-- A value was reported. -/
  | saw (report : Report)

namespace Machine

/-- The machine after an event. -/
def after (limits : Limits) (m : Machine) : Event → Machine
  | .stepped => { m with steps := m.steps + 1 }
  | .overran => { m with steps := m.steps + 1 }
  | .began line => { m with line }
  | .bound name v => m.bind name v
  | .hid name => m.unbind name
  | .restored name saved => m.restore name saved
  | .wrote line => m.write limits.maxOutputBytes line
  | .drew generator => { m with generator }
  | .saw _ => m

/-- The machine after events, one after the other. -/
def replay (limits : Limits) (m : Machine) (events : List Event) : Machine :=
  events.foldl (after limits) m

@[simp] theorem replay_nil (limits : Limits) (m : Machine) : m.replay limits [] = m := rfl

@[simp] theorem replay_cons (limits : Limits) (m : Machine) (event : Event) (events : List Event) :
    m.replay limits (event :: events) = (m.after limits event).replay limits events := rfl

@[simp] theorem replay_append (limits : Limits) (m : Machine) (first rest : List Event) :
    m.replay limits (first ++ rest) = (m.replay limits first).replay limits rest :=
  List.foldl_append ..

/-- No event sets the counter back. -/
theorem steps_le_replay (limits : Limits) (m : Machine) (events : List Event) :
    m.steps ≤ (m.replay limits events).steps := by
  induction events generalizing m with
  | nil => exact Nat.le_refl _
  | cons event rest ih =>
      refine Nat.le_trans ?_ (ih (m.after limits event))
      cases event with
      | stepped => exact Nat.le_succ _
      | overran => exact Nat.le_succ _
      | wrote line => exact Nat.le_of_eq (steps_write ..).symm
      | restored name saved => exact Nat.le_of_eq (steps_restore ..).symm
      | _ => exact Nat.le_refl _

/-- Giving back bindings changes nothing but bindings. -/
theorem replay_restored {limits : Limits} {events : List Event}
    (h : ∀ event ∈ events, ∃ name saved, event = .restored name saved) (m : Machine) :
    m.replay limits events = { m with bindings := (m.replay limits events).bindings } := by
  induction events generalizing m with
  | nil => rfl
  | cons event rest ih =>
      obtain ⟨name, saved, rfl⟩ := h event List.mem_cons_self
      have hrest := ih fun e he => h e (List.mem_cons_of_mem _ he)
      rw [replay_cons, hrest]
      cases saved <;> rfl

end Machine

/-- The results that a doing can come to, each with the events on the way to it. -/
def Course (α : Type) := Limits → Machine → Except Stop α → List Event → Prop

namespace Course

/-- A doing that comes to one result, by events that the machine alone decides. -/
def single (outcome : Limits → Machine → Except Stop α × List Event) : Course α :=
  fun limits m result events => (result, events) = outcome limits m

/-- One thing after another. What follows a failure is left out. -/
inductive Sequence (x : Course α) (f : α → Course β) (limits : Limits) (m : Machine) :
    Except Stop β → List Event → Prop where
  | stops {e : Stop} {events : List Event} :
      x limits m (.error e) events → Sequence x f limits m (.error e) events
  | goesOn {a : α} {first rest : List Event} {result : Except Stop β} :
      x limits m (.ok a) first → f a limits (m.replay limits first) result rest →
      Sequence x f limits m result (first ++ rest)

/-- Something that begins without a binding of a name and ends with the binding that the name had. -/
inductive Shadowed (name : String) (x : Course α) (limits : Limits) (m : Machine) :
    Except Stop α → List Event → Prop where
  | mk {result : Except Stop α} {events : List Event} :
      x limits (m.unbind name) result events →
      Shadowed name x limits m result (.hid name :: events ++ [.restored name (m.get? name)])

/-- Laps of a loop, until one is the last or fails. There is a course only if the laps come to an
end. -/
inductive Laps (lap : Course Bool) (limits : Limits) : Machine → Except Stop Unit → List Event → Prop
    where
  | stops {m : Machine} {e : Stop} {events : List Event} :
      lap limits m (.error e) events → Laps lap limits m (.error e) events
  | ends {m : Machine} {events : List Event} :
      lap limits m (.ok false) events → Laps lap limits m (.ok ()) events
  | again {m : Machine} {first rest : List Event} {result : Except Stop Unit} :
      lap limits m (.ok true) first → Laps lap limits (m.replay limits first) result rest →
      Laps lap limits m result (first ++ rest)

instance : Monad Course where
  pure a := single fun _ _ => (.ok a, [])
  bind := Sequence

/-- Takes a step. The first step over the limit ends the run. -/
def tick : Course Unit := single fun limits m =>
  if limits.maxSteps < m.steps + 1 then (.error (.stepLimit limits.maxSteps), [.overran])
  else (.ok (), [.stepped])

/-- Draws with the generator, if it can. -/
def draw (x : Generator → Outcome (α × Generator)) : Course α := single fun _ m =>
  match x m.generator with
  | .ok (a, generator) => (.ok a, [.drew generator])
  | .error cause => (.error (.fault m.line cause), [])

end Course

/-- The host that tells what happens. -/
instance : Host Course where
  fail cause := .single fun _ m => (.error (.fault m.line cause), [])
  tick := .tick
  enterLine line := .single fun _ _ => (.ok (), [.began line])
  lookUp name := .single fun _ m => (.ok (m.get? name), [])
  bindName name v := .single fun _ _ => (.ok (), [.bound name v])
  shadow := .Shadowed
  writeLine line := .single fun _ _ => (.ok (), [.wrote line])
  draw := .draw
  rounds round := .Laps (.tick >>= fun _ => round)
  report r := .single fun _ _ => (.ok (), [.saw r])

namespace Course

theorem single_iff {α : Type} {outcome : Limits → Machine → Except Stop α × List Event}
    {limits : Limits} {m : Machine} {result : Except Stop α} {events : List Event} :
    single outcome limits m result events ↔ (result, events) = outcome limits m := Iff.rfl

/-- What follows a failure is left out, and what follows a value begins where its events lead. -/
theorem bind_iff {α β : Type} {x : Course α} {f : α → Course β} {limits : Limits}
    {m : Machine} {result : Except Stop β} {events : List Event} :
    (x >>= f) limits m result events ↔
      (∃ e, x limits m (.error e) events ∧ result = .error e) ∨
      ∃ a first rest, x limits m (.ok a) first ∧ f a limits (m.replay limits first) result rest ∧
        events = first ++ rest := by
  constructor
  · intro h
    cases h with
    | stops hx => exact Or.inl ⟨_, hx, rfl⟩
    | goesOn hx hf => exact Or.inr ⟨_, _, _, hx, hf, rfl⟩
  · rintro (⟨e, hx, rfl⟩ | ⟨a, first, rest, hx, hf, rfl⟩)
    · exact .stops hx
    · exact .goesOn hx hf

/-- Laps are a lap, and laps again if it was not the last. -/
theorem laps_eq (lap : Course Bool) :
    Laps lap = lap >>= fun more => if more then Laps lap else pure () := by
  funext limits m result events
  apply propext
  rw [bind_iff]
  constructor
  · intro h
    cases h with
    | stops hlap => exact Or.inl ⟨_, hlap, rfl⟩
    | ends hlap => exact Or.inr ⟨false, events, [], hlap, rfl, (List.append_nil _).symm⟩
    | again hlap hrest => exact Or.inr ⟨true, _, _, hlap, hrest, rfl⟩
  · rintro (⟨e, hlap, rfl⟩ | ⟨more, first, rest, hlap, hrest, rfl⟩)
    · exact .stops hlap
    · cases more with
      | true => exact .again hlap hrest
      | false =>
          obtain ⟨rfl, rfl⟩ := Prod.mk.inj hrest
          rw [List.append_nil]
          exact .ends hlap

end Course
end PromptWeave.Script
