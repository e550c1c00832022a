import PromptWeave.Proofs.Script.CheckedCalls
import PromptWeave.Proofs.Script.Termination

/-!
# Doings that keep within the limits

The values that nothing measures are those of some calls and of list displays, and lists in which an
item was replaced. A doing keeps within the limits if, as long as those values are within them, so is
all else that it makes or binds. Every operation of a host does, and it is enough to say so of a first
thing and of what follows it.
-/
namespace PromptWeave.Script

open PromptWeave.Script.Value

/-! ### What is checked -/

/-- The expressions whose values nothing measures. -/
def Expr.isUnchecked : Expr → Bool
  | .list _ => true
  | .call (.attribute _ name) _ => isUncheckedMember name
  | .call (.var name) _ => isUncheckedBuiltin name
  | _ => false

/-- The value that is reported. -/
def Report.value : Report → Value
  | .gave _ v => v
  | .changed container => container

/-- Whether nothing has measured the value that is reported. -/
def Report.isUnchecked : Report → Bool
  | .gave e _ => e.isUnchecked
  | .changed _ => true

/-- Whether what an event binds is within the limits. -/
def Event.BindsWithin : Event → Prop
  | .bound _ v => v.Within
  | .restored _ saved => ∀ v, saved = some v → v.Within
  | _ => True

/-- Whether all values of an event are within the limits, what it binds and what it reports. -/
def Event.Within : Event → Prop
  | .saw r => r.value.Within
  | event => event.BindsWithin

theorem Event.Within.binds {event : Event} (h : event.Within) : event.BindsWithin := by
  cases event with
  | saw r => trivial
  | _ => exact h

/-- Whether the values of an event that nothing has measured are within the limits. -/
def Event.UncheckedWithin : Event → Prop
  | .saw r => r.isUnchecked = true → r.value.Within
  | _ => True

/-- Whether all that is bound is within the limits. -/
def Machine.Within (m : Machine) : Prop := ∀ name v, m.get? name = some v → v.Within

namespace Machine

variable {P : Value → Prop} {m : Machine} (hm : ∀ name v, m.get? name = some v → P v)
include hm

theorem forall_bound_bind {v : Value} (name : String) (hv : P v) :
    ∀ other w, (m.bind name v).get? other = some w → P w := by
  intro other w hw
  simp only [get?, Machine.bind, Dictionary.get?_insert] at hw
  split at hw
  · cases hw
    exact hv
  · exact hm other w hw

theorem forall_bound_unbind (name : String) :
    ∀ other w, (m.unbind name).get? other = some w → P w := by
  intro other w hw
  simp only [get?, Machine.unbind, Dictionary.get?_erase] at hw
  split at hw
  · cases hw
  · exact hm other w hw

theorem forall_bound_restore (name : String) {saved : Option Value}
    (hsaved : ∀ v, saved = some v → P v) :
    ∀ other w, (m.restore name saved).get? other = some w → P w := by
  cases saved with
  | none => exact forall_bound_unbind hm name
  | some v => exact forall_bound_bind hm name (hsaved v rfl)

theorem forall_bound_write (maxOutputBytes : Nat) (line : String) :
    ∀ name v, (m.write maxOutputBytes line).get? name = some v → P v := by
  intro name v hv
  refine hm name v ?_
  simp only [write] at hv
  split at hv
  · exact hv
  · split at hv <;> exact hv

end Machine

namespace Machine.Within

variable {m : Machine} (hm : m.Within)
include hm

theorem after {event : Event} (limits : Limits) (h : event.BindsWithin) :
    (m.after limits event).Within := by
  cases event with
  | bound name v => exact forall_bound_bind hm name h
  | hid name => exact forall_bound_unbind hm name
  | restored name saved => exact forall_bound_restore hm name h
  | wrote line => exact forall_bound_write hm limits.maxOutputBytes line
  | _ => exact hm

theorem replay {events : List Event} (limits : Limits) (h : ∀ event ∈ events, event.BindsWithin) :
    (m.replay limits events).Within := by
  induction events generalizing m with
  | nil => exact hm
  | cons event rest ih =>
      exact ih (hm.after limits (h event List.mem_cons_self)) fun e he =>
        h e (List.mem_cons_of_mem _ he)

end Machine.Within

/-! ### Doings that keep within the limits -/

/-- Whether a doing keeps within the limits, as far as what nothing measures does: all values of its
events are within them, and what it gives has a property. -/
def Keeps {α : Type} (P : α → Prop) (x : Course α) : Prop :=
  ∀ limits m result events, m.Within → x limits m result events →
    (∀ event ∈ events, event.UncheckedWithin) →
      (∀ event ∈ events, event.Within) ∧ ∀ a, result = .ok a → P a

namespace Keeps

variable {α β : Type}

theorem pure {P : α → Prop} {a : α} (h : P a) : Keeps P (pure a : Course α) := by
  rintro limits m result events _ ⟨⟩ _
  refine ⟨fun _ hevent => absurd hevent List.not_mem_nil, fun b hb => ?_⟩
  cases hb
  exact h

theorem imp {P Q : α → Prop} {x : Course α} (hx : Keeps P x) (h : ∀ a, P a → Q a) : Keeps Q x :=
  fun limits m result events hm hrun hunchecked =>
    have hkeeps := hx limits m result events hm hrun hunchecked
    ⟨hkeeps.1, fun a ha => h a (hkeeps.2 a ha)⟩

theorem bind {P : α → Prop} {Q : β → Prop} {x : Course α} {f : α → Course β} (hx : Keeps P x)
    (hf : ∀ a, P a → Keeps Q (f a)) : Keeps Q (x >>= f) := by
  intro limits m result events hm hrun hunchecked
  rcases Course.bind_iff.1 hrun with ⟨e, hstop, rfl⟩ | ⟨a, first, rest, hfirst, hrest, rfl⟩
  · refine ⟨(hx limits m _ events hm hstop hunchecked).1, fun b hb => ?_⟩
    cases hb
  · rw [List.forall_mem_append] at hunchecked
    have hkeeps := hx limits m _ first hm hfirst hunchecked.1
    have hm₁ := hm.replay limits fun event hevent => (hkeeps.1 event hevent).binds
    have hgoesOn := hf a (hkeeps.2 a rfl) limits _ result rest hm₁ hrest hunchecked.2
    exact ⟨List.forall_mem_append.2 ⟨hkeeps.1, hgoesOn.1⟩, hgoesOn.2⟩

theorem fail {P : α → Prop} (cause : Fault) : Keeps P (Host.fail cause : Course α) := by
  rintro limits m result events _ ⟨⟩ _
  refine ⟨fun _ hevent => absurd hevent List.not_mem_nil, fun b hb => ?_⟩
  cases hb

/-- A doing that comes to a result by one event keeps within the limits if the event does. -/
theorem one {P : α → Prop} {a : α} {event : Event} (hevent : event.UncheckedWithin → event.Within)
    (h : event.Within → P a) : Keeps P (Course.single fun _ _ => (.ok a, [event])) := by
  rintro limits m result events _ ⟨⟩ hunchecked
  have hwithin := hevent (hunchecked event List.mem_cons_self)
  refine ⟨fun e he => ?_, fun b hb => ?_⟩
  · rw [List.mem_singleton.1 he]
    exact hwithin
  · cases hb
    exact h hwithin

theorem tick : Keeps (fun _ => True) (Host.tick : Course Unit) := by
  intro limits m result events _ hrun _
  refine ⟨fun event hevent => ?_, fun _ _ => trivial⟩
  have hone : event = .overran ∨ event = .stepped := by
    have hevents : (result, events) = if limits.maxSteps < m.steps + 1 then
        (.error (.stepLimit limits.maxSteps), [.overran]) else (.ok (), [.stepped]) := hrun
    split at hevents
    · cases hevents
      exact Or.inl (List.mem_singleton.1 hevent)
    · cases hevents
      exact Or.inr (List.mem_singleton.1 hevent)
  rcases hone with rfl | rfl
  · trivial
  · trivial

theorem lookUp (name : String) :
    Keeps (fun v => ∀ w, v = some w → w.Within) (Host.lookUp name : Course (Option Value)) := by
  rintro limits m result events hm ⟨⟩ _
  refine ⟨fun _ hevent => absurd hevent List.not_mem_nil, fun b hb w hw => ?_⟩
  cases hb
  exact hm name w hw

theorem bindName (name : String) {v : Value} (hv : v.Within) :
    Keeps (fun _ => True) (Host.bindName name v : Course Unit) :=
  .one (fun _ => hv) fun _ => trivial

theorem writeLine (line : String) : Keeps (fun _ => True) (Host.writeLine line : Course Unit) :=
  .one (fun _ => trivial) fun _ => trivial

theorem enterLine (line : Nat) : Keeps (fun _ => True) (Host.enterLine line : Course Unit) :=
  .one (fun _ => trivial) fun _ => trivial

/-- What has been reported is within the limits: it is by itself, or nothing has measured it. -/
theorem report {r : Report} (h : r.isUnchecked = false → r.value.Within) :
    Keeps (fun _ => r.value.Within) (Host.report r : Course Unit) := by
  refine .one (fun hunchecked => ?_) fun hwithin => hwithin
  cases hr : r.isUnchecked with
  | true => exact hunchecked hr
  | false => exact h hr

theorem draw {P : α → Prop} {x : Random.Generator → Outcome (α × Random.Generator)}
    (h : ∀ g, Gives (fun r => P r.1) (x g)) : Keeps P (Host.draw x : Course α) := by
  intro limits m result events _ hrun _
  have hdrawn : Course.draw x limits m result events := hrun
  rw [Course.draw, Course.single_iff] at hdrawn
  cases hdraw : x m.generator with
  | ok r =>
      obtain ⟨a, generator⟩ := r
      rw [hdraw] at hdrawn
      cases hdrawn
      refine ⟨fun event hevent => ?_, fun b hb => ?_⟩
      · rw [List.mem_singleton.1 hevent]
        trivial
      · cases hb
        exact h _ _ hdraw
  | error cause =>
      rw [hdraw] at hdrawn
      cases hdrawn
      refine ⟨fun _ hevent => absurd hevent List.not_mem_nil, fun b hb => ?_⟩
      cases hb

/-- What was put aside was bound, so that it is within the limits when it is given back. -/
theorem shadow {P : α → Prop} {x : Course α} (name : String) (hx : Keeps P x) :
    Keeps P (Host.shadow name x : Course α) := by
  intro limits m result events hm hrun hunchecked
  cases hrun with
  | @mk events hinner =>
      have hrest : ∀ event ∈ events, event.UncheckedWithin := fun event hevent =>
        hunchecked event (List.mem_cons_of_mem _ (List.mem_append_left _ hevent))
      have hkeeps := hx limits _ _ events (Machine.forall_bound_unbind hm name) hinner hrest
      refine ⟨fun event hevent => ?_, hkeeps.2⟩
      rcases List.mem_append.1 hevent with hfirst | hlast
      · rcases List.mem_cons.1 hfirst with rfl | hmiddle
        · trivial
        · exact hkeeps.1 event hmiddle
      · rw [List.mem_singleton.1 hlast]
        exact fun v hv => hm name v hv

theorem rounds {lap : Course Bool} (hlap : Keeps (fun _ => True) lap) :
    Keeps (fun _ => True) (Host.rounds lap : Course Unit) := by
  have hboth : Keeps (fun _ => True) (Host.tick >>= fun _ => lap) := tick.bind fun _ _ => hlap
  intro limits m result events hm hrun hunchecked
  refine ⟨?_, fun _ _ => trivial⟩
  have hlaps : Course.Laps (Host.tick >>= fun _ => lap) limits m result events := hrun
  clear hrun
  induction hlaps with
  | stops h => exact (hboth limits _ _ _ hm h hunchecked).1
  | ends h => exact (hboth limits _ _ _ hm h hunchecked).1
  | again h _ ih =>
      rw [List.forall_mem_append] at hunchecked ⊢
      have hkeeps := (hboth limits _ _ _ hm h hunchecked.1).1
      have hm₁ := hm.replay limits fun event hevent => (hkeeps event hevent).binds
      exact ⟨hkeeps, ih hm₁ hunchecked.2⟩

theorem ofOutcome {P : α → Prop} {x : Outcome α} (h : Gives P x) :
    Keeps P (Host.ofOutcome x : Course α) := by
  cases x with
  | ok a => exact .pure (h a rfl)
  | error cause => exact .fail cause

end Keeps

/-! ### What is given back -/

/-- Whether what a doing gives back is within the limits, if what it binds is. -/
def GivesBackWithin (α : Type) (x : Course α) : Prop :=
  ∀ limits m result events, m.Within → x limits m result events →
    (∀ name v, .bound name v ∈ events → v.Within) → ∀ event ∈ events, event.BindsWithin

theorem givesBackWithin_bind {α β : Type} {x : Course α} {f : α → Course β}
    (hx : GivesBackWithin α x) (hf : ∀ a, GivesBackWithin β (f a)) :
    GivesBackWithin β (x >>= f) := by
  intro limits m result events hm hrun hbound
  rcases Course.bind_iff.1 hrun with ⟨e, hstop, _⟩ | ⟨a, first, rest, hfirst, hrest, rfl⟩
  · exact hx limits m _ events hm hstop hbound
  · have hbefore := hx limits m _ first hm hfirst fun name v hv =>
      hbound name v (List.mem_append_left _ hv)
    have hafter := hf a limits _ result rest (hm.replay limits hbefore) hrest fun name v hv =>
      hbound name v (List.mem_append_right _ hv)
    exact List.forall_mem_append.2 ⟨hbefore, hafter⟩

theorem givesBackWithin_single {α : Type} {outcome : Limits → Machine → Except Stop α × List Event}
    (h : ∀ limits m name saved, .restored name saved ∉ (outcome limits m).2) :
    GivesBackWithin α (Course.single outcome) := by
  intro limits m result events _ hrun hbound event hevent
  have hevents : events = (outcome limits m).2 := congrArg Prod.snd hrun
  cases event with
  | bound name v => exact hbound name v hevent
  | restored name saved => exact absurd (hevents ▸ hevent) (h limits m name saved)
  | _ => trivial

theorem givesBackWithin_shadow {α : Type} {x : Course α} (name : String)
    (hx : GivesBackWithin α x) : GivesBackWithin α (Course.Shadowed name x) := by
  intro limits m result events hm hrun hbound event hevent
  cases hrun with
  | @mk events hinner =>
      rcases List.mem_append.1 hevent with hfirst | hlast
      · rcases List.mem_cons.1 hfirst with rfl | hmiddle
        · trivial
        · refine hx limits _ _ events (Machine.forall_bound_unbind hm name) hinner (fun other v hv => ?_) event hmiddle
          exact hbound other v (List.mem_cons_of_mem _ (List.mem_append_left _ hv))
      · rw [List.mem_singleton.1 hlast]
        exact fun v hv => hm name v hv

theorem givesBackWithin_laps {lap : Course Bool} (hlap : GivesBackWithin Bool lap) :
    GivesBackWithin Unit (Course.Laps lap) := by
  intro limits m result events hm hrun hbound
  induction hrun with
  | stops h => exact hlap limits _ _ _ hm h hbound
  | ends h => exact hlap limits _ _ _ hm h hbound
  | again h _ ih =>
      have hbefore := hlap limits _ _ _ hm h fun name v hv =>
        hbound name v (List.mem_append_left _ hv)
      have hafter := ih (hm.replay limits hbefore) fun name v hv =>
        hbound name v (List.mem_append_right _ hv)
      exact List.forall_mem_append.2 ⟨hbefore, hafter⟩

theorem givesBackWithin_tick : GivesBackWithin Unit Course.tick := by
  refine givesBackWithin_single fun limits m name saved => ?_
  split <;> simp

theorem simulation_givesBackWithin :
    Simulation (M := Course) (N := Course) fun α x _ => GivesBackWithin α x where
  pure a := givesBackWithin_single fun _ _ _ _ => List.not_mem_nil
  bind hx hf := givesBackWithin_bind hx hf
  fail cause := givesBackWithin_single fun _ _ _ _ => List.not_mem_nil
  tick := givesBackWithin_tick
  enterLine line := givesBackWithin_single fun _ _ _ _ => by simp
  lookUp name := givesBackWithin_single fun _ _ _ _ => List.not_mem_nil
  bindName name v := givesBackWithin_single fun _ _ _ _ => by simp
  shadow name hx := givesBackWithin_shadow name hx
  writeLine line := givesBackWithin_single fun _ _ _ _ => by simp
  draw x := givesBackWithin_single fun _ _ _ _ => by split <;> simp
  rounds hlap := givesBackWithin_laps (givesBackWithin_bind givesBackWithin_tick fun _ => hlap)
  report r := givesBackWithin_single fun _ _ _ _ => by simp

/-- The bindings of a run are within the limits at every point exactly if all that it binds is. -/
theorem bindings_within_iff {program : List Stmt} {limits : Limits} {m : Machine}
    {result : Except Stop Unit} {events : List Event} (hm : m.Within)
    (hrun : (perform program : Course Unit) limits m result events) :
    (∀ before after, events = before ++ after → (m.replay limits before).Within) ↔
      ∀ name v, .bound name v ∈ events → v.Within := by
  constructor
  · intro hpoints name v hv
    obtain ⟨before, after, rfl⟩ := List.append_of_mem hv
    have hpoint := hpoints (before ++ [.bound name v]) after (List.append_cons ..)
    rw [Machine.replay_append] at hpoint
    refine hpoint name v ?_
    simp [Machine.after, Machine.get?, Machine.bind, Dictionary.get?_insert]
  · rintro hbound before after rfl
    have hbinds := simulation_givesBackWithin.perform program limits m result _ hm hrun hbound
    exact hm.replay limits fun event hevent => hbinds event (List.mem_append_left _ hevent)

end PromptWeave.Script
