import PromptWeave.Proofs.Wildcard.Stepwise

/-!
# Counters and the lines they call for

A counter goes up by one with every line that is taken in order, and by nothing else. So the lines that
a wildcard gives in order go round its lines, from the one that its counter called for at first, and a
wildcard that watches another gives the line that stands where the last one of the other stood.
-/
namespace PromptWeave.Wildcard

open PromptWeave.Prompt (Context)

/-! ### The lines of a table -/

/-- A wildcard in a table has a line. -/
theorem Table.length_pos (table : Table) {name : String} {lines : List String}
    (h : table.get? name = some lines) : 0 < lines.length := by
  have hmem : (name, lines) ∈ table.entries.toList := by
    unfold Table.get? Dictionary.get? at h
    obtain ⟨b, hb, rfl⟩ := Option.map_eq_some_iff.1 h
    have hname : b.1 = name := by simpa using List.find?_some hb
    rw [← hname]
    exact List.mem_of_find?_eq_some hb
  exact List.length_pos_iff.2 (table.hasLine name lines hmem)

/-- What stands at a place in a list is there without falling back on anything. -/
theorem getElem?_eq_some_getD {items : List String} {i : Nat} (hi : i < items.length) :
    items[i]? = some (items.getD i "") := by
  rw [List.getD_eq_getElem?_getD, List.getElem?_eq_getElem hi]
  rfl

/-- A wildcard in a table has a line for every counter. -/
theorem Table.getD_lineIndex (table : Table) {name : String} {lines : List String}
    (h : table.get? name = some lines) (counter : Nat) :
    lines[lineIndex counter lines.length]? = some (lines.getD (lineIndex counter lines.length) "") :=
  getElem?_eq_some_getD (Nat.mod_lt _ (table.length_pos h))

/-! ### What events do to counters -/

/-- Where a counter stands. A wildcard without a counter has not been used in order yet. -/
def counterOf (counters : Dictionary UInt64) (name : String) : UInt64 := (counters.get? name).getD 0

theorem counterOf_insert (counters : Dictionary UInt64) (key name : String) (n : UInt64) :
    counterOf (counters.insert key n) name = if key = name then n else counterOf counters name := by
  unfold counterOf
  rw [Dictionary.get?_insert]
  split <;> rfl

/-- The counters after an event. -/
def Event.tally (counters : Dictionary UInt64) : Event → Dictionary UInt64
  | .advanced name _ => counters.insert name (counterOf counters name + 1)
  | _ => counters

/-- Whether an event takes the line that the counters call for. -/
def Event.Obeys (table : Table) (counters : Dictionary UInt64) : Event → Prop
  | .advanced name line => ∃ lines, table.get? name = some lines ∧
      lines[(counterOf counters name).toNat % lines.length]? = some line
  | .observed watched name line => ∃ lines, table.get? name = some lines ∧
      lines[((counterOf counters watched).toNat - 1) % lines.length]? = some line
  | _ => True

/-- Events that lead from counters to counters, each taking the line that the counters before it call
for. -/
inductive Tallied (table : Table) :
    Dictionary UInt64 → List Event → Dictionary UInt64 → Prop where
  | nil (counters : Dictionary UInt64) : Tallied table counters [] counters
  | cons {counters last : Dictionary UInt64} {event : Event} {rest : List Event} :
      event.Obeys table counters → Tallied table (event.tally counters) rest last →
      Tallied table counters (event :: rest) last

/-- The lines that a wildcard has given in order. -/
def taken (name : String) (events : List Event) : List String :=
  events.filterMap fun
    | .advanced other line => if other = name then some line else none
    | _ => none

theorem taken_advanced (name other line : String) (rest : List Event) :
    taken name (.advanced other line :: rest) =
      if other = name then line :: taken name rest else taken name rest := by
  unfold taken
  rw [List.filterMap_cons]
  by_cases h : other = name <;> simp [h]

/-- An event that is not the taking of a line in order changes no counter. -/
theorem Event.tally_cases (counters : Dictionary UInt64) (event : Event) :
    (∃ name line, event = .advanced name line) ∨
      event.tally counters = counters ∧ ∀ name rest, taken name (event :: rest) = taken name rest := by
  cases event with
  | advanced name line => exact Or.inl ⟨name, line, rfl⟩
  | _ => exact Or.inr ⟨rfl, fun _ _ => rfl⟩

namespace Tallied

variable {table : Table} {counters last : Dictionary UInt64} {events : List Event}

theorem append {middle : Dictionary UInt64} {first rest : List Event}
    (hfirst : Tallied table counters first middle) (hrest : Tallied table middle rest last) :
    Tallied table counters (first ++ rest) last := by
  induction hfirst with
  | nil _ => exact hrest
  | cons hevent _ ih => exact .cons hevent (ih hrest)

theorem one {event : Event} (h : event.Obeys table counters) :
    Tallied table counters [event] (event.tally counters) := .cons h (.nil _)

/-- Before an event stands a part of the events that leads to counters which the event obeys. -/
theorem split {before after : List Event} {event : Event}
    (h : Tallied table counters (before ++ event :: after) last) :
    ∃ middle, Tallied table counters before middle ∧ event.Obeys table middle := by
  induction before generalizing counters with
  | nil =>
      cases h with
      | cons hevent _ => exact ⟨counters, .nil _, hevent⟩
  | cons first rest ih =>
      cases h with
      | cons hfirst hrest =>
          obtain ⟨middle, hmiddle, hevent⟩ := ih hrest
          exact ⟨middle, .cons hfirst hmiddle, hevent⟩

/-- Every line that is taken in order counts, and nothing else does. -/
theorem counterOf_last (h : Tallied table counters events last) (name : String) :
    counterOf last name = counterOf counters name + UInt64.ofNat (taken name events).length := by
  induction h with
  | nil counters => simp [taken]
  | @cons counters last event rest hevent _ ih =>
      rcases event.tally_cases counters with ⟨other, line, rfl⟩ | ⟨htally, htaken⟩
      · rw [ih, taken_advanced, Event.tally, counterOf_insert]
        by_cases hname : other = name
        · rw [if_pos hname, if_pos hname, hname, List.length_cons, UInt64.ofNat_add, UInt64.add_assoc,
            UInt64.add_comm 1]
          rfl
        · rw [if_neg hname, if_neg hname]
      · rw [ih, htally, htaken]

theorem toNat_counterOf_last (h : Tallied table counters events last) {name : String}
    (hroom : (counterOf counters name).toNat + (taken name events).length < words64) :
    (counterOf last name).toNat = (counterOf counters name).toNat + (taken name events).length := by
  have hwords : words64 = UInt64.size := rfl
  have hlength : (taken name events).length < UInt64.size := by omega
  rw [h.counterOf_last name, UInt64.toNat_add, UInt64.toNat_ofNat_of_lt' hlength]
  exact Nat.mod_eq_of_lt hroom

end Tallied

/-! ### Expansions -/

/-- How a later expansion stands to an earlier one: the events since then lead from the counters then
to the counters now. -/
def Grows {σ : Type} (table : Table) (x y : Expansion σ) : Prop :=
  ∃ since, y.events = since.reverse ++ x.events ∧
    Tallied table x.context.counters since y.context.counters

namespace Grows

variable {σ : Type} {table : Table}

/-- Nothing has happened, and the counters stand still. -/
theorem still {x y : Expansion σ} (hevents : y.events = x.events)
    (hcounters : y.context.counters = x.context.counters) : Grows table x y := by
  refine ⟨[], hevents, ?_⟩
  rw [hcounters]
  exact .nil _

/-- One event has happened, and the counters are what it leaves. -/
theorem one {x y : Expansion σ} {event : Event} (hevents : y.events = event :: x.events)
    (hcounters : y.context.counters = event.tally x.context.counters)
    (hobeys : event.Obeys table x.context.counters) : Grows table x y := by
  refine ⟨[event], hevents, ?_⟩
  rw [hcounters]
  exact .one hobeys

theorem trans {x y z : Expansion σ} (hxy : Grows table x y) (hyz : Grows table y z) :
    Grows table x z := by
  obtain ⟨first, hfirst, htallied⟩ := hxy
  obtain ⟨rest, hrest, htallied'⟩ := hyz
  refine ⟨first ++ rest, ?_, htallied.append htallied'⟩
  rw [hrest, hfirst, List.reverse_append, List.append_assoc]

end Grows

/-- Every step of an expansion that takes a line takes the one that the counters call for. -/
theorem stepwise_grows {σ : Type} (e : Expander σ) : Stepwise e (Grows e.table) where
  refl x := .still rfl rfl
  trans hxy hyz := hxy.trans hyz
  choose x chance count index := .one rfl rfl trivial
  draw name x := by
    unfold Expander.draw
    cases e.table.get? name with
    | none => exact .still rfl rfl
    | some lines => exact .one rfl rfl trivial
  advance name x := by
    unfold Expander.advance
    cases hlines : e.table.get? name with
    | none => exact .still rfl rfl
    | some lines => exact .one rfl rfl ⟨lines, hlines, e.table.getD_lineIndex hlines _⟩
  observe watched name x := by
    unfold Expander.observe
    cases hlines : e.table.get? name with
    | none => exact .still rfl rfl
    | some lines => exact .one rfl rfl ⟨lines, hlines, e.table.getD_lineIndex hlines _⟩
  cap tag x := .one rfl rfl trivial
  defer line x := .still rfl rfl
  takeBack hxy := hxy.trans (.still rfl rfl)

end PromptWeave.Wildcard
