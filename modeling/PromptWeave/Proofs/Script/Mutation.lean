import Mathlib
import PromptWeave.Proofs.Script.Inversion
import PromptWeave.Script.Parser

/-!
# Changing a list that the arguments change

A call of a changing method reads its list before its arguments are evaluated and writes the list back
after that. What the arguments do to the list in between is overwritten. Arguments in which no changing
method is called on the list leave it alone, and for these it makes no difference.
-/
namespace PromptWeave.Script

open PromptWeave.Script.Action

/-! ### Variables that are left alone -/

namespace Machine

theorem get?_bind (m : Machine) (name : String) (v : Value) (other : String) :
    (m.bind name v).get? other = if name = other then some v else m.get? other :=
  m.bindings.get?_insert name v other

theorem get?_unbind (m : Machine) (name other : String) :
    (m.unbind name).get? other = if name = other then none else m.get? other :=
  m.bindings.get?_erase name other

theorem get?_restore (m : Machine) (name : String) (saved : Option Value) (other : String) :
    (m.restore name saved).get? other = if name = other then saved else m.get? other := by
  cases saved with
  | some v => exact m.get?_bind name v other
  | none => exact m.get?_unbind name other

end Machine

/-- Whether an action leaves a variable alone, also when it fails. -/
def Leaves (name : String) {α : Type} (x : Action α) : Prop :=
  ∀ limits m, (x limits m).2.get? name = m.get? name

section

variable {α β : Type} {name : String} {x : Action α}

theorem leaves_bind {f : α → Action β} (hx : Leaves name x) (hf : ∀ a, Leaves name (f a)) :
    Leaves name (x >>= f) := by
  intro limits m
  have hfirst := hx limits m
  rw [bind_apply]
  rcases hrun : x limits m with ⟨_ | a, mid⟩
  · rwa [hrun] at hfirst
  · rw [hrun] at hfirst
    exact (hf a limits mid).trans hfirst

theorem leaves_tick : Leaves name tick := by
  intro limits m
  unfold tick
  dsimp only
  split <;> rfl

theorem leaves_writeLine (line : String) : Leaves name (writeLine line) := by
  intro limits m
  unfold writeLine Machine.write
  dsimp only
  split
  · rfl
  · split <;> rfl

theorem leaves_draw (x : Random.Generator → Outcome (α × Random.Generator)) :
    Leaves name (draw x) := by
  intro limits m
  unfold draw
  split <;> rfl

/-- A name is given back the binding that it had, and other names are left alone if they are inside. -/
theorem leaves_shadow {other : String} (h : other ≠ name → Leaves name x) :
    Leaves name (shadow other x) := by
  intro limits m
  change ((x limits (m.unbind other)).2.restore other (m.get? other)).get? name = m.get? name
  rw [Machine.get?_restore]
  split
  · rename_i hsame
    rw [hsame]
  · rename_i hother
    rw [h hother, Machine.get?_unbind, if_neg hother]

end

/-- The operations of the machine leave a variable alone that they do not bind. -/
theorem confined_leaves (name : String) :
    Confined (M := Action) (· ≠ name) fun _ x => Leaves name x where
  pure _ _ _ := rfl
  bind := leaves_bind
  fail _ _ _ _ := rfl
  tick := leaves_tick
  lookUp _ _ _ := rfl
  bindName other v hother limits m := by
    change (m.bind other v).get? name = m.get? name
    rw [Machine.get?_bind, if_neg hother]
  shadow _ := leaves_shadow
  writeLine := leaves_writeLine
  draw x _ := leaves_draw x
  report _ _ _ := rfl

/-- Expressions leave a variable alone on which they call no changing method. -/
theorem leaves_evalAll {name : String} {es : List Expr} (h : name ∉ receiversOfAll es) :
    Leaves name (evalAll es) :=
  (confined_leaves name).evalAll es fun _ hother hsame => h (hsame ▸ hother)

/-! ### Calls of changing methods on variables -/

variable {x name : String} {method : Mutator} {args : List Expr} {limits : Limits} {m m' : Machine}
  {v : Value}

/-- A call of a changing method on a variable reads it before the arguments and binds it after them. -/
theorem succeeds_mutation_var (hmethod : Mutator.ofName? name = some method) :
    Succeeds limits m (Expr.call (.attribute (.var x) name) args).eval v m' ↔
      m.stepped.steps < limits.maxSteps ∧ ∃ items values mid changed,
        m.get? x = some (.list items) ∧
        Succeeds limits m.stepped.stepped (evalAll args) values mid ∧
        method.apply items values = .ok (v, changed) ∧ m' = mid.bind x (.list changed) := by
  simp only [succeeds_mutation hmethod, succeeds_var, Expr.isPlace, if_true, succeeds_store_var,
    Machine.get?_stepped]
  constructor
  · rintro ⟨-, items, _, values, mid, changed, ⟨hsteps, hlist, rfl⟩, hargs, happly, rfl⟩
    exact ⟨hsteps, items, values, mid, changed, hlist, hargs, happly, rfl⟩
  · rintro ⟨hsteps, items, values, mid, changed, hlist, hargs, happly, rfl⟩
    exact ⟨Nat.lt_of_succ_lt hsteps, items, _, values, mid, changed, ⟨hsteps, hlist, rfl⟩, hargs,
      happly, rfl⟩

/-- The call that takes the first item off a list. -/
def popFirst (x : String) : Expr := .call (.attribute (.var x) "pop") [.int 0]

/-- The call that is meant to move the first item of a list to its end. -/
def rotation (x : String) : Expr := .call (.attribute (.var x) "append") [popFirst x]

/-- A machine with a list of three letters. -/
def lettered : Machine :=
  (Machine.start (.ofSeed 0)).bind "xs" (.list [.str "a", .str "b", .str "c"])

theorem succeeds_rotation : ∃ m', Succeeds ⟨100, 100⟩ lettered (rotation "xs").eval .absent m' :=
  ⟨_, succeeds_of_fst _ (by cbv)⟩

/-- What the arguments of a changing method do to its list is lost. If the call succeeds, the variable
is bound to what the method makes of the list from before the arguments, whatever they have bound it to.
It is what the method makes of the list after the arguments if they call no changing method on it. -/
theorem mutating_call_loses_changes_of_arguments (hmethod : Mutator.ofName? name = some method)
    (hcall : Succeeds limits m (Expr.call (.attribute (.var x) name) args).eval v m') :
    ∃ items values mid changed, m.get? x = some (.list items) ∧
      Succeeds limits m.stepped.stepped (evalAll args) values mid ∧
      method.apply items values = .ok (v, changed) ∧ m' = mid.bind x (.list changed) ∧
      (x ∉ receiversOfAll args → mid.get? x = some (.list items)) := by
  obtain ⟨-, items, values, mid, changed, hlist, hargs, happly, rfl⟩ :=
    (succeeds_mutation_var hmethod).1 hcall
  refine ⟨items, values, mid, changed, hlist, hargs, happly, rfl, fun hx => ?_⟩
  have hleft := leaves_evalAll hx limits m.stepped.stepped
  rw [hargs] at hleft
  exact hleft.trans hlist

theorem mutating_call_loses_changes_of_arguments_rotation :
    Mutator.ofName? "append" = some .append ∧ ∃ m' items values mid changed,
      Succeeds ⟨100, 100⟩ lettered (rotation "xs").eval .absent m' ∧
      lettered.get? "xs" = some (.list items) ∧
      Succeeds ⟨100, 100⟩ lettered.stepped.stepped (evalAll [popFirst "xs"]) values mid ∧
      Mutator.append.apply items values = .ok (.absent, changed) ∧
      m' = mid.bind "xs" (.list changed) := by
  obtain ⟨m', hcall⟩ := succeeds_rotation
  obtain ⟨items, values, mid, changed, hlist, hargs, happly, hbound, -⟩ :=
    mutating_call_loses_changes_of_arguments rfl hcall
  exact ⟨rfl, m', items, values, mid, changed, hcall, hlist, hargs, happly, hbound⟩

theorem append_one {items changed : List Value} {item result : Value}
    (h : Mutator.append.apply items [item] = .ok (result, changed)) : changed = items ++ [item] := by
  simp only [Mutator.apply, oneArgument, PromptWeave.bind_eq_ok] at h
  obtain ⟨_, hitem, _, -, _, -, hchanged⟩ := h
  cases hitem
  cases hchanged
  rfl

theorem pop_first {items changed : List Value} {item : Value}
    (h : Mutator.pop.apply items [.int 0] = .ok (item, changed)) :
    ∃ first rest, items = first :: rest ∧ item = first := by
  cases items with
  | nil => cases h
  | cons first rest =>
      cases h
      exact ⟨first, rest, rfl, rfl⟩

/-- The first item is not moved to the end but is there twice afterwards, whatever the list. -/
theorem rotation_duplicates (h : Succeeds limits m (rotation x).eval v m') :
    ∃ first rest, m.get? x = some (.list (first :: rest)) ∧
      m'.get? x = some (.list (first :: rest ++ [first])) := by
  obtain ⟨-, items, values, mid, changed, hlist, hargs, happend, rfl⟩ :=
    (succeeds_mutation_var rfl).1 h
  simp only [succeeds_evalAll_cons, succeeds_evalAll_nil] at hargs
  obtain ⟨popped, _, _, hpop, ⟨rfl, rfl⟩, rfl⟩ := hargs
  obtain ⟨-, before, indexes, _, rest, hbefore, hindex, hpopped, rfl⟩ :=
    (succeeds_mutation_var rfl).1 hpop
  obtain rfl : before = items := by simpa [hlist] using hbefore.symm
  simp only [succeeds_evalAll_cons, succeeds_evalAll_nil, succeeds_int] at hindex
  obtain ⟨_, _, _, ⟨-, rfl, rfl⟩, ⟨rfl, -⟩, rfl⟩ := hindex
  obtain ⟨first, others, rfl, rfl⟩ := pop_first hpopped
  refine ⟨_, others, hlist, ?_⟩
  rw [Machine.get?_bind, if_pos rfl, append_one happend]

/-- The letter that is popped is to be moved behind the letters that are left, but they are three. -/
theorem rotation_duplicates_letter :
    parse "xs = ['a', 'b', 'c']\nxs.append(xs.pop(0))" =
        .ok [.mk 1 (.assign (.var "xs") (.list [.str "a", .str "b", .str "c"])),
          .mk 2 (.eval (rotation "xs"))] ∧
      ∃ mid m' result changed,
        Succeeds ⟨100, 100⟩ lettered.stepped.stepped (evalAll [popFirst "xs"]) [.str "a"] mid ∧
        mid.get? "xs" = some (.list [.str "b", .str "c"]) ∧
        Mutator.append.apply [.str "b", .str "c"] [.str "a"] = .ok (result, changed) ∧
        Succeeds ⟨100, 100⟩ lettered (rotation "xs").eval result m' ∧
        m'.get? "xs" ≠ some (.list changed) := by
  have hargs : Succeeds ⟨100, 100⟩ lettered.stepped.stepped (evalAll [popFirst "xs"]) [.str "a"] _ :=
    succeeds_of_fst _ (by cbv)
  obtain ⟨m', hcall⟩ := succeeds_rotation
  obtain ⟨first, rest, hbefore, hafter⟩ := rotation_duplicates hcall
  obtain ⟨rfl, rfl⟩ : .str "a" = first ∧ [.str "b", .str "c"] = rest := by
    simpa [lettered, Machine.get?_bind] using hbefore
  refine ⟨by cbv, _, _, .absent, [.str "b", .str "c", .str "a"], hargs, by cbv, by cbv, hcall, ?_⟩
  rw [hafter]
  simp

end PromptWeave.Script
