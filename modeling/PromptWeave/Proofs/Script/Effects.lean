import PromptWeave.Proofs.Script.Mutation

/-!
# What an evaluation changes

An evaluation changes the variables that its changing methods are called on and no others, wherever it
stops. The name of a comprehension is none of them: while the items are gone through it is bound to one
after the other, and afterwards it has the binding that it had before the first.
-/
namespace PromptWeave.Script

open PromptWeave.Script.Action

variable {α β : Type} {name : String} {limits : Limits} {m : Machine}

/-- An action does to a variable what its beginning does, if the rest leaves the variable alone. -/
theorem get?_bind_of_leaves (x : Action α) {f : α → Action β} (hf : ∀ a, Leaves name (f a)) :
    ((x >>= f) limits m).2.get? name = (x limits m).2.get? name := by
  rw [bind_apply]
  rcases x limits m with ⟨_ | a, mid⟩
  · rfl
  · exact hf a limits mid

/-- The step that an evaluation begins with changes no variable, whether it is one too many or not. -/
theorem get?_evaluating (e : Expr) (x : Action Value) :
    (evaluating e x limits m).2.get? name =
      if m.steps < limits.maxSteps then (x limits m.stepped).2.get? name else m.get? name := by
  rw [evaluating, host_tick, bind_apply]
  unfold tick
  dsimp only
  split
  · rename_i h
    split at h
    · cases h
    · cases h
      rw [if_pos (by omega)]
      exact get?_bind_of_leaves x fun _ _ _ => rfl
  · rename_i h
    split at h
    · cases h
      rw [if_neg (by omega)]
      rfl
    · cases h

/-- The machine after an evaluation, whether it succeeds or fails. -/
def Expr.after (e : Expr) (limits : Limits) (m : Machine) : Machine :=
  ((e.eval : Action Value) limits m).2

/-- Without a step left, an evaluation changes no variable. -/
theorem Expr.get?_after_of_le (e : Expr) (h : limits.maxSteps ≤ m.steps) :
    (e.after limits m).get? name = m.get? name := by
  rw [Expr.after, Expr.eval.eq_def, get?_evaluating, if_neg (Nat.not_lt.2 h)]

/-- After its source is evaluated, a comprehension changes nothing about its name. -/
theorem get?_comprehension (element source : Expr) (condition : Option Expr) :
    ((Expr.comprehension element name source condition).after limits m).get? name =
      (source.after limits m.stepped).get? name := by
  have h := confined_leaves name
  rw [Expr.after, Expr.eval, get?_evaluating]
  split
  · refine get?_bind_of_leaves _ fun v => h.bind (h.ofOutcome (spares_iterate v)) fun items => ?_
    exact h.bind (h.shadow name fun hsame => (hsame rfl).elim) fun _ => h.pure _
  · rename_i hsteps
    exact (source.get?_after_of_le (m := m.stepped) (Nat.le_succ_of_le (Nat.not_lt.1 hsteps))).symm

/-- An evaluation changes no variable but those that its changing methods are called on, whether it
succeeds or fails and wherever it stops. The name of a comprehension has afterwards the binding that it
had when the source was evaluated, or none if it had none, whatever was done to it for the items. -/
theorem evaluation_changes_receivers_only (limits : Limits) (m : Machine) :
    (∀ (e : Expr) (x : String), x ∉ e.receivers → (e.after limits m).get? x = m.get? x) ∧
    ∀ element name source condition,
      ((Expr.comprehension element name source condition).after limits m).get? name =
        (source.after limits m.stepped).get? name := by
  refine ⟨fun e x hx => ?_, fun _ _ _ _ => get?_comprehension _ _ _⟩
  exact (confined_leaves x).eval e (fun other hother hsame => hx (hsame ▸ hother)) limits m

/-- Lists of lists whose inner items are lists of the outer name as well, and are appended to. -/
def appendingInside : Expr :=
  .comprehension
    (.comprehension (.call (.attribute (.var "x") "append") [.int 1]) "x"
      (.list [.var "x", .int 5]) none)
    "x" (.list [.list [.int 1], .list [.int 2]]) none

/-- The outer name is bound again although the inner comprehension has bound it, an item has appended to
it, and the next item is a number, to which nothing can be appended. -/
theorem evaluation_changes_receivers_only_inside :
    let m := (Machine.start (.ofSeed 0)).bind "x" (.str "kept")
    parse "[[x.append(1) for x in [x, 5]] for x in [[1], [2]]]" = .ok [.mk 1 (.eval appendingInside)] ∧
      ((appendingInside.eval : Action Value) ⟨100, 100⟩ m).1 =
        .error (.fault 0 (.noMethod .int "append")) ∧
      "x" ∉ appendingInside.receivers ∧
      (appendingInside.after ⟨100, 100⟩ m).get? "x" = some (.str "kept") := by
  intro m
  refine ⟨by cbv, by cbv, by decide, ?_⟩
  exact ((evaluation_changes_receivers_only ⟨100, 100⟩ m).1 appendingInside "x" (by decide)).trans
    (by cbv)

end PromptWeave.Script
