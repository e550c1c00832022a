import PromptWeave.Proofs.Script.SideBySide

/-!
# What evaluation depends on

The value of an expression depends on the bindings and on the generator. The steps that have been taken,
the line and the output may decide whether there is a value, but not which one. So an expression that
leaves the bindings and the generator as they are has one value, however often it is evaluated.
-/
namespace PromptWeave.Script

open PromptWeave.Script.Action

/-- Whether two machines have the same bindings and the same generator. -/
structure Machine.Agrees (m n : Machine) : Prop where
  bindings : m.bindings = n.bindings
  generator : m.generator = n.generator

namespace Machine.Agrees

variable {m n o : Machine}

theorem refl (m : Machine) : m.Agrees m := ⟨rfl, rfl⟩

theorem symm (h : m.Agrees n) : n.Agrees m := ⟨h.bindings.symm, h.generator.symm⟩

theorem trans (h : m.Agrees n) (h' : n.Agrees o) : m.Agrees o :=
  ⟨h.bindings.trans h'.bindings, h.generator.trans h'.generator⟩

/-- Steps do not count. -/
theorem stepped (h : m.Agrees n) : m.Agrees n.stepped := ⟨h.bindings, h.generator⟩

theorem get? (h : m.Agrees n) (name : String) : m.get? name = n.get? name :=
  congrArg (·.get? name) h.bindings

theorem bind (h : m.Agrees n) (name : String) (v : Value) : (m.bind name v).Agrees (n.bind name v) :=
  ⟨congrArg (·.insert name v) h.bindings, h.generator⟩

theorem unbind (h : m.Agrees n) (name : String) : (m.unbind name).Agrees (n.unbind name) :=
  ⟨congrArg (·.erase name) h.bindings, h.generator⟩

end Machine.Agrees

theorem Machine.agrees_write (m : Machine) (maxOutputBytes : Nat) (line : String) :
    m.Agrees (m.write maxOutputBytes line) := by
  unfold write
  split
  · exact .refl m
  · dsimp only
    split
    · exact ⟨rfl, rfl⟩
    · exact ⟨rfl, rfl⟩

/-- Whether two machines agree is not changed by doing the same on both, whatever the limits are. -/
theorem linked_agrees (limits limits' : Limits) :
    Linked limits limits' (fun _ => True) Machine.Agrees where
  get? hagrees _ := hagrees.get? _
  generator := Machine.Agrees.generator
  steps hagrees := ⟨hagrees.bindings, hagrees.generator⟩
  bind hagrees _ := hagrees.bind _ _
  unbind hagrees _ := hagrees.unbind _
  write hagrees := ((Machine.agrees_write _ _ _).symm.trans hagrees).trans (Machine.agrees_write _ _ _)
  drawn hagrees := ⟨hagrees.bindings, rfl⟩

/-- What an expression gives on machines that agree is the same, unless one of the evaluations is cut
off. -/
theorem together_eval (limits limits' : Limits) (e : Expr) :
    Together limits limits' Machine.Agrees Value e.eval e.eval :=
  (linked_agrees limits limits').correspondence.eval e fun _ _ => trivial

/-! ### Steady expressions -/

/-- Whether an expression has a value on a machine and leaves the bindings and the generator as they
are. -/
def Steady (limits : Limits) (m : Machine) (e : Expr) (v : Value) : Prop :=
  ∃ m', Succeeds limits m e.eval v m' ∧ m.Agrees m'

/-- A steady expression has the same value on every machine that agrees, if it has one. -/
theorem Steady.agrees {limits : Limits} {m n n' : Machine} {e : Expr} {v w : Value}
    (h : Steady limits m e v) (hagrees : m.Agrees n) (heval : Succeeds limits n e.eval w n') :
    w = v ∧ m.Agrees n' := by
  obtain ⟨m', hsteady, hleft⟩ := h
  have hends := together_eval limits limits e m n hagrees
  rw [hsteady, heval] at hends
  obtain ⟨rfl, hafter⟩ := hends.of_ok
  exact ⟨rfl, hleft.trans hafter⟩

end PromptWeave.Script
