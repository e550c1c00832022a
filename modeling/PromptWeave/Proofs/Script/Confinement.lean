import PromptWeave.Proofs.Script.Congruence

/-!
# What expressions may change

A property of doings that the operations of a host have, as far as they bind allowed names only, is a
property of every expression whose receivers are allowed.
-/
namespace PromptWeave.Script

variable {M : Type → Type} [Host M]

/-- What the operations of a host have to satisfy, so that all expressions do whose receivers are
allowed. Something that shadows a name which is not allowed satisfies it whatever is done there. -/
structure Confined (Allowed : String → Prop) (R : (α : Type) → M α → Prop) : Prop where
  pure {α : Type} (a : α) : R _ (pure a)
  bind {α β : Type} {x : M α} {f : α → M β} : R _ x → (∀ a, R _ (f a)) → R _ (x >>= f)
  fail {α : Type} (cause : Fault) : cause ≠ .badTarget → R α (Host.fail cause)
  tick : R _ Host.tick
  lookUp (name : String) : R _ (Host.lookUp name)
  bindName (name : String) (v : Value) : Allowed name → R _ (Host.bindName name v)
  shadow {α : Type} {x : M α} (name : String) : (Allowed name → R _ x) → R _ (Host.shadow name x)
  writeLine (line : String) : R _ (Host.writeLine line)
  draw {α : Type} (x : Random.Generator → Outcome (α × Random.Generator)) :
    (∀ g, Spares (x g)) → R _ (Host.draw x)
  report (r : Report) : R _ (Host.report r)

namespace Confined

variable {Allowed : String → Prop} {R : (α : Type) → M α → Prop} (h : Confined Allowed R)
include h

/-- A property of doings is a relation to doings on the same host that does not look at them. -/
theorem congruence :
    Congruence (M := M) (N := M) (fun _ => True) Allowed fun α (x : M α) _ => R α x where
  pure := h.pure
  bind := h.bind
  fail := h.fail
  tick := h.tick
  lookUp name _ := h.lookUp name
  bindName name v _ := h.bindName name v
  shadow name _ := h.shadow name
  writeLine := h.writeLine
  draw := h.draw
  report := h.report

theorem ofOutcome {α : Type} {x : Outcome α} (hx : Spares x) : R _ (Host.ofOutcome x) :=
  h.congruence.ofOutcome hx

/-- Every expression whose receivers are allowed binds allowed names only. -/
theorem eval (e : Expr) (hreceivers : Grants Allowed e.receivers) : R _ e.eval :=
  h.congruence.eval e (fun _ _ => trivial) hreceivers

theorem evalAll (es : List Expr) (hreceivers : Grants Allowed (receiversOfAll es)) :
    R _ (Script.evalAll es) :=
  h.congruence.evalAll es (fun _ _ => trivial) hreceivers

/-- A place may be written to if its variable is allowed as well. -/
theorem store (e : Expr) (hplace : e.isPlace = true) (hreceivers : Grants Allowed e.receivers)
    (hroot : ∀ root, e.root? = some root → Allowed root) (v : Value) : R _ (e.store v) :=
  h.congruence.store e hplace (fun _ _ => trivial) hreceivers hroot v

end Confined
end PromptWeave.Script
