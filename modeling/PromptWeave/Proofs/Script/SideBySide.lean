import PromptWeave.Proofs.Script.Budget
import PromptWeave.Proofs.Script.Inversion

/-!
# Runs side by side

Two runs on two machines, under limits of their own, that come to ends that belong together unless one
of them is cut off for want of steps. Runs of one expression do if the machines are linked in a way
that the operations keep, as far as they concern the names that stand in the expression.
-/
namespace PromptWeave.Script

open PromptWeave.Script.Action

/-! ### Runs that arrive somewhere -/

/-- Whether an action succeeds unless it is cut off, with what it gives and the machine that it is left
with. -/
def Arrives {α : Type} (limits : Limits) (m : Machine) (x : Action α) (a : α) (m' : Machine) : Prop :=
  IsCut (x limits m).1 ∨ Succeeds limits m x a m'

section

variable {α β : Type} {limits : Limits} {m m' mid : Machine}

theorem arrives_pure (a : α) : Arrives limits m (pure a) a m := .inr rfl

theorem arrives_tick : Arrives limits m tick () m.stepped := by
  unfold Arrives Succeeds tick
  dsimp only
  split
  · exact .inl (isCut_stepLimit _)
  · exact .inr rfl

theorem arrives_bind {x : Action α} {f : α → Action β} {a : α} {b : β} (hx : Arrives limits m x a mid)
    (hf : Arrives limits mid (f a) b m') : Arrives limits m (x >>= f) b m' := by
  rcases hx with ⟨most, hcut⟩ | hok
  · rw [Arrives, bind_error f (Prod.ext hcut rfl)]
    exact .inl (isCut_stepLimit most)
  · rwa [Arrives, Succeeds, bind_ok f hok]

theorem arrives_evaluating {e : Expr} {x : Action Value} {v : Value}
    (hx : Arrives limits m.stepped x v m') : Arrives limits m (evaluating e x) v m' :=
  arrives_bind arrives_tick <| arrives_bind hx <| arrives_bind (arrives_pure ()) (arrives_pure v)

theorem arrives_var {name : String} {v : Value} (h : m.get? name = some v) :
    Arrives limits m (Expr.var name).eval v m.stepped := by
  rw [Expr.eval]
  exact arrives_evaluating (.inr (succeeds_readVariable.2 ⟨h, rfl⟩))

end

/-! ### Ends that belong together -/

/-- Whether two ends of runs belong together: in one way if both have succeeded, in another if both have
failed, and in any case if one of them was cut off. -/
inductive Abreast {α β : Type} (Good : α → β → Machine → Machine → Prop)
    (Bad : Fault → Fault → Machine → Machine → Prop) :
    Except Stop α × Machine → Except Stop β × Machine → Prop where
  | ok {a b m n} : Good a b m n → Abreast Good Bad (.ok a, m) (.ok b, n)
  | fault {line line' c c' m n} : Bad c c' m n →
      Abreast Good Bad (.error (.fault line c), m) (.error (.fault line' c'), n)
  | cutLeft {most m y} : Abreast Good Bad (.error (.stepLimit most), m) y
  | cutRight {most n x} : Abreast Good Bad x (.error (.stepLimit most), n)

namespace Abreast

variable {α β γ δ : Type} {Good : α → β → Machine → Machine → Prop}
  {Better : γ → δ → Machine → Machine → Prop} {Bad Worse : Fault → Fault → Machine → Machine → Prop}
  {limits limits' : Limits} {m n : Machine}

theorem bind {x : Action α} {y : Action β} {f : α → Action γ} {g : β → Action δ}
    (hxy : Abreast Good Bad (x limits m) (y limits' n))
    (hfg : ∀ a b m n, Good a b m n → Abreast Better Bad (f a limits m) (g b limits' n)) :
    Abreast Better Bad ((x >>= f) limits m) ((y >>= g) limits' n) := by
  rw [bind_apply, bind_apply]
  generalize x limits m = left at hxy
  generalize y limits' n = right at hxy
  cases hxy with
  | ok h => exact hfg _ _ _ _ h
  | fault h => exact .fault h
  | cutLeft => exact .cutLeft
  | cutRight =>
      rcases left with ⟨_ | _, _⟩
      · exact .cutRight
      · exact .cutRight

/-- Runs that have both succeeded. -/
theorem of_ok {a : α} {b : β} (h : Abreast Good Bad (.ok a, m) (.ok b, n)) : Good a b m n := by
  cases h with
  | ok h => exact h

/-- Runs that are not cut off either both succeed or both fail. -/
theorem ends {x : Action α} {y : Action β} (h : Abreast Good Bad (x limits m) (y limits' n))
    (hx : ¬ IsCut (x limits m).1) (hy : ¬ IsCut (y limits' n).1) :
    ((∃ a m', Succeeds limits m x a m') ↔ ∃ b n', Succeeds limits' n y b n') ∧
    (∀ a m' b n', Succeeds limits m x a m' → Succeeds limits' n y b n' → Good a b m' n') ∧
    ∀ line c m' line' c' n', x limits m = (.error (.fault line c), m') →
      y limits' n = (.error (.fault line' c'), n') → Bad c c' m' n' := by
  unfold Succeeds
  generalize x limits m = left at h hx
  generalize y limits' n = right at h hy
  cases h with
  | ok h =>
      refine ⟨⟨fun _ => ⟨_, _, rfl⟩, fun _ => ⟨_, _, rfl⟩⟩, ?_, ?_⟩
      · intro _ _ _ _ hleft hright
        cases hleft
        cases hright
        exact h
      · intro _ _ _ _ _ _ hleft
        cases hleft
  | fault h =>
      refine ⟨⟨?_, ?_⟩, ?_, ?_⟩
      · rintro ⟨_, _, hleft⟩
        cases hleft
      · rintro ⟨_, _, hright⟩
        cases hright
      · intro _ _ _ _ hleft
        cases hleft
      · intro _ _ _ _ _ _ hleft hright
        cases hleft
        cases hright
        exact h
  | cutLeft => exact (hx (isCut_stepLimit _)).elim
  | cutRight => exact (hy (isCut_stepLimit _)).elim

theorem imp {x : Except Stop α × Machine} {y : Except Stop β × Machine}
    {Weaker : α → β → Machine → Machine → Prop} (h : Abreast Good Bad x y)
    (hgood : ∀ a b m n, Good a b m n → Weaker a b m n)
    (hbad : ∀ c c' m n, Bad c c' m n → Worse c c' m n) : Abreast Weaker Worse x y := by
  cases h with
  | ok h => exact .ok (hgood _ _ _ _ h)
  | fault h => exact .fault (hbad _ _ _ _ h)
  | cutLeft => exact .cutLeft
  | cutRight => exact .cutRight

/-- What one of the runs does alone, and what it goes on with from there. -/
theorem arriveLeft {γ : Type} {w : Action γ} {c : γ} {m' : Machine} {f : γ → Action α}
    {y : Except Stop β × Machine} (hw : Arrives limits m w c m')
    (h : Abreast Good Bad (f c limits m') y) : Abreast Good Bad ((w >>= f) limits m) y := by
  rcases hw with ⟨most, hcut⟩ | hok
  · rw [bind_error f (Prod.ext hcut rfl)]
    exact .cutLeft
  · rwa [bind_ok f hok]

theorem arriveRight {γ : Type} {w : Action γ} {c : γ} {n' : Machine} {g : γ → Action β}
    {x : Except Stop α × Machine} (hw : Arrives limits' n w c n')
    (h : Abreast Good Bad x (g c limits' n')) : Abreast Good Bad x ((w >>= g) limits' n) := by
  rcases hw with ⟨most, hcut⟩ | hok
  · rw [bind_error g (Prod.ext hcut rfl)]
    exact .cutRight
  · rwa [bind_ok g hok]

/-- What one of the runs does alone after something that both have done. -/
theorem thenLeft {x : Action α} {y : Except Stop β × Machine} {f : α → Action γ}
    {After : γ → β → Machine → Machine → Prop} (h : Abreast Good Bad (x limits m) y)
    (hf : ∀ a b m n, Good a b m n → Abreast After Bad (f a limits m) (.ok b, n)) :
    Abreast After Bad ((x >>= f) limits m) y := by
  rw [bind_apply]
  generalize x limits m = left at h
  cases h with
  | ok h => exact hf _ _ _ _ h
  | fault h => exact .fault h
  | cutLeft => exact .cutLeft
  | cutRight => exact .cutRight

theorem thenRight {x : Except Stop α × Machine} {y : Action β} {g : β → Action γ}
    {After : α → γ → Machine → Machine → Prop} (h : Abreast Good Bad x (y limits' n))
    (hg : ∀ a b m n, Good a b m n → Abreast After Bad (.ok a, m) (g b limits' n)) :
    Abreast After Bad x ((y >>= g) limits' n) := by
  rw [bind_apply]
  generalize y limits' n = right at h
  cases h with
  | ok h => exact hg _ _ _ _ h
  | fault h => exact .fault h
  | cutLeft => exact .cutLeft
  | cutRight => exact .cutRight

/-- What one of the runs does alone to a name that it shadows. -/
theorem shadowLeft {x : Action α} {y : Except Stop β × Machine} {name : String}
    (h : Abreast Good Bad (x limits (m.unbind name)) y)
    (hgood : ∀ a b m n saved, Good a b m n → Good a b (m.restore name saved) n)
    (hbad : ∀ c c' m n saved, Bad c c' m n → Bad c c' (m.restore name saved) n) :
    Abreast Good Bad (shadow name x limits m) y := by
  unfold shadow
  generalize x limits (m.unbind name) = left at h
  cases h with
  | ok h => exact .ok (hgood _ _ _ _ _ h)
  | fault h => exact .fault (hbad _ _ _ _ _ h)
  | cutLeft => exact .cutLeft
  | cutRight => exact .cutRight

end Abreast

/-! ### Linked machines -/

/-- Whether the operations keep a relation between the machines of two runs, as far as they concern
known names. Machines so related have the same bindings of these names and the same generator. -/
structure Linked (limits limits' : Limits) (Known : String → Prop) (Φ : Machine → Machine → Prop) :
    Prop where
  get? {m n name} : Φ m n → Known name → m.get? name = n.get? name
  generator {m n} : Φ m n → m.generator = n.generator
  steps {m n k k'} : Φ m n → Φ { m with steps := k } { n with steps := k' }
  bind {m n name v} : Φ m n → Known name → Φ (m.bind name v) (n.bind name v)
  unbind {m n name} : Φ m n → Known name → Φ (m.unbind name) (n.unbind name)
  write {m n line} : Φ m n →
    Φ (m.write limits.maxOutputBytes line) (n.write limits'.maxOutputBytes line)
  drawn {m n generator} : Φ m n → Φ { m with generator } { n with generator }

/-- Whether two actions on machines that are related come to ends that belong together: they give the
same or fail with the same cause, and the machines are related again. -/
def Together (limits limits' : Limits) (Φ : Machine → Machine → Prop) (α : Type) (x y : Action α) :
    Prop :=
  ∀ m n, Φ m n → Abreast (fun a b m n => a = b ∧ Φ m n) (fun c c' m n => c = c' ∧ Φ m n)
    (x limits m) (y limits' n)

namespace Linked

variable {α : Type} {limits limits' : Limits} {Known : String → Prop}
  {Φ : Machine → Machine → Prop} (h : Linked limits limits' Known Φ)
include h

theorem restore {m n : Machine} {name : String} (saved : Option Value) (hΦ : Φ m n)
    (hname : Known name) : Φ (m.restore name saved) (n.restore name saved) := by
  cases saved with
  | some v => exact h.bind hΦ hname
  | none => exact h.unbind hΦ hname

theorem together_tick : Together limits limits' Φ Unit tick tick := by
  intro m n hΦ
  unfold tick
  dsimp only
  split
  · exact .cutLeft
  · split
    · exact .cutRight
    · exact .ok ⟨rfl, h.steps hΦ⟩

theorem together_shadow {x y : Action α} {name : String} (hname : Known name)
    (hxy : Together limits limits' Φ α x y) :
    Together limits limits' Φ α (shadow name x) (shadow name y) := by
  intro m n hΦ
  have hinside := hxy _ _ (h.unbind hΦ hname)
  unfold shadow
  rw [h.get? hΦ hname]
  generalize x limits (m.unbind name) = left at hinside
  generalize y limits' (n.unbind name) = right at hinside
  cases hinside with
  | ok hends => exact .ok ⟨hends.1, h.restore _ hends.2 hname⟩
  | fault hends => exact .fault ⟨hends.1, h.restore _ hends.2 hname⟩
  | cutLeft => exact .cutLeft
  | cutRight => exact .cutRight

theorem together_draw (x : Random.Generator → Outcome (α × Random.Generator)) :
    Together limits limits' Φ α (draw x) (draw x) := by
  intro m n hΦ
  unfold draw
  rw [h.generator hΦ]
  rcases x n.generator with cause | ⟨a, generator⟩
  · exact .fault ⟨rfl, hΦ⟩
  · exact .ok ⟨rfl, h.drawn hΦ⟩

/-- Expressions in which known names stand come to ends that belong together on linked machines. -/
theorem correspondence : Correspondence (M := Action) (N := Action) Known
    (Together limits limits' Φ) where
  pure _ _ _ hΦ := .ok ⟨rfl, hΦ⟩
  bind hxy hfg m n hΦ := (hxy m n hΦ).bind fun a _ m n hends => by
    obtain ⟨rfl, hΦ⟩ := hends
    exact hfg a m n hΦ
  fail _ _ _ hΦ := .fault ⟨rfl, hΦ⟩
  tick := h.together_tick
  lookUp _ hname _ _ hΦ := .ok ⟨h.get? hΦ hname, hΦ⟩
  bindName _ _ hname _ _ hΦ := .ok ⟨rfl, h.bind hΦ hname⟩
  shadow _ hname hxy := h.together_shadow hname hxy
  writeLine _ _ _ hΦ := .ok ⟨rfl, h.write hΦ⟩
  draw := h.together_draw
  report _ _ _ hΦ := .ok ⟨rfl, hΦ⟩

end Linked
end PromptWeave.Script
