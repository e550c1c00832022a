import Mathlib.Data.List.DropRight
import PromptWeave.Prompt.Hooks
import PromptWeave.Proofs.StableOrder

/-!
# The order of hooks

Each hook is put behind those with no greater priority that are there when it is registered. However
hooks for many points and pipelines follow one another, those for one point are then as a single sort of
all of them would leave them. Main statement: `hooks_queue_by_priority`.
-/
namespace PromptWeave.Prompt

namespace Registry

/-- What is done to a registry. Hooks may be registered without a priority. -/
inductive Change where
  | register (pipeline : String) (point : HookPoint) (priority : Option Int) (handler : Handler)
  | clear

/-- The hook that a change registers. -/
def Change.hook? : Change → Option Hook
  | register pipeline point priority handler =>
      some ⟨pipeline, point, priority.getD defaultPriority, handler⟩
  | clear => none

/-- A registry after a change. -/
def after (r : Registry) : Change → Registry
  | .register pipeline point priority handler =>
      r.register ⟨pipeline, point, priority.getD defaultPriority, handler⟩
  | .clear => r.clear

/-- The hooks that changes have registered since the last of them that forgets all hooks, in the order in
which they were registered. -/
def registeredBy (changes : List Change) : List Hook :=
  (changes.rtakeWhile fun change => change.hook?.isSome).filterMap Change.hook?

theorem registeredBy_concat (changes : List Change) (change : Change) :
    registeredBy (changes ++ [change]) =
      match change.hook? with
      | some h => registeredBy changes ++ [h]
      | none => [] := by
  cases hhook : change.hook? <;> simp [registeredBy, hhook]

/-! ### One hook more -/

theorem place_perm (h : Hook) (hooks : List Hook) : (place h hooks).Perm (h :: hooks) := by
  induction hooks with
  | nil => exact .refl _
  | cons first rest ih =>
      rw [place]
      split
      · exact (ih.cons first).trans (.swap h first rest)
      · exact .refl _

theorem mem_place_iff {h other : Hook} {hooks : List Hook} :
    other ∈ place h hooks ↔ other = h ∨ other ∈ hooks := by
  rw [(place_perm h hooks).mem_iff, List.mem_cons]

theorem ascending_place (h : Hook) {hooks : List Hook}
    (hooks_asc : hooks.Pairwise fun a b => a.priority ≤ b.priority) :
    (place h hooks).Pairwise fun a b => a.priority ≤ b.priority := by
  induction hooks with
  | nil => simp [place]
  | cons first rest ih =>
      obtain ⟨hfirst, hrest⟩ := List.pairwise_cons.1 hooks_asc
      rw [place]
      split
      case isTrue hle =>
        refine List.pairwise_cons.2 ⟨fun other hother => ?_, ih hrest⟩
        rcases mem_place_iff.1 hother with rfl | hmem
        · exact hle
        · exact hfirst other hmem
      case isFalse hlt =>
        refine List.pairwise_cons.2 ⟨fun other hother => ?_, hooks_asc⟩
        rcases List.mem_cons.1 hother with rfl | hmem
        · omega
        · have hle := hfirst other hmem
          omega

/-- A hook that is not of a class leaves the hooks of the class as they are. -/
theorem filter_place_of_false {p : Hook → Bool} {h : Hook} (hp : p h = false) (hooks : List Hook) :
    (place h hooks).filter p = hooks.filter p := by
  induction hooks with
  | nil => simp [place, hp]
  | cons first rest ih =>
      rw [place]
      split
      · rw [List.filter_cons, List.filter_cons, ih]
      · rw [List.filter_cons_of_neg (by simp [hp])]

/-- A hook comes behind all hooks of its priority. -/
theorem filter_priority_place (h : Hook) {hooks : List Hook}
    (hooks_asc : hooks.Pairwise fun a b => a.priority ≤ b.priority) :
    (place h hooks).filter (fun a => a.priority = h.priority) =
      hooks.filter (fun a => a.priority = h.priority) ++ [h] := by
  induction hooks with
  | nil => simp [place]
  | cons first rest ih =>
      obtain ⟨hfirst, hrest⟩ := List.pairwise_cons.1 hooks_asc
      rw [place]
      split
      case isTrue hle => by_cases hp : first.priority = h.priority <;> simp [hp, ih hrest]
      case isFalse hlt =>
        -- The hook is put in front of hooks whose priorities are all greater.
        have hnone : (first :: rest).filter (fun a => a.priority = h.priority) = [] := by
          refine List.filter_eq_nil_iff.2 fun other hother => ?_
          rcases List.mem_cons.1 hother with rfl | hmem
          · simp; omega
          · have hle := hfirst other hmem
            simp; omega
        rw [List.filter_cons_of_pos (by simp), hnone]
        rfl

/-- A hook is put where it would come if it were given last. -/
theorem ordered_place {given hooks : List Hook} (hordered : Ordered Hook.priority given hooks)
    (h : Hook) : Ordered Hook.priority (given ++ [h]) (place h hooks) where
  ascending := ascending_place h hordered.ascending
  stable k := by
    by_cases hk : h.priority = k
    · subst hk
      rw [filter_priority_place h hordered.ascending, hordered.stable, List.filter_append]
      simp
    · rw [filter_place_of_false (by simpa using hk), hordered.stable, List.filter_append]
      simp [hk]

/-! ### Many hooks -/

/-- Whatever is done to a registry, its hooks are those registered since it was cleared, in the order of
their priorities. -/
theorem ordered_changes (changes : List Change) :
    Ordered Hook.priority (registeredBy changes) (changes.foldl after empty).hooks := by
  induction changes using List.reverseRecOn with
  | nil => exact ⟨.nil, fun k => rfl⟩
  | append_singleton changes change ih =>
      rw [List.foldl_append, List.foldl_cons, List.foldl_nil, registeredBy_concat]
      cases change with
      | register pipeline point priority handler => exact ordered_place ih _
      | clear => exact ⟨.nil, fun k => rfl⟩

end Registry

/-- Whatever is done to a registry, the hooks for a point of a pipeline are those that were registered for
it since all hooks were last forgotten, each as often as it was registered. They ascend by priority, which
is 1000 if none was given, and those of one priority keep the order in which they were registered, so that
they are what one stable sort makes of all of them. Registering a hook for another point or another pipeline
leaves them as they are. -/
theorem hooks_queue_by_priority (changes : List Registry.Change) (pipeline : String)
    (point : HookPoint) :
    let r := changes.foldl Registry.after .empty
    let registered := (Registry.registeredBy changes).filter (·.isFor pipeline point)
    let queue := r.hooksFor pipeline point
    queue.Perm registered ∧
    queue.Pairwise (fun a b => a.priority ≤ b.priority) ∧
    (∀ priority, queue.filter (·.priority = priority) = registered.filter (·.priority = priority)) ∧
    queue = registered.mergeSort (fun a b => a.priority ≤ b.priority) ∧
    r.handlers pipeline point = queue.map (·.handler) ∧
    r.count pipeline point = (r.handlers pipeline point).length ∧
    defaultPriority = 1000 ∧
    ∀ other otherPoint priority handler, (other ≠ pipeline ∨ otherPoint ≠ point) →
      (r.after (.register other otherPoint priority handler)).hooksFor pipeline point = queue := by
  intro r registered queue
  have hordered : Ordered Hook.priority registered queue :=
    (Registry.ordered_changes changes).filter _
  refine ⟨hordered.perm, hordered.ascending, hordered.stable,
    hordered.unique (ordered_mergeSort _ _), rfl, by simp [Registry.count, Registry.handlers], rfl, ?_⟩
  intro other otherPoint priority handler hother
  refine Registry.filter_place_of_false ?_ r.hooks
  rcases hother with hne | hne
  · simp [Hook.isFor, hne]
  · simp [Hook.isFor, hne]

end PromptWeave.Prompt
