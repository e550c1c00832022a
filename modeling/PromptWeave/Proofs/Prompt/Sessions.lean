import PromptWeave.Proofs.Prompt.HookOrder
import PromptWeave.Proofs.Wildcard.Cycling
import PromptWeave.Prompt.Processing
import PromptWeave.Prompt.ScriptHook

/-!
# Wildcards over a session

A session goes through one request after the other, and each goes on with the counters of the one
before. No stage of a request but the expansion touches a counter, and scripts do not see them, so the
lines of a wildcard go round over the whole session as if it were one expansion.
-/
namespace PromptWeave.Prompt

open PromptWeave.Wildcard
open PromptWeave.Script (Runner)

/-! ### Stages -/

/-- Whether every hook runs a script. -/
def Registry.OnlyScripts (r : Registry) : Prop :=
  ∀ h ∈ r.hooks, ∃ runner source, h.handler = scriptHandler runner source

theorem Registry.onlyScripts_empty : Registry.empty.OnlyScripts := by
  intro h hmem
  simp [Registry.empty] at hmem

/-- Registering a script leaves only scripts. -/
theorem Registry.OnlyScripts.register {r : Registry} (h : r.OnlyScripts) (pipeline : String)
    (point : HookPoint) (priority : Int) (runner : Runner) (source : String) :
    (r.register ⟨pipeline, point, priority, scriptHandler runner source⟩).OnlyScripts := by
  intro other hother
  rcases Registry.mem_place_iff.1 hother with rfl | hmem
  · exact ⟨runner, source, rfl⟩
  · exact h other hmem

/-- A script does not touch what a session carries on. -/
theorem session_of_scriptHandler {runner : Runner} {source : String} {c after : Context}
    (h : scriptHandler runner source c = .ok after) : after.session = c.session := by
  unfold scriptHandler at h
  split at h
  · cases h
    unfold Context.withScriptOutput
    split <;> rfl
  · cases h

theorem session_runHandlers {handlers : List Handler}
    (h : ∀ handler ∈ handlers, ∃ runner source, handler = scriptHandler runner source) (c : Context) :
    (Registry.runHandlers handlers c).session = c.session := by
  induction handlers generalizing c with
  | nil => rfl
  | cons handler rest ih =>
      obtain ⟨runner, source, rfl⟩ := h handler List.mem_cons_self
      have hrest := ih (fun other hother => h other (List.mem_cons_of_mem _ hother))
        ((scriptHandler runner source c).toOption.getD c)
      refine Eq.trans hrest ?_
      cases hrun : scriptHandler runner source c with
      | error e => rfl
      | ok after => exact session_of_scriptHandler hrun

theorem Registry.OnlyScripts.session_run {r : Registry} (h : r.OnlyScripts) (pipeline : String)
    (point : HookPoint) (c : Context) : (r.run pipeline point c).session = c.session := by
  refine session_runHandlers (fun handler hhandler => ?_) c
  obtain ⟨hook, hhook, rfl⟩ := List.mem_map.1 hhandler
  exact h hook (List.mem_filter.1 hhook).1

theorem Context.session_fitResolution (c : Context) : c.fitResolution.session = c.session := by
  unfold Context.fitResolution
  split
  · rfl
  · split <;> rfl

namespace Processor

variable {σ : Type} (p : Processor σ)

end Processor

/-! ### Sessions -/

/-- A request of a session: what it is processed by, the state of the chooser, and what is known of it
so far. -/
structure Job where
  σ : Type
  processor : Processor σ
  chance : σ
  context : Context

/-- Processes a request that goes on where a session stopped. -/
def Job.run (j : Job) (s : Session) : Expansion j.σ :=
  j.processor.process ⟨j.context.withSession s, j.chance, []⟩

end PromptWeave.Prompt
