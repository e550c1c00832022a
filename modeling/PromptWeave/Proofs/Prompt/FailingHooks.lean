import PromptWeave.Prompt.Processing

/-!
# Hooks that fail

A hook that fails leaves the prompt as it was before the hook, so the hooks behind it run on that. What
becomes of a prompt is what would become of it if the hooks that fail on its way had never been
registered.
-/
namespace PromptWeave.Prompt

open PromptWeave.Wildcard (Expansion)

/-! ### Calls -/

/-- A hook and the prompt that it is given. -/
structure Call where
  hook : Hook
  given : Context

namespace Call

/-- What the hook makes of the prompt. -/
def outcome (call : Call) : Except HookError Context := call.hook.handler call.given

/-- Whether the hook does not fail. -/
def succeeded (call : Call) : Bool := call.outcome.toOption.isSome

/-- The prompt after the call: after a failure it is what it was before. -/
def after (call : Call) : Context := call.outcome.toOption.getD call.given

theorem succeeded_of_ok (call : Call) {c : Context} (h : call.outcome = .ok c) :
    call.succeeded = true ∧ call.after = c := by
  simp [succeeded, after, h, Except.toOption]

theorem not_succeeded_of_error (call : Call) {e : HookError} (h : call.outcome = .error e) :
    call.succeeded = false ∧ call.after = call.given := by
  simp [succeeded, after, h, Except.toOption]

end Call

/-- The calls that are made when hooks run one after the other from a prompt on. -/
def callsFrom : List Hook → Context → List Call
  | [], _ => []
  | hook :: rest, c => ⟨hook, c⟩ :: callsFrom rest (Call.mk hook c).after

/-- Every hook is called, whatever becomes of the calls before. -/
theorem map_hook_callsFrom (hooks : List Hook) (c : Context) :
    (callsFrom hooks c).map (·.hook) = hooks := by
  induction hooks generalizing c with
  | nil => rfl
  | cons hook rest ih => simp [callsFrom, ih]

theorem given_of_callsFrom_eq_cons {hooks : List Hook} {c : Context} {call : Call}
    {rest : List Call} (h : callsFrom hooks c = call :: rest) : call.given = c := by
  cases hooks with
  | nil => simp [callsFrom] at h
  | cons hook hooks =>
      simp only [callsFrom, List.cons.injEq] at h
      rw [← h.1]

/-- Each hook is given what the call before it has left. -/
theorem given_eq_after_of_callsFrom {hooks : List Hook} {c : Context} {before rest : List Call}
    {call next : Call} (h : callsFrom hooks c = before ++ call :: next :: rest) :
    next.given = call.after := by
  induction hooks generalizing c before with
  | nil => simp [callsFrom] at h
  | cons hook hooks ih =>
      rw [callsFrom] at h
      cases before with
      | nil =>
          simp only [List.nil_append, List.cons.injEq] at h
          obtain ⟨rfl, hrest⟩ := h
          exact given_of_callsFrom_eq_cons hrest
      | cons first before =>
          simp only [List.cons_append, List.cons.injEq] at h
          exact ih h.2

/-- Running the handlers of hooks leaves what the last call leaves. -/
theorem runHandlers_eq_last (hooks : List Hook) (c : Context) :
    Registry.runHandlers (hooks.map (·.handler)) c =
      ((callsFrom hooks c).getLast?.map Call.after).getD c := by
  induction hooks generalizing c with
  | nil => rfl
  | cons hook rest ih =>
      have hrest := ih (Call.mk hook c).after
      have hstep : Registry.runHandlers ((hook :: rest).map (·.handler)) c =
          Registry.runHandlers (rest.map (·.handler)) (Call.mk hook c).after := rfl
      rw [hstep, hrest, callsFrom, List.getLast?_cons]
      cases hlast : (callsFrom rest (Call.mk hook c).after).getLast? <;> simp

/-! ### Hooks without those that fail -/

/-- The hooks whose calls do not fail, when hooks run one after the other from a prompt on. -/
def succeeding (hooks : List Hook) (c : Context) : List Hook :=
  ((callsFrom hooks c).filter Call.succeeded).map (·.hook)

theorem succeeding_cons_of_ok {hook : Hook} {c after : Context} (h : hook.handler c = .ok after)
    (rest : List Hook) : succeeding (hook :: rest) c = hook :: succeeding rest after := by
  obtain ⟨hsucceeded, hafter⟩ := Call.succeeded_of_ok ⟨hook, c⟩ h
  simp [succeeding, callsFrom, hsucceeded, hafter]

theorem succeeding_cons_of_error {hook : Hook} {c : Context} {e : HookError}
    (h : hook.handler c = .error e) (rest : List Hook) :
    succeeding (hook :: rest) c = succeeding rest c := by
  obtain ⟨hsucceeded, hafter⟩ := Call.not_succeeded_of_error ⟨hook, c⟩ h
  simp [succeeding, callsFrom, hsucceeded, hafter]

/-- Without the hooks that fail, the same calls are made but for those that fail. -/
theorem callsFrom_succeeding (hooks : List Hook) (c : Context) :
    callsFrom (succeeding hooks c) c = (callsFrom hooks c).filter Call.succeeded := by
  induction hooks generalizing c with
  | nil => rfl
  | cons hook rest ih =>
      cases hrun : hook.handler c with
      | ok after =>
          obtain ⟨hsucceeded, hafter⟩ := Call.succeeded_of_ok ⟨hook, c⟩ hrun
          rw [succeeding_cons_of_ok hrun]
          simp [callsFrom, hsucceeded, hafter, ih]
      | error e =>
          obtain ⟨hsucceeded, hafter⟩ := Call.not_succeeded_of_error ⟨hook, c⟩ hrun
          rw [succeeding_cons_of_error hrun]
          simp [callsFrom, hsucceeded, hafter, ih]

/-- Without the hooks that fail, the outcome is the same. -/
theorem runHandlers_succeeding (hooks : List Hook) (c : Context) :
    Registry.runHandlers ((succeeding hooks c).map (·.handler)) c =
      Registry.runHandlers (hooks.map (·.handler)) c := by
  induction hooks generalizing c with
  | nil => rfl
  | cons hook rest ih =>
      cases hrun : hook.handler c with
      | ok after =>
          rw [succeeding_cons_of_ok hrun]
          simpa [Registry.runHandlers, hrun, Except.toOption] using ih after
      | error e =>
          rw [succeeding_cons_of_error hrun]
          simpa [Registry.runHandlers, hrun, Except.toOption] using ih c

namespace Registry

/-- Takes out the hooks for a point that fail when they run from a prompt on. -/
def withoutFailing (r : Registry) (pipeline : String) (point : HookPoint) (c : Context) : Registry :=
  ⟨keep r.hooks c⟩
where
  /-- The hooks that are kept. -/
  keep : List Hook → Context → List Hook
    | [], _ => []
    | hook :: rest, c =>
        if hook.isFor pipeline point then
          match hook.handler c with
          | .ok after => hook :: keep rest after
          | .error _ => keep rest c
        else hook :: keep rest c

variable {pipeline : String} {point : HookPoint}

/-- The hooks for the point that are kept are those that do not fail. -/
theorem hooksFor_withoutFailing (r : Registry) (c : Context) :
    (r.withoutFailing pipeline point c).hooksFor pipeline point =
      succeeding (r.hooksFor pipeline point) c := by
  suffices ∀ hooks c, (withoutFailing.keep pipeline point hooks c).filter (·.isFor pipeline point) =
      succeeding (hooks.filter (·.isFor pipeline point)) c from this r.hooks c
  intro hooks
  induction hooks with
  | nil => intro c; rfl
  | cons hook rest ih =>
      intro c
      rw [withoutFailing.keep]
      by_cases hfor : hook.isFor pipeline point = true
      · rw [if_pos hfor, List.filter_cons_of_pos hfor]
        cases hrun : hook.handler c with
        | ok after => rw [succeeding_cons_of_ok hrun, List.filter_cons_of_pos hfor, ih after]
        | error e => rw [succeeding_cons_of_error hrun, ih c]
      · rw [if_neg hfor, List.filter_cons_of_neg hfor, List.filter_cons_of_neg hfor, ih c]

/-- The hooks for other points and pipelines are all kept. -/
theorem hooksFor_withoutFailing_of_ne (r : Registry) (c : Context) {other : String}
    {otherPoint : HookPoint} (hother : other ≠ pipeline ∨ otherPoint ≠ point) :
    (r.withoutFailing pipeline point c).hooksFor other otherPoint = r.hooksFor other otherPoint := by
  suffices ∀ hooks c, (withoutFailing.keep pipeline point hooks c).filter
      (·.isFor other otherPoint) = hooks.filter (·.isFor other otherPoint) from this r.hooks c
  intro hooks
  induction hooks with
  | nil => intro c; rfl
  | cons hook rest ih =>
      intro c
      rw [withoutFailing.keep]
      by_cases hfor : hook.isFor pipeline point = true
      · have hkey : hook.pipeline = pipeline ∧ hook.point = point := by
          simpa [Hook.isFor] using hfor
        have hnot : ¬ hook.isFor other otherPoint = true := by
          intro hboth
          have hkey' : hook.pipeline = other ∧ hook.point = otherPoint := by
            simpa [Hook.isFor] using hboth
          rcases hother with hne | hne
          · exact hne (hkey'.1.symm.trans hkey.1)
          · exact hne (hkey'.2.symm.trans hkey.2)
        rw [if_pos hfor, List.filter_cons_of_neg hnot]
        cases hrun : hook.handler c with
        | ok after => rw [List.filter_cons_of_neg hnot, ih after]
        | error e => rw [ih c]
      · rw [if_neg hfor, List.filter_cons, List.filter_cons, ih c]

end Registry

/-! ### Requests -/

namespace Processor

variable {σ : Type}

/-- What has become of a prompt when the hooks for a point begin to run. -/
def reaching (p : Processor σ) (x : Expansion σ) (point : HookPoint) : Expansion σ :=
  let start := { x with context := (x.context.rebuildProgress p.expander.table).fitResolution }
  let between := p.runHooks .preProcessing start
  match point with
  | .preProcessing => start
  | .postProcessing => between
  | .afterWildcard => p.expandTrailing (p.expandLeading (p.runHooks .postProcessing between))

theorem reaching_postProcessing (p : Processor σ) (x : Expansion σ) :
    p.reaching x .postProcessing = p.runHooks .preProcessing (p.reaching x .preProcessing) := rfl

theorem reaching_afterWildcard (p : Processor σ) (x : Expansion σ) :
    p.reaching x .afterWildcard = p.expandTrailing (p.expandLeading
      (p.runHooks .postProcessing (p.reaching x .postProcessing))) := rfl

/-- A prompt is finished behind the hooks for the last point. -/
theorem process_eq (p : Processor σ) (x : Expansion σ) :
    let finished := p.runHooks .afterWildcard (p.reaching x .afterWildcard)
    p.process x = { finished with context := finished.context.finalize } := rfl

/-- The calls that are made at a point on the way of a prompt. -/
def callsAt (p : Processor σ) (x : Expansion σ) (point : HookPoint) : List Call :=
  callsFrom (p.hooks.hooksFor pipelineName point) (p.reaching x point).context

/-- Takes out the hooks that fail on the way of a prompt. -/
def withoutFailing (p : Processor σ) (x : Expansion σ) : Processor σ :=
  let remove (point : HookPoint) (r : Registry) : Registry :=
    r.withoutFailing pipelineName point (p.reaching x point).context
  { p with
    hooks := remove .afterWildcard (remove .postProcessing (remove .preProcessing p.hooks)) }

/-- What is left are the hooks whose calls do not fail. -/
theorem hooksFor_withoutFailing (p : Processor σ) (x : Expansion σ) (point : HookPoint) :
    (p.withoutFailing x).hooks.hooksFor pipelineName point =
      succeeding (p.hooks.hooksFor pipelineName point) (p.reaching x point).context := by
  cases point with
  | preProcessing =>
      simp only [withoutFailing]
      rw [Registry.hooksFor_withoutFailing_of_ne, Registry.hooksFor_withoutFailing_of_ne,
        Registry.hooksFor_withoutFailing]
      all_goals exact .inr nofun
  | postProcessing =>
      simp only [withoutFailing]
      rw [Registry.hooksFor_withoutFailing_of_ne, Registry.hooksFor_withoutFailing,
        Registry.hooksFor_withoutFailing_of_ne]
      all_goals exact .inr nofun
  | afterWildcard =>
      simp only [withoutFailing]
      rw [Registry.hooksFor_withoutFailing, Registry.hooksFor_withoutFailing_of_ne,
        Registry.hooksFor_withoutFailing_of_ne]
      all_goals exact .inr nofun

theorem hooksFor_withoutFailing_of_ne (p : Processor σ) (x : Expansion σ) {pipeline : String}
    (h : pipeline ≠ pipelineName) (point : HookPoint) :
    (p.withoutFailing x).hooks.hooksFor pipeline point = p.hooks.hooksFor pipeline point := by
  simp only [withoutFailing]
  rw [Registry.hooksFor_withoutFailing_of_ne _ _ (.inl h),
    Registry.hooksFor_withoutFailing_of_ne _ _ (.inl h),
    Registry.hooksFor_withoutFailing_of_ne _ _ (.inl h)]

/-- From what a prompt is when it reaches a point, the hooks for the point make the same of it. -/
theorem runHooks_withoutFailing (p : Processor σ) (x : Expansion σ) (point : HookPoint) :
    (p.withoutFailing x).runHooks point (p.reaching x point) =
      p.runHooks point (p.reaching x point) := by
  simp only [runHooks, Registry.run, Registry.handlers, hooksFor_withoutFailing,
    runHandlers_succeeding]

/-- The prompt reaches every point as it does with the hooks that fail. -/
theorem reaching_withoutFailing (p : Processor σ) (x : Expansion σ) (point : HookPoint) :
    (p.withoutFailing x).reaching x point = p.reaching x point := by
  have hpre : (p.withoutFailing x).reaching x .preProcessing = p.reaching x .preProcessing := rfl
  have hpost : (p.withoutFailing x).reaching x .postProcessing = p.reaching x .postProcessing := by
    rw [reaching_postProcessing, hpre, runHooks_withoutFailing, reaching_postProcessing]
  cases point with
  | preProcessing => exact hpre
  | postProcessing => exact hpost
  | afterWildcard =>
      rw [reaching_afterWildcard, hpost, runHooks_withoutFailing, reaching_afterWildcard]
      rfl

end Processor

/-- A hook that fails leaves no trace, whatever the hooks, the wildcards, the choices and the prompt.
The prompt becomes the same as without the hooks that fail on its way, which are taken out of the
registry and no others. At every point all hooks are called in their order; each is given what the call
before it has left, and after a failure that is what the failing hook was given. Without the hooks that
fail, the prompt reaches every point as it was, and the other calls are the same. -/
theorem failing_hooks_leave_no_trace {σ : Type} (p : Processor σ) (x : Expansion σ) :
    let q := p.withoutFailing x
    q.process x = p.process x ∧
    q.expander = p.expander ∧
    (∀ point, q.hooks.hooksFor pipelineName point =
      ((p.callsAt x point).filter Call.succeeded).map (·.hook)) ∧
    (∀ pipeline point, pipeline ≠ pipelineName →
      q.hooks.hooksFor pipeline point = p.hooks.hooksFor pipeline point) ∧
    (∀ point, q.reaching x point = p.reaching x point ∧
      q.callsAt x point = (p.callsAt x point).filter Call.succeeded) ∧
    ∀ point, (p.callsAt x point).map (·.hook) = p.hooks.hooksFor pipelineName point ∧
      (∀ call rest, p.callsAt x point = call :: rest →
        call.given = (p.reaching x point).context) ∧
      (∀ before call next rest, p.callsAt x point = before ++ call :: next :: rest →
        (∀ c, call.outcome = .ok c → next.given = c) ∧
        ∀ e, call.outcome = .error e → next.given = call.given) ∧
      (p.runHooks point (p.reaching x point)).context =
        ((p.callsAt x point).getLast?.map Call.after).getD (p.reaching x point).context := by
  intro q
  refine ⟨?_, rfl, p.hooksFor_withoutFailing x, fun pipeline point hne =>
    p.hooksFor_withoutFailing_of_ne x hne point, fun point => ⟨p.reaching_withoutFailing x point, ?_⟩,
    fun point => ⟨map_hook_callsFrom _ _, fun call rest => given_of_callsFrom_eq_cons,
      fun before call next rest hcalls => ?_, runHandlers_eq_last _ _⟩⟩
  · have hlast : q.runHooks .afterWildcard (q.reaching x .afterWildcard) =
        p.runHooks .afterWildcard (p.reaching x .afterWildcard) := by
      rw [p.reaching_withoutFailing x, p.runHooks_withoutFailing x]
    have hq := q.process_eq x
    rw [hlast] at hq
    exact hq
  · rw [Processor.callsAt, p.hooksFor_withoutFailing x, p.reaching_withoutFailing x,
      callsFrom_succeeding]
    rfl
  · have hgiven := given_eq_after_of_callsFrom hcalls
    refine ⟨fun c hok => ?_, fun e herror => ?_⟩
    · rw [hgiven, (call.succeeded_of_ok hok).2]
    · rw [hgiven, (call.not_succeeded_of_error herror).2]

end PromptWeave.Prompt
