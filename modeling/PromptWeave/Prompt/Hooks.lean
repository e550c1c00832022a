import PromptWeave.Prompt.Context
import PromptWeave.Text.Printable

/-!
# Hooks

A hook changes a prompt at one of three points on its way, or fails. Hooks for the same point run in
the order of their priorities, and those of one priority in the order in which they were registered.
-/
namespace PromptWeave.Prompt

/-- The points at which hooks run. -/
inductive HookPoint where
  | preProcessing
  | postProcessing
  | afterWildcard
  deriving Repr, DecidableEq

/-- Why a hook could not be registered or did not change its prompt. -/
inductive HookError where
  | failed (message : String)
  | unknownPoint (name : String)
  deriving Repr, DecidableEq

/-- The wording of an error. -/
def HookError.message : HookError → String
  | failed message => "Hook handler failed: " ++ message
  | unknownPoint name => "Unknown hook point: " ++ name

namespace HookPoint

/-- The name of a point. -/
def name : HookPoint → String
  | preProcessing => "pre_processing"
  | postProcessing => "post_processing"
  | afterWildcard => "after_wildcard"

/-- The point of a name. -/
def ofName? (name : String) : Except HookError HookPoint :=
  match [preProcessing, postProcessing, afterWildcard].find? (·.name == name) with
  | some p => .ok p
  | none => .error (.unknownPoint name)

end HookPoint

/-- What a hook does with a prompt. -/
abbrev Handler := Context → Except HookError Context

/-- The priority of a hook for which none is given; it runs after all others. -/
def defaultPriority : Int := 1000

/-- A registered hook. -/
structure Hook where
  pipeline : String
  point : HookPoint
  priority : Int
  handler : Handler

/-- Whether a hook is for a point of a pipeline. -/
def Hook.isFor (pipeline : String) (point : HookPoint) (h : Hook) : Bool :=
  h.pipeline == pipeline && h.point == point

/-- Registered hooks in the order in which they run. -/
structure Registry where
  hooks : List Hook

namespace Registry

/-- No hooks. -/
def empty : Registry := ⟨[]⟩

/-- Puts a hook behind all hooks whose priority is no greater than its own. -/
def place (h : Hook) : List Hook → List Hook
  | [] => [h]
  | first :: rest =>
      if first.priority ≤ h.priority then first :: place h rest else h :: first :: rest

/-- Registers a hook. -/
def register (r : Registry) (h : Hook) : Registry := ⟨place h r.hooks⟩

/-- The hooks for a point of a pipeline, in the order in which they run. -/
def hooksFor (r : Registry) (pipeline : String) (point : HookPoint) : List Hook :=
  r.hooks.filter (·.isFor pipeline point)

/-- The handlers for a point of a pipeline, in the order in which they run. -/
def handlers (r : Registry) (pipeline : String) (point : HookPoint) : List Handler :=
  (r.hooksFor pipeline point).map (·.handler)

/-- How many handlers there are for a point of a pipeline. -/
def count (r : Registry) (pipeline : String) (point : HookPoint) : Nat :=
  (r.hooksFor pipeline point).length

/-- Forgets all hooks. -/
def clear (_ : Registry) : Registry := empty

/-- A character as it stands in a quoted name. One that cannot be shown is written by its code
point. -/
def quoteChar (c : Char) : String :=
  match c with
  | '"' => "\\\""
  | '\\' => "\\\\"
  | '\n' => "\\n"
  | '\r' => "\\r"
  | '\t' => "\\t"
  | '\x00' => "\\0"
  | c =>
      if Text.isShown c then c.toString
      else "\\u\x7b" ++ String.ofList (Nat.toDigits 16 c.toNat) ++ "\x7d"

/-- A point of a pipeline and the priorities of its hooks. -/
def describePoint (r : Registry) (pipeline : String) (point : HookPoint) : String :=
  "\"" ++ "".intercalate ((pipeline ++ "." ++ point.name).toList.map quoteChar) ++ "\": ["
    ++ ", ".intercalate ((r.hooksFor pipeline point).map fun h => toString h.priority) ++ "]"

/-- The points that have hooks, each with the priorities of its hooks. -/
def describe (r : Registry) : String :=
  let points := (r.hooks.map fun h => (h.pipeline, h.point)).eraseDups
  "\x7b" ++ ", ".intercalate (points.map fun (pipeline, point) => r.describePoint pipeline point)
    ++ "\x7d"

/-- Runs handlers one after the other. One that fails leaves the prompt as it was before it. -/
def runHandlers (handlers : List Handler) (c : Context) : Context :=
  handlers.foldl (fun c handler => (handler c).toOption.getD c) c

/-- Runs the hooks for a point of a pipeline. -/
def run (r : Registry) (pipeline : String) (point : HookPoint) (c : Context) : Context :=
  runHandlers (r.handlers pipeline point) c

end Registry
end PromptWeave.Prompt
