import PromptWeave.Prompt.Hooks
import PromptWeave.Script.Execution

/-!
# Scripts as hooks

A script sees the tags of a prompt in four variables. What it leaves in them becomes the tags of the
prompt, and its output is kept among the metadata.
-/
namespace PromptWeave.Prompt

open PromptWeave.Script

/-- The name under which the output of a script is kept. -/
def scriptOutputKey : String := "script_output"

namespace Context

/-- The variables that a script is given. -/
def scriptVariables (c : Context) : TagVariables :=
  .ofList [(leadingVariable, c.leading), (mainVariable, c.main), (trailingVariable, c.trailing),
    (removedVariable, c.removed)]

/-- Takes the tags from the variables that there are. -/
def withVariables (c : Context) (vars : TagVariables) : Context :=
  { c with
    leading := (vars.get? leadingVariable).getD c.leading
    main := (vars.get? mainVariable).getD c.main
    trailing := (vars.get? trailingVariable).getD c.trailing
    removed := (vars.get? removedVariable).getD c.removed }

/-- Keeps the output of a script, if there is any. -/
def withScriptOutput (c : Context) (output : String) : Context :=
  if output.isEmpty then c
  else { c with metadata := c.metadata.insert scriptOutputKey (.text output) }

end Context

/-- The hook that runs a script. -/
def scriptHandler (runner : Runner) (source : String) : Handler := fun c =>
  match runner.run source c.scriptVariables with
  | .ok y => .ok ((c.withVariables y.vars).withScriptOutput y.output)
  | .error e => .error (.failed e.message)

end PromptWeave.Prompt
