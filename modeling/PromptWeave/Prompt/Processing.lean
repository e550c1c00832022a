import PromptWeave.Prompt.Formatting
import PromptWeave.Prompt.Hooks
import PromptWeave.Wildcard.Expansion

/-!
# From a request to a prompt

The stages of a prompt: progress and resolution, the hooks before the expansion, the expansion of
the leading and the trailing tags, the hooks after it, and the final text.
-/
namespace PromptWeave.Prompt

open PromptWeave.Wildcard (Expander Expansion)

/-- The name of the pipeline for which hooks are registered. -/
def pipelineName : String := "PromptProcessor"

/-- The name under which the resolution is kept. -/
def resolutionKey : String := "detected_resolution"

namespace Context

/-- Keeps the resolution of the image, if the settings ask for it and it is known. -/
def fitResolution (c : Context) : Context :=
  if !c.settings.autoFitResolution || c.settings.wildcardStandalone then c
  else
    match c.row.resolution? with
    | none => c
    | some (width, height) =>
        { c with
          metadata := c.metadata.insert resolutionKey
            (.array [.integer width, .integer height]) }

end Context

/-- What turns requests into prompts. -/
structure Processor (σ : Type) where
  expander : Expander σ
  hooks : Registry

namespace Processor

variable {σ : Type}

/-- Expands the leading tags. They are out of the prompt meanwhile. -/
def expandLeading (p : Processor σ) (x : Expansion σ) : Expansion σ :=
  let tags := x.context.leading
  let (tags, x) := p.expander.expandTags tags { x with context := { x.context with leading := [] } }
  { x with context := { x.context with leading := tags } }

/-- Expands the trailing tags. They are out of the prompt meanwhile. -/
def expandTrailing (p : Processor σ) (x : Expansion σ) : Expansion σ :=
  let tags := x.context.trailing
  let (tags, x) := p.expander.expandTags tags { x with context := { x.context with trailing := [] } }
  { x with context := { x.context with trailing := tags } }

/-- Runs the hooks for a point. -/
def runHooks (p : Processor σ) (point : HookPoint) (x : Expansion σ) : Expansion σ :=
  { x with context := p.hooks.run pipelineName point x.context }

/-- Takes a prompt through all stages. -/
def process (p : Processor σ) (x : Expansion σ) : Expansion σ :=
  let start := { x with context := (x.context.rebuildProgress p.expander.table).fitResolution }
  let prepared := p.runHooks .postProcessing (p.runHooks .preProcessing start)
  let expanded := p.expandTrailing (p.expandLeading prepared)
  let finished := p.runHooks .afterWildcard expanded
  { finished with context := finished.context.finalize }

end Processor
end PromptWeave.Prompt
