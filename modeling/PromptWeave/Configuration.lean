import PromptWeave.Prompt.Settings
import PromptWeave.Script.Machine

/-!
# Configuration

Where the wildcards are, what requests set unless they say otherwise, and the limits of expansions
and scripts.
-/
namespace PromptWeave

open PromptWeave.Prompt (Settings)
open PromptWeave.Script (Limits)

/-- The configuration of the program. -/
structure Configuration where
  version : String
  wildcardDirectory : String
  settings : Settings
  maxDepth : Nat
  /-- The seed of random choices; without one they are different each time. -/
  seed : Option UInt64
  limits : Limits

namespace Configuration

/-- The only version that is understood. -/
def currentVersion : String := "1.0"

/-- The depth of expansions unless another is set. -/
def defaultDepth : Nat := 10

/-- The greatest depth that may be set. -/
def maxDepthLimit : Nat := 64

/-- The limits of scripts unless others are set. -/
def defaultLimits : Limits := ⟨100000, 64 * 1024⟩

/-- The configuration that says only where the wildcards are. -/
def ofDirectory (directory : String) : Configuration where
  version := currentVersion
  wildcardDirectory := directory
  settings := .initial
  maxDepth := defaultDepth
  seed := none
  limits := defaultLimits

/-- Reads how wildcards are expanded: the depth and the seed. -/
def decodeExpansion : Json.Decoder (Nat × Option UInt64) :=
  Json.record ["max_depth", "seed"] fun fields => do
    let depth ← fields.withDefault "max_depth" Json.decodeWord defaultDepth
    let seed ← fields.withDefault "seed" (Json.decodeOptional Json.decodeWord) none
    return (depth, seed.map UInt64.ofNat)

/-- Reads the limits of scripts. -/
def decodeLimits : Json.Decoder Limits :=
  Json.record ["max_steps", "max_output_bytes"] fun fields => do
    return {
      maxSteps := ← fields.withDefault "max_steps" Json.decodeWord defaultLimits.maxSteps
      maxOutputBytes :=
        ← fields.withDefault "max_output_bytes" Json.decodeWord defaultLimits.maxOutputBytes }

/-- Reads a configuration as it is written. -/
def decode : Json.Decoder Configuration :=
  Json.record ["version", "wildcard_directory", "settings", "expansion", "script"]
    fun fields => do
      let (maxDepth, seed) ← fields.withDefault "expansion" decodeExpansion (defaultDepth, none)
      return {
        version := ← fields.required "version" Json.decodeText
        wildcardDirectory := ← fields.required "wildcard_directory" Json.decodeText
        settings := ← fields.withDefault "settings" Settings.decode .initial
        maxDepth, seed
        limits := ← fields.withDefault "script" decodeLimits defaultLimits }

/-- Why a configuration that can be read cannot be used. -/
inductive Flaw where
  | unsupportedVersion (version : String)
  | noDirectory
  | badDepth (depth : Nat)
  | noSteps
  deriving Repr, DecidableEq

/-- The wording of a flaw. -/
def Flaw.message : Flaw → String
  | unsupportedVersion version => "Unsupported config version: " ++ version
  | noDirectory => "wildcard_directory must not be empty"
  | badDepth depth =>
      "expansion.max_depth must be between 1 and " ++ toString maxDepthLimit ++ ", got "
        ++ toString depth
  | noSteps => "script.max_steps must be greater than zero"

/-- The first flaw of a configuration. -/
def flaw? (c : Configuration) : Option Flaw :=
  if c.version != currentVersion then some (.unsupportedVersion c.version)
  else if (Text.trim c.wildcardDirectory).isEmpty then some .noDirectory
  else if c.maxDepth = 0 ∨ maxDepthLimit < c.maxDepth then some (.badDepth c.maxDepth)
  else if c.limits.maxSteps = 0 then some .noSteps
  else none

/-- Why there is no configuration. -/
inductive LoadError where
  /-- The text is no configuration. -/
  | malformed
  | flawed (f : Flaw)
  deriving Repr, DecidableEq

/-- The wording of an error. -/
def LoadError.message : LoadError → String
  | malformed => "Configuration error: Failed to parse config JSON"
  | flawed f => "Configuration error: Config validation failed: " ++ f.message

/-- The configuration in a text. -/
def ofText (text : String) : Except LoadError Configuration :=
  match Json.decodeDocument? decode text with
  | none => .error .malformed
  | some c =>
      match c.flaw? with
      | some f => .error (.flawed f)
      | none => .ok c

/-- A configuration as a value. -/
def toJson (c : Configuration) : Json.Value :=
  .object [("version", .text c.version), ("wildcard_directory", .text c.wildcardDirectory),
    ("settings", c.settings.toJson),
    ("expansion", .object [("max_depth", .integer c.maxDepth),
      ("seed", (c.seed.map fun n => Json.Value.integer n.toNat).getD .null)]),
    ("script", .object [("max_steps", .integer c.limits.maxSteps),
      ("max_output_bytes", .integer c.limits.maxOutputBytes)])]

end Configuration
end PromptWeave
