import PromptWeave.Prompt.Settings
import PromptWeave.Prompt.SourceRow
import PromptWeave.Prompt.Tags

/-!
# Requests

A request holds the texts of a prompt and the scripts that run as hooks on its way.
-/
namespace PromptWeave.CommandLine

open PromptWeave.Prompt (Settings SourceRow splitTags)

/-- A script that runs as a hook. -/
structure ScriptRequest where
  /-- The name of the point at which it runs. -/
  point : String
  priority : Option Int
  source : String

/-- A request for a prompt. -/
structure Request where
  row : SourceRow
  /-- The settings, if they are not to be those of the configuration. -/
  settings : Option Settings
  leading : String
  main : String
  trailing : String
  scripts : List ScriptRequest

namespace ScriptRequest

/-- Reads a script; only its priority may be missing. -/
def decode : Json.Decoder ScriptRequest :=
  Json.record ["hook_point", "priority", "source"] fun fields => do
    return {
      point := ← fields.required "hook_point" Json.decodeText
      priority := ← fields.withDefault "priority" (Json.decodeOptional Json.decodeInt32) none
      source := ← fields.required "source" Json.decodeText }

end ScriptRequest

namespace Request

/-- Reads a request; every field may be missing. -/
def decode : Json.Decoder Request :=
  Json.record ["source_row", "settings", "prefix", "main", "postfix", "scripts"] fun fields => do
    return {
      row := ← fields.withDefault "source_row" SourceRow.decode .initial
      settings := ← fields.withDefault "settings" (Json.decodeOptional Settings.decode) none
      leading := ← fields.withDefault "prefix" Json.decodeText ""
      main := ← fields.withDefault "main" Json.decodeText ""
      trailing := ← fields.withDefault "postfix" Json.decodeText ""
      scripts := ← fields.withDefault "scripts" (Json.decodeList ScriptRequest.decode) [] }

end Request

/-- Why an argument gives no variable. -/
inductive VariableFlaw where
  /-- It has no equals sign. -/
  | noTags (argument : String)
  | noName (argument : String)
  deriving Repr, DecidableEq

/-- The variable that an argument gives: a name, an equals sign and a list of tags. -/
def readVariable (argument : String) : Except VariableFlaw (String × List String) :=
  match Text.splitOnce? '=' argument with
  | none => .error (.noTags argument)
  | some (name, tags) =>
      let name := Text.trim name
      if name.isEmpty then .error (.noName argument) else .ok (name, splitTags tags)

end PromptWeave.CommandLine
