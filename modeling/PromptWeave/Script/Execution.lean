import PromptWeave.Script.Evaluation
import PromptWeave.Script.Parser
import PromptWeave.Script.Screening

/-!
# Scripts over tags

A script is given variables that hold lists of tags, and the lists that it leaves in them are read
back. Tags that are in none of the three buckets of a prompt any more count as removed.
-/
namespace PromptWeave.Script

open PromptWeave.Random (Generator)

/-- The variable with the tags before the main tags. -/
def leadingVariable : String := "prefix_tags"

/-- The variable with the main tags. -/
def mainVariable : String := "main_tags"

/-- The variable with the tags after the main tags. -/
def trailingVariable : String := "postfix_tags"

/-- The variable with the removed tags. -/
def removedVariable : String := "removed_tags"

/-- Variables that hold tags. -/
abbrev TagVariables := Dictionary (List String)

/-- A list of tags as a value. -/
def ofTags (tags : List String) : Value := .list (tags.map .str)

/-- The tags that a variable holds at the end: the texts of a list's items, or one text. -/
def readTags (name : String) : Value → Except ScriptError (List String)
  | .list items => .ok (items.map Value.text)
  | .str s => .ok [s]
  | other => .error (.invalidVariable name other.kind)

/-- Puts a text in front of others unless it is the first of them. -/
def putUnlessFirst (text : String) : List String → List String
  | [] => [text]
  | first :: rest => if text = first then first :: rest else text :: first :: rest

/-- Texts in ascending order, each once. -/
def ascending (texts : List String) : List String :=
  (texts.mergeSort fun a b => a ≤ b).foldr putUnlessFirst []

/-- The tags in the three buckets of a prompt. -/
def bucketTags (vars : TagVariables) : List String :=
  [leadingVariable, mainVariable, trailingVariable].flatMap fun name =>
    (vars.get? name).getD []

/-- The tags that have left the three buckets, together with those that the script lists itself. -/
def removedTags (before after : TagVariables) (listed : List String) : List String :=
  let remaining := bucketTags after
  ascending ((bucketTags before).filter (!remaining.contains ·) ++ listed)

/-- A machine with variables that hold tags. -/
def Machine.withTags (generator : Generator) (vars : TagVariables) : Machine :=
  vars.toList.foldl (fun m (name, tags) => m.bind name (ofTags tags)) (.start generator)

/-- Reads back what a script has left in its variables. -/
def readBack (m : Machine) (vars : TagVariables) : Except ScriptError TagVariables := do
  let entries ← vars.toList.mapM fun (name, before) =>
    match m.get? name with
    | some v => (name, ·) <$> readTags name v
    | none => .ok (name, before)
  let after : TagVariables := .ofList entries
  let listed ← match m.get? removedVariable with
    | some v => readTags removedVariable v
    | none => .ok []
  return after.insert removedVariable (removedTags vars after listed)

/-- What runs scripts: the limits of a run and the seed of its random numbers. -/
structure Runner where
  limits : Limits
  seed : UInt64

/-- What a script leaves: its output and the tags in its variables. -/
structure Yield where
  output : String
  vars : TagVariables

/-- Runs a script over variables that hold tags. -/
def Runner.run (r : Runner) (source : String) (vars : TagVariables) :
    Except ScriptError Yield := do
  screen source
  let program ← (parse source).mapError .malformed
  match runProgram program r.limits (.withTags (.ofSeed r.seed) vars) with
  | (.error stop, _) => .error (.stopped stop)
  | (.ok (), m) => return ⟨m.output, ← readBack m vars⟩

end PromptWeave.Script
