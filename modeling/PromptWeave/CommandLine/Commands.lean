import PromptWeave.CommandLine.Invocation
import PromptWeave.CommandLine.Processing

/-!
# Carrying out commands

What the commands print, and how the program ends.
-/
namespace PromptWeave.CommandLine

open PromptWeave.Files (Disk)
open PromptWeave.Prompt
open PromptWeave.Wildcard (Table)

/-- How the program ends. -/
structure Ending where
  code : Nat
  /-- What is printed. -/
  output : String
  /-- What is printed as an error. -/
  complaint : String
  deriving Repr, DecidableEq

/-- The name of the program and its version. -/
def versionText : String := "wildprompt 0.1.0\n"

/-- How the program is used. -/
def usageText : String :=
  "\n".intercalate [
    "Expand wildcard prompt templates and run the prompt pipeline",
    "",
    "Usage: wildprompt [OPTIONS] <COMMAND>",
    "",
    "Commands:",
    "  expand   Expand a comma-separated tag list and print the result",
    "  process  Run the full pipeline over a JSON request",
    "  list     List loaded wildcards with their entry counts",
    "  script   Run a script against tag lists",
    "  help     Print this message",
    "",
    "Options:",
    "  -c, --config <CONFIG>        Path to the JSON config file (defaults to the platform config dir)",
    "  -w, --wildcards <WILDCARDS>  Wildcard directory; overrides the configured one",
    "      --seed <SEED>            Seed for reproducible random choices",
    "  -v, --verbose                Enable verbose logging",
    "  -h, --help                   Print help",
    "  -V, --version                Print version",
    ""]

/-- How the program ends without carrying out a command. -/
def Refusal.ending : Refusal → Ending
  | misuse => ⟨2, "", usageText⟩
  | helpWanted => ⟨0, usageText, ""⟩
  | versionWanted => ⟨0, versionText, ""⟩

/-- How the program ends after a command that has printed something or failed. -/
def Ending.ofResult : Except Failure String → Ending
  | .ok output => ⟨0, output, ""⟩
  | .error e => ⟨1, e.output, "Error: " ++ e.message ++ "\n"⟩

/-- The text of lines, each with its end. -/
def linesText (lines : List String) : String := String.join (lines.map (· ++ "\n"))

/-- What is printed of expanded tags: the tags, and those that were set aside. -/
def expansionText (tags deferred : List String) : String :=
  linesText (joinTags tags :: if deferred.isEmpty then [] else ["deferred: " ++ joinTags deferred])

/-- What is printed of wildcards: each name with the number of its lines. -/
def tableText (table : Table) : String :=
  linesText (table.toList.map fun (name, lines) => name ++ "\t" ++ toString lines.length)

/-- What is printed of a finished prompt: its text, or all that is known of it. -/
def contextText (asJson : Bool) (c : Context) : String :=
  linesText [if asJson then c.toJson.render .indented else c.prompt.getD ""]

/-- What is printed after a script: its output and the variables. -/
def yieldText (y : Script.Yield) : String :=
  y.output ++ linesText (y.vars.toList.map fun (name, tags) => name ++ " = " ++ joinTags tags)

variable {m : Type → Type} [Monad m]

/-- Reads a configuration. -/
def readConfiguration (disk : Disk m) (path : String) : ExceptT Failure m Configuration := do
  let text := (← disk.read path).bind Text.decode?
  match text.map Configuration.ofText with
  | some (.ok c) => return c
  | _ => throw (.badConfiguration path)

/-- Where the configuration is: where the command line says, or in the default place if there is
one. -/
def configurationPath? (disk : Disk m) (env : Environment) (i : Invocation) : m (Option String) :=
  match i.config, env.defaultConfig with
  | some path, _ => pure (some path)
  | none, some path => do return if ← disk.holds path then some path else none
  | none, none => pure none

/-- Puts what the command line says in place of what a configuration says. -/
def Invocation.override (i : Invocation) (c : Configuration) : Configuration :=
  { c with
    wildcardDirectory := i.wildcards.getD c.wildcardDirectory
    seed := i.seed.or c.seed }

/-- The configuration for a command line. Without a file a directory of wildcards is enough. -/
def resolveConfiguration (disk : Disk m) (env : Environment) (i : Invocation) :
    ExceptT Failure m Configuration := do
  match (← ExceptT.lift (configurationPath? disk env i)), i.wildcards with
  | some path, _ => return i.override (← readConfiguration disk path)
  | none, some directory => return i.override (.ofDirectory directory)
  | none, none => throw .noConfiguration

/-- Expands the wildcards in a list of tags. -/
def runExpand (disk : Disk m) (env : Environment) (c : Configuration) (text : String) :
    ExceptT Failure m String := do
  let expander := Environment.expander c (← readWildcards disk c)
  let (tags, x) := expander.expandTags (splitTags text)
    (env.start c (Context.new .initial c.settings))
  return expansionText tags x.context.deferred

/-- Takes variables from arguments; of two with one name the later counts. -/
def readVariables (arguments : List String) : Except Failure Script.TagVariables :=
  ((arguments.mapM readVariable).map Dictionary.ofList).mapError .badVariable

/-- Runs a script over tags. -/
def runScript (disk : Disk m) (env : Environment) (c : Configuration) (file : String)
    (arguments : List String) : ExceptT Failure m String := do
  let source ← readSource disk .script file
  match readVariables arguments with
  | .error e => throw e
  | .ok vars =>
      match (env.runner c).run source vars with
      | .ok y => return yieldText y
      | .error e => throw (.scriptFailed e.message)

/-- Carries out a command: what it prints. -/
def Command.run (disk : Disk m) (env : Environment) (c : Configuration) :
    Command → ExceptT Failure m String
  | expand text => runExpand disk env c text
  | process request session asJson =>
      contextText asJson <$> processFile disk env c request session
  | list => tableText <$> readWildcards disk c
  | script file arguments => runScript disk env c file arguments

/-- Does what a command line asks for. -/
def Invocation.run (disk : Disk m) (env : Environment) (i : Invocation) :
    ExceptT Failure m String := do
  i.command.run disk env (← resolveConfiguration disk env i)

/-- Runs the program. -/
def runProgram (disk : Disk m) (env : Environment) (arguments : List String) : m Ending :=
  match Invocation.ofArguments arguments with
  | .error refusal => pure refusal.ending
  | .ok i => Ending.ofResult <$> (i.run disk env).run

end PromptWeave.CommandLine
