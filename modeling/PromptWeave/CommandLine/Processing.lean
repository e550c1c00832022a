import PromptWeave.CommandLine.Failure
import PromptWeave.Configuration
import PromptWeave.Files.Disk
import PromptWeave.Prompt.Processing
import PromptWeave.Prompt.ScriptHook
import PromptWeave.Text.Utf8
import PromptWeave.Wildcard.Store

/-!
# Processing requests

A request is taken through the pipeline with the wildcards of a directory. If it is part of a session
the session is read from a file before and written back to it afterwards; a failure before the
pipeline leaves the file as it is.
-/
namespace PromptWeave.CommandLine

open PromptWeave.Files (Disk)
open PromptWeave.Prompt
open PromptWeave.Random (Generator)
open PromptWeave.Script (Runner)
open PromptWeave.Wildcard (Chooser Expander Expansion Store Table)

/-- What the program finds around it. -/
structure Environment where
  /-- Where the configuration is unless another place is given. -/
  defaultConfig : Option String
  /-- The seed of random choices where none is set. -/
  entropy : UInt64

namespace Environment

/-- The seed of random choices. -/
def seedFor (env : Environment) (c : Configuration) : UInt64 := c.seed.getD env.entropy

/-- What runs scripts. -/
def runner (env : Environment) (c : Configuration) : Runner := ⟨c.limits, env.seedFor c⟩

/-- What expands wildcards by chance. -/
def expander (c : Configuration) (table : Table) : Expander Generator :=
  ⟨table, .random, c.maxDepth⟩

/-- The start of an expansion. -/
def start (env : Environment) (c : Configuration) (context : Context) : Expansion Generator :=
  ⟨context, .ofSeed (env.seedFor c), []⟩

end Environment

/-- The hook for a script of a request; `index` is its place among them. -/
def scriptHook (runner : Runner) (index : Nat) (s : ScriptRequest) : Except Failure Hook :=
  match HookPoint.ofName? s.point with
  | .error _ => .error (.badPoint index)
  | .ok point =>
      .ok ⟨pipelineName, point, s.priority.getD defaultPriority, scriptHandler runner s.source⟩

/-- Registers the scripts of a request from the one with the given index on. -/
def registerScripts (runner : Runner) :
    (index : Nat) → List ScriptRequest → Registry → Except Failure Registry
  | _, [], r => .ok r
  | index, s :: rest, r =>
      match scriptHook runner index s with
      | .error e => .error e
      | .ok hook => registerScripts runner (index + 1) rest (r.register hook)

namespace Request

/-- The prompt that a request begins with. -/
def start (r : Request) (c : Configuration) (session : Session) : Context :=
  ((Context.new r.row (r.settings.getD c.settings)).withText r.leading r.main
    r.trailing).withSession session

/-- Takes a request through the pipeline. -/
def run (r : Request) (env : Environment) (c : Configuration) (table : Table) (hooks : Registry)
    (session : Session) : Context :=
  let processor : Processor Generator := ⟨Environment.expander c table, hooks⟩
  (processor.process (env.start c (r.start c session))).context

end Request

variable {m : Type → Type} [Monad m]

/-- Reads a text. -/
def readSource (disk : Disk m) (source : Source) (path : String) : ExceptT Failure m String := do
  match (← disk.read path).bind Text.decode? with
  | some text => return text
  | none => throw (.unreadable source path)

/-- Reads a document. -/
def readDocument (disk : Disk m) (source : Source) (decode : Json.Decoder α) (path : String) :
    ExceptT Failure m α := do
  match Json.decodeDocument? decode (← readSource disk source path) with
  | some a => return a
  | none => throw (.invalid source path)

/-- Reads the wildcards of a directory. -/
def readWildcards (disk : Disk m) (c : Configuration) : ExceptT Failure m Table := do
  match ← ExceptT.lift ((Store.new c.wildcardDirectory).load disk) with
  | (.ok _, store) => return store.table
  | (.error _, _) => throw (.badWildcards c.wildcardDirectory)

/-- Reads the session in a file; where there is no file it has not begun. -/
def readSession (disk : Disk m) (path : String) : ExceptT Failure m Session := do
  if ← disk.holds path then readDocument disk .session Session.decode path
  else return .initial

/-- The text of a session. -/
def sessionText (s : Session) : String := s.toJson.render .indented

/-- Writes a session to a file. -/
def writeSession (disk : Disk m) (path : String) (s : Session) : ExceptT Failure m Unit := do
  unless ← disk.write path (Text.encode (sessionText s)) do throw (.unwritableSession path)

/-- Processes the request in a file and carries on the session in another file, if there is one. -/
def processFile (disk : Disk m) (env : Environment) (c : Configuration) (request : String)
    (session : Option String) : ExceptT Failure m Context := do
  let r ← readDocument disk .request Request.decode request
  let table ← readWildcards disk c
  let hooks ← liftExcept (registerScripts (env.runner c) 0 r.scripts .empty)
  match session with
  | none => return r.run env c table hooks .initial
  | some path =>
      let context := r.run env c table hooks (← readSession disk path)
      writeSession disk path context.session
      return context

end PromptWeave.CommandLine
