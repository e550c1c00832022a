import PromptWeave.CommandLine.Arguments

/-!
# What a command line asks for

A command line names one command. Some options are for every command; they may stand before its name
or after it, and after it they win.
-/
namespace PromptWeave.CommandLine

/-- What is to be done. -/
inductive Command where
  /-- Expands the wildcards in a list of tags. -/
  | expand (text : String)
  /-- Makes a prompt of a request, which may be part of a session. -/
  | process (request : String) (session : Option String) (asJson : Bool)
  /-- Lists the wildcards. -/
  | list
  /-- Runs a script over tags. -/
  | script (file : String) (tags : List String)
  deriving Repr, DecidableEq

/-- The names of commands. -/
inductive CommandName where
  | expand
  | process
  | list
  | script
  deriving Repr, DecidableEq

/-- What a command line asks for. -/
structure Invocation where
  /-- Where the configuration is. -/
  config : Option String
  /-- Where the wildcards are, whatever the configuration says. -/
  wildcards : Option String
  /-- The seed of random choices, whatever the configuration says. -/
  seed : Option UInt64
  command : Command
  deriving Repr, DecidableEq

/-- The options that are for every command. -/
def commonSettings : List Setting := [.config, .wildcards, .seed, .verbose, .help]

/-- The name of the command that tells how the program is used. -/
def helpCommand : String := "help"

namespace CommandName

/-- The name of a command as it is written. -/
def text : CommandName → String
  | expand => "expand"
  | process => "process"
  | list => "list"
  | script => "script"

/-- All commands. -/
def all : List CommandName := [expand, process, list, script]

/-- The command that a text names. -/
def ofText? (s : String) : Option CommandName := all.find? (·.text == s)

/-- What a command takes. -/
def signature : CommandName → Signature
  | expand => ⟨commonSettings, 1, []⟩
  | process => ⟨commonSettings ++ [.request, .session, .json], 0, []⟩
  | list => ⟨commonSettings, 0, []⟩
  | script => ⟨commonSettings ++ [.file, .tags], 0, []⟩

/-- The command that is meant, if all that it needs has been given. -/
def command? (name : CommandName) (g : Given) : Option Command :=
  match name with
  | expand => g.texts.head?.map .expand
  | process =>
      (g.value? .request).map fun request => .process request (g.value? .session) (g.has .json)
  | list => some .list
  | script => (g.value? .file).map fun file => .script file (g.values .tags)

end CommandName

/-- What the program takes before the name of a command. -/
def programSignature : Signature :=
  ⟨commonSettings ++ [.version], 0, helpCommand :: CommandName.all.map CommandName.text⟩

namespace Invocation

/-- The value of an option; one after the name of the command wins. -/
def latest? (outer inner : Given) (s : Setting) : Option String :=
  (inner.value? s).or (outer.value? s)

/-- What is asked for by a command with its arguments, when `outer` has been given before it. -/
def ofCommand (outer : Given) (name : CommandName) (arguments : List String) :
    Except Refusal Invocation := do
  let (inner, _) ← name.signature.read .empty arguments
  match name.command? inner with
  | none => .error .misuse
  | some command =>
      return {
        config := latest? outer inner .config
        wildcards := latest? outer inner .wildcards
        seed := (latest? outer inner .seed).bind readWord?
        command }

/-- Why no command is carried out when help is asked for by name. -/
def helpRefusal : (topics : List String) → Refusal
  | [] => .helpWanted
  | topic :: _ => if programSignature.commands.contains topic then .helpWanted else .misuse

/-- What the arguments of the program ask for. -/
def ofArguments (arguments : List String) : Except Refusal Invocation := do
  match ← programSignature.read .empty arguments with
  | (_, none) => .error .misuse
  | (outer, some (name, rest)) =>
      match CommandName.ofText? name with
      | some name => ofCommand outer name rest
      | none => .error (helpRefusal rest)

end Invocation
end PromptWeave.CommandLine
