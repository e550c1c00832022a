import PromptWeave.CommandLine.Request

/-!
# Failures

Why a command has failed, and what is said about it.
-/
namespace PromptWeave.CommandLine

/-- The documents and scripts that commands read. -/
inductive Source where
  | request
  | session
  | script
  deriving Repr, DecidableEq

/-- The word for a source. -/
def Source.word : Source → String
  | request => "request"
  | session => "session"
  | script => "script"

/-- Why a command has failed. -/
inductive Failure where
  /-- Neither a configuration nor a directory of wildcards is known. -/
  | noConfiguration
  | badConfiguration (path : String)
  | badWildcards (directory : String)
  /-- A file is not there or is no text. -/
  | unreadable (source : Source) (path : String)
  /-- A document is not what it has to be. -/
  | invalid (source : Source) (path : String)
  | unwritableSession (path : String)
  /-- A script of a request is for a point that there is not. -/
  | badPoint (index : Nat)
  | badVariable (flaw : VariableFlaw)
  /-- A script has failed; the text says why. -/
  | scriptFailed (text : String)
  deriving Repr, DecidableEq

/-- A text in single quotes. -/
def quoted (s : String) : String := "'" ++ s ++ "'"

/-- The wording of a flaw. -/
def VariableFlaw.message : VariableFlaw → String
  | noTags argument => "Expected NAME=TAGS, got " ++ quoted argument
  | noName argument => "Variable name must not be empty in " ++ quoted argument

namespace Failure

/-- The wording of a failure. -/
def message : Failure → String
  | noConfiguration => "No config file found; pass --config or --wildcards <DIR>"
  | badConfiguration path => "Failed to load config " ++ quoted path
  | badWildcards directory => "Failed to load wildcards from " ++ quoted directory
  | unreadable source path => "Failed to read " ++ source.word ++ " " ++ quoted path
  | invalid source path => "Invalid " ++ source.word ++ " JSON in " ++ quoted path
  | unwritableSession path => "Failed to write session " ++ quoted path
  | badPoint index => "Script #" ++ toString index ++ " has an invalid hook point"
  | badVariable flaw => flaw.message
  | scriptFailed _ => "Script failed"

/-- What is printed before a failure: that of a script is the output of the command. -/
def output : Failure → String
  | scriptFailed text => text
  | _ => ""

end Failure
end PromptWeave.CommandLine
