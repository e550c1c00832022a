import PromptWeave.Script.Fault
import PromptWeave.Text.Casing
import PromptWeave.Text.Pieces

/-!
# Words that scripts must not hold

A script that mentions access to its host is turned away before it is read.
-/
namespace PromptWeave.Script

/-- The texts that must not occur in a script, whatever the case of its letters. -/
def deniedWords : List String := [
  "import os", "import sys", "import subprocess", "__import__", "open(", "exec(", "eval(",
  "compile(", "getattr(", "setattr(", "delattr(", "globals(", "locals(", "vars(", "exit(", "quit(",
  "os.system", "subprocess", "__builtins__", "__class__", "__subclasses__"]

/-- The first of the denied texts that occurs in a script. -/
def deniedWord? (source : String) : Option String :=
  let lowered := Text.toLowercase source
  deniedWords.find? (Text.occursIn · lowered)

/-- Turns away a script with a denied text. -/
def screen (source : String) : Except ScriptError Unit :=
  match deniedWord? source with
  | some word => .error (.denied word)
  | none => .ok ()

end PromptWeave.Script
