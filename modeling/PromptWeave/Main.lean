import PromptWeave.CommandLine.Commands

/-!
# The program

The disk of the computer, the variables of the environment, and the streams.
-/
namespace PromptWeave

open PromptWeave.CommandLine (Environment)
open PromptWeave.Files (Bytes Disk)

/-- Whether an action works. -/
def succeeds (action : IO Unit) : IO Bool :=
  tryCatch (do action; return true) fun _ => return false

/-- What an action gives, if it works. -/
def attempt? (action : IO α) : IO (Option α) :=
  tryCatch (some <$> action) fun _ => return none

/-- The names of what lies in a directory, in ascending order. -/
def namesIn (directory : String) : IO (List String) := do
  let entries ← ((← IO.currentDir) / directory).readDir
  return (entries.toList.map (·.fileName)).mergeSort fun a b => a ≤ b

/-- Whether a directory lies at a path. -/
def isDirectory (path : String) : IO Bool := do ((← IO.currentDir) / path).isDir

/-- The files below a directory; `shown` comes before their names. What cannot be read is passed
over. -/
partial def filesBelow (directory shown : String) : IO (List (String × Bytes)) := do
  let found ← (← namesIn directory).mapM fun name => do
    let path := directory ++ "/" ++ name
    if ← isDirectory path then
      return (← attempt? (filesBelow path (shown ++ name ++ "/"))).getD []
    else
      return ((← attempt? (IO.FS.readBinFile path)).map fun bytes =>
        (shown ++ name, bytes.toList)).toList
  return found.flatten

/-- The disk of the computer. -/
def computerDisk : Disk IO where
  holds path := do ((← IO.currentDir) / path).pathExists
  read path := do return (← attempt? (IO.FS.readBinFile path)).map (·.toList)
  write path bytes := succeeds (IO.FS.writeBinFile path ⟨bytes.toArray⟩)
  makeDirectory path := do
    if ← isDirectory path then return true
    else succeeds (IO.FS.createDirAll path)
  filesIn path := attempt? (filesBelow path "")

/-- The directory for configurations: the one that is set, or the usual one in the home directory. -/
def configDirectory? : IO (Option String) := do
  match ← IO.getEnv "XDG_CONFIG_HOME" with
  | some directory =>
      if directory.startsWith "/" then return some directory
      else inHome
  | none => inHome
where
  /-- The usual directory. -/
  inHome : IO (Option String) := do return (← IO.getEnv "HOME").map (· ++ "/.config")

/-- What the program finds around it. -/
def findEnvironment : IO Environment := do
  let bytes ← IO.getRandomBytes 8
  return {
    defaultConfig := (← configDirectory?).map (· ++ "/wildprompt/config.json")
    entropy := bytes.toList.foldl (fun n b => n * 256 + b.toUInt64) 0 }

end PromptWeave

/-- Runs the program. -/
def main (arguments : List String) : IO UInt32 := do
  let environment ← PromptWeave.findEnvironment
  let ending ← PromptWeave.CommandLine.runProgram PromptWeave.computerDisk environment arguments
  (← IO.getStdout).putStr ending.output
  (← IO.getStderr).putStr ending.complaint
  return UInt32.ofNat ending.code
