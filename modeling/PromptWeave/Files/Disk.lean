import PromptWeave.Files.FileTree

/-!
# Disks

What the program does with files. A disk may be the one of the computer or a tree of files that is
kept as a value.
-/
namespace PromptWeave.Files

/-- What can be done with a disk. Each operation tells whether it has worked. -/
structure Disk (m : Type → Type) where
  /-- Whether a file or a directory lies at a path. -/
  holds : String → m Bool
  /-- The bytes of the file at a path. -/
  read : String → m (Option Bytes)
  /-- Writes a file, in place of an earlier one. -/
  write : String → Bytes → m Bool
  /-- Makes a directory and those that lead to it, as far as they are not there. -/
  makeDirectory : String → m Bool
  /-- The files that lie in a directory, by their paths from it, in ascending order within each
  directory. -/
  filesIn : String → m (Option (List (String × Bytes)))

/-- Keeps the tree that an operation gives, if it has worked. -/
def keepIfDone (change : FileTree → Option FileTree) : StateM FileTree Bool := fun t =>
  match change t with
  | some t => (true, t)
  | none => (false, t)

/-- The disk that is a tree of files. -/
def FileTree.disk : Disk (StateM FileTree) where
  holds path := fun t => ((t.entry? path).isSome, t)
  read path := fun t => (t.read? path, t)
  write path bytes := keepIfDone (·.write? path bytes)
  makeDirectory path := keepIfDone (·.makeDirectory? path)
  filesIn path := fun t => (if t.isDirectory path then some (t.filesIn path) else none, t)

end PromptWeave.Files
