import PromptWeave.Files.Disk
import PromptWeave.Text.Blank
import PromptWeave.Text.Pieces
import PromptWeave.Text.Utf8
import PromptWeave.Wildcard.Table

/-!
# Wildcards in files

Every text file in a directory is a wildcard. It has the name of the file with its path, and its
lines are those of the file. The table of a store changes only as a whole.
-/
namespace PromptWeave.Wildcard

open PromptWeave.Files (Bytes Disk)

/-- Cuts the name of a file at its last point. A point that comes first does not count. -/
def splitExtension? (name : String) : Option (String × String) :=
  let cs := name.toList
  let tail := (cs.reverse.takeWhile (· != '.')).reverse
  let stem := cs.take (cs.length - tail.length - 1)
  if cs.contains '.' && !stem.isEmpty then some (String.ofList stem, String.ofList tail) else none

/-- The name of the wildcard in a file, if the file is one: its path without the extension. What is
left of the file's own name does not count if it would stand for a directory. -/
def wildcardName? (path : String) : Option String := do
  let names := (path.toList.splitOnP (· == '/')).map String.ofList
  let (stem, extension) ← splitExtension? (← names.getLast?)
  if extension.map Char.toLower != "txt" then none
  let own := if stem == "." || stem == ".." then [] else [stem]
  let name := "/".intercalate (names.dropLast ++ own)
  if name.isEmpty then none else some name

/-- Whether a character ends a line. -/
def isLineFeed (c : Char) : Bool := c == '\n'

/-- The lines of a file that are not blank, without the blanks around them. -/
def linesOf (bytes : Bytes) : List String :=
  ((Text.piecesAt isLineFeed (Text.decodeLossy bytes).toList).map fun cs =>
    Text.trim (String.ofList cs)).filter fun line => !line.isEmpty

/-- The wildcards in files. -/
def Table.ofFiles (files : List (String × Bytes)) : Table :=
  .ofList (files.filterMap fun (path, bytes) =>
    (wildcardName? path).map fun name => (name, linesOf bytes))

/-- Why a directory could not be read. -/
inductive LoadError where
  /-- The directory is not there and cannot be made. -/
  | noDirectory (path : String)
  | unreadable (path : String)
  deriving Repr, DecidableEq

/-- The wildcards of a directory and the listeners that are told of reloads. -/
structure Store where
  root : String
  table : Table
  /-- How many listeners there are; they are numbered from zero. -/
  listeners : Nat

namespace Store

/-- A store that has read nothing. -/
def new (root : String) : Store := ⟨root, .empty, 0⟩

/-- A store over wildcards in memory. -/
def withTable (root : String) (table : Table) : Store := { new root with table }

/-- The table as it is now. -/
def snapshot (s : Store) : Table := s.table

/-- The lines of a wildcard. -/
def get? (s : Store) (name : String) : Option (List String) := s.snapshot.get? name

/-- The names of the wildcards in ascending order. -/
def names (s : Store) : List String := s.snapshot.names

/-- The number of wildcards. -/
def size (s : Store) : Nat := s.snapshot.size

/-- Whether there are no wildcards. -/
def isEmpty (s : Store) : Bool := s.size == 0

variable {m : Type → Type} [Monad m]

/-- Reads the directory, which is made if it is not there. -/
def scan (disk : Disk m) (root : String) : m (Except LoadError Table) := do
  if ← disk.makeDirectory root then
    match ← disk.filesIn root with
    | some files => return .ok (.ofFiles files)
    | none => return .error (.unreadable root)
  else return .error (.noDirectory root)

/-- Reads the directory anew: the number of wildcards, and the store with their table. If that fails
the table stays as it is. -/
def load (disk : Disk m) (s : Store) : m (Except LoadError Nat × Store) := do
  match ← scan disk s.root with
  | .ok table => return (.ok table.size, { s with table })
  | .error e => return (.error e, s)

/-- Adds a listener: its number, and the store. -/
def listen (s : Store) : Nat × Store := (s.listeners, { s with listeners := s.listeners + 1 })

/-- What the listeners are told: each hears the number of wildcards. -/
def notices (s : Store) (count : Nat) : List (Nat × Nat) :=
  (List.range s.listeners).map (·, count)

/-- Reads the directory anew and tells the listeners, unless it fails. -/
def reload (disk : Disk m) (s : Store) : m (Except LoadError Nat × List (Nat × Nat) × Store) := do
  match ← s.load disk with
  | (.ok count, s) => return (.ok count, s.notices count, s)
  | (.error e, s) => return (.error e, [], s)

end Store
end PromptWeave.Wildcard
