import PromptWeave.Dictionary

/-!
# Trees of files

Files and directories under one root, by path. What lies in a directory has the path of the directory
in front of its own.
-/
namespace PromptWeave.Files

/-- The bytes of a file. -/
abbrev Bytes := List UInt8

/-- What lies at a path. -/
inductive Entry where
  | file (bytes : Bytes)
  | directory
  deriving Repr, DecidableEq

/-- The names of a path, from the root on. A point stands for the directory itself and two points for
the one around it. -/
def pathNames (path : String) : List String :=
  (((path.toList.splitOnP (· == '/')).map String.ofList).foldl step []).reverse
where
  /-- Takes one name; `names` holds those before it, back to front. -/
  step (names : List String) (name : String) : List String :=
    if name.isEmpty || name == "." then names
    else if name == ".." then names.drop 1
    else name :: names

/-- The path of names from the root on. -/
def joinNames (names : List String) : String := "/".intercalate names

/-- Files and directories by path. The root, whose path is empty, is always a directory. -/
structure FileTree where
  entries : Dictionary Entry
  /-- The directory from which paths without a slash in front of them lead on. -/
  current : String

namespace FileTree

/-- A tree without files. -/
def empty : FileTree := ⟨.empty, ""⟩

instance : Inhabited FileTree := ⟨empty⟩

/-- The path from the root to which a path leads. -/
def resolve (t : FileTree) (path : String) : String :=
  joinNames (pathNames (if path.startsWith "/" then path else t.current ++ "/" ++ path))

/-- What lies at a path. -/
def entry? (t : FileTree) (path : String) : Option Entry :=
  let path := t.resolve path
  if path.isEmpty then some .directory else t.entries.get? path

/-- Whether a directory lies at a path. -/
def isDirectory (t : FileTree) (path : String) : Bool := t.entry? path == some .directory

/-- The bytes of the file at a path. -/
def read? (t : FileTree) (path : String) : Option Bytes :=
  match t.entry? path with
  | some (.file bytes) => some bytes
  | _ => none

/-- The paths of the directories that lead to a path, the path among them, from the root on. -/
def pathsTo (path : String) : List String :=
  let names := pathNames path
  (List.range names.length).map fun i => joinNames (names.take (i + 1))

/-- Makes a directory and those that lead to it, unless a file is in the way. -/
def makeDirectory? (t : FileTree) (path : String) : Option FileTree :=
  (pathsTo (t.resolve path)).foldlM
    (fun t path =>
      match t.entries.get? path with
      | none => some { t with entries := t.entries.insert path .directory }
      | some .directory => some t
      | some (.file _) => none)
    t

/-- The directory in which a path from the root lies. -/
def parent (path : String) : String := joinNames (pathNames path).dropLast

/-- Writes a file into a directory that is there, in place of an earlier file. -/
def write? (t : FileTree) (path : String) (bytes : Bytes) : Option FileTree :=
  let path := t.resolve path
  let into := parent path
  if path.isEmpty || t.entries.get? path == some .directory then none
  else if into.isEmpty || t.entries.get? into == some .directory then
    some { t with entries := t.entries.insert path (.file bytes) }
  else none

/-- Whether a path from the root lies in a directory. -/
def liesIn (directory path : String) : Bool := path.startsWith (directory ++ "/")

/-- Removes what lies at a path, a directory with all that lies in it. -/
def remove (t : FileTree) (path : String) : FileTree :=
  let path := t.resolve path
  { t with
    entries := t.entries.filterMap fun other e =>
      if other == path || liesIn path other then none else some e }

/-- Whether names come no later than others: the first that differ decide, and before longer ones
come those with which they begin. -/
def namesInOrder : List String → List String → Bool
  | [], _ => true
  | _ :: _, [] => false
  | a :: as, b :: bs => if a = b then namesInOrder as bs else a < b

/-- Whether a file comes no later than another. -/
def inOrder (a b : String × Bytes) : Bool := namesInOrder (pathNames a.1) (pathNames b.1)

/-- The files that lie in a directory, by their paths from it, in ascending order within each
directory. -/
def filesIn (t : FileTree) (directory : String) : List (String × Bytes) :=
  let directory := t.resolve directory
  let files := t.entries.toList.filterMap fun (path, e) =>
    match e with
    | .file bytes =>
        if directory.isEmpty then some (path, bytes)
        else if liesIn directory path then
          some (String.ofList (path.toList.drop (directory.length + 1)), bytes)
        else none
    | .directory => none
  files.mergeSort inOrder

end FileTree
end PromptWeave.Files
