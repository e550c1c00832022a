import Mathlib.Data.Finset.Card
import PromptWeave.Proofs.Files.Listing
import PromptWeave.Proofs.Wildcard.Scans

/-!
# The text files of a directory

A store reads the text files in its directory and binds the lines of each to the path without the
extension. What is bound for one file can be what another is called, so files can be lost. This cannot
happen exactly if no two of them differ in the case of the extension alone and none is called like a
directory.

Main statements: `wildcardName?_path`, `each_text_file_has_its_entry_iff`.
-/
namespace PromptWeave.Wildcard

open PromptWeave.Files

/-! ### The last point of a name -/

/-- A point with none behind it is the last one. -/
theorem splitExtension?_ofList (front : List Char) {tail : List Char} (htail : '.' ∉ tail) :
    splitExtension? (String.ofList (front ++ '.' :: tail)) =
      if front = [] then none else some (String.ofList front, String.ofList tail) := by
  have hkeep : ∀ c ∈ tail.reverse, (c != '.') = true := by
    intro c hc
    rw [bne_iff_ne]
    rintro rfl
    exact htail (List.mem_reverse.1 hc)
  have hback : ((front ++ '.' :: tail).reverse.takeWhile (· != '.')).reverse = tail := by
    rw [List.reverse_append, List.reverse_cons, List.append_assoc,
      List.takeWhile_append_of_pos hkeep]
    simp
  have hlength : (front ++ '.' :: tail).length - tail.length - 1 = front.length := by
    simp
    omega
  have hstem : (front ++ '.' :: tail).take
      ((front ++ '.' :: tail).length - tail.length - 1) = front := by
    rw [hlength, List.take_left]
  simp only [splitExtension?, String.toList_ofList, hback, hstem]
  cases front <;> simp

/-- A text with a point, cut at the last one. -/
theorem exists_eq_append_point {name : String} (h : '.' ∈ name.toList) :
    ∃ front tail, name = String.ofList (front ++ '.' :: tail) ∧ '.' ∉ tail := by
  obtain ⟨tail, front, hname, htail⟩ := List.eq_append_cons_of_mem (List.mem_reverse.2 h)
  refine ⟨front.reverse, tail.reverse, ?_, by simpa using htail⟩
  apply String.toList_injective
  rw [String.toList_ofList, ← List.reverse_reverse name.toList, hname]
  simp

/-- A name is cut at its last point, if it has something in front of that. -/
theorem splitExtension?_eq_some_iff {name stem extension : String} :
    splitExtension? name = some (stem, extension) ↔
      stem ≠ "" ∧ '.' ∉ extension.toList ∧ name = stem ++ "." ++ extension := by
  have hchars (stem extension : String) :
      stem ++ "." ++ extension = String.ofList (stem.toList ++ '.' :: extension.toList) := by
    apply String.toList_injective
    simp
  rw [hchars]
  constructor
  · intro h
    by_cases hpoint : '.' ∈ name.toList
    · obtain ⟨front, tail, rfl, htail⟩ := exists_eq_append_point hpoint
      rw [splitExtension?_ofList _ htail] at h
      split at h
      case isTrue => cases h
      case isFalse hfront =>
        obtain ⟨rfl, rfl⟩ := Prod.mk.inj (Option.some.inj h)
        simpa using ⟨hfront, htail⟩
    · simp [splitExtension?, hpoint] at h
  · rintro ⟨hstem, htail, rfl⟩
    have hfront : stem.toList ≠ [] := by simpa using hstem
    rw [splitExtension?_ofList _ htail, if_neg hfront, String.ofList_toList, String.ofList_toList]

/-! ### Text files -/

/-- A text file in a directory: the directories that lead to it from there, what its name is up to the
last point and behind it, and its bytes. -/
structure TextFile where
  directories : List String
  stem : String
  extension : String
  bytes : Bytes
  areNames : AreNames directories
  stem_ne_empty : stem ≠ ""
  stem_noSlash : '/' ∉ stem.toList
  isText : extension.map Char.toLower = "txt"
  deriving DecidableEq

namespace TextFile

/-- The name of the file in its own directory. -/
def ownName (f : TextFile) : String := f.stem ++ "." ++ f.extension

/-- The path of the file. -/
def path (f : TextFile) : String := joinNames (f.directories ++ [f.ownName])

/-- The path of the file without its extension. -/
def name (f : TextFile) : String := joinNames (f.directories ++ [f.stem])

/-- The lines of the file that are not blank, without the blanks around them. Bytes that are no text are
replaced. -/
def lines (f : TextFile) : List String :=
  (((Text.decodeLossy f.bytes).toList.splitOn '\n').map fun cs =>
    Text.trim (String.ofList cs)).filter (· ≠ "")

/-- Whether the stem of a file is what a directory is called in a path. -/
def StandsForDirectory (f : TextFile) : Prop := f.stem = "." ∨ f.stem = ".."

instance (f : TextFile) : Decidable f.StandsForDirectory := inferInstanceAs (Decidable (_ ∨ _))

/-- The names under which a store keeps the lines of a file. -/
def tableNames (f : TextFile) : List String :=
  f.directories ++ if f.StandsForDirectory then [] else [f.stem]

/-- The name under which a store keeps the lines of a file. -/
def tableName? (f : TextFile) : Option String :=
  if f.tableNames = [] then none else some (joinNames f.tableNames)

variable (f : TextFile)

theorem not_mem_extension {c : Char} (h : c.toLower ≠ 't') (h' : c.toLower ≠ 'x') :
    c ∉ f.extension.toList := by
  intro hc
  have hlower : c.toLower ∈ (f.extension.map Char.toLower).toList := by
    rw [String.toList_map]
    exact List.mem_map_of_mem hc
  rw [f.isText] at hlower
  have htxt : "txt".toList = ['t', 'x', 't'] := rfl
  simp [htxt, h, h'] at hlower

theorem ownName_noSlash : '/' ∉ f.ownName.toList := by
  have hslash := f.not_mem_extension (c := '/') (by decide) (by decide)
  simp [ownName, f.stem_noSlash, hslash]

theorem splitExtension?_ownName : splitExtension? f.ownName = some (f.stem, f.extension) :=
  splitExtension?_eq_some_iff.2
    ⟨f.stem_ne_empty, f.not_mem_extension (by decide) (by decide), rfl⟩

theorem splitPath_path : splitPath f.path = f.directories ++ [f.ownName] := by
  refine splitPath_joinNames (fun name hname => ?_) (by simp)
  rcases List.mem_append.1 hname with hname | hname
  · exact f.areNames.noSlash name hname
  · obtain rfl := List.mem_singleton.1 hname
    exact f.ownName_noSlash

theorem isName_stem (h : ¬ f.StandsForDirectory) : IsName f.stem :=
  ⟨f.stem_ne_empty, fun hpoint => h (.inl hpoint), fun hpoints => h (.inr hpoints), f.stem_noSlash⟩

theorem areNames_tableNames : AreNames f.tableNames := by
  rw [tableNames]
  split
  case isTrue => simpa using f.areNames
  case isFalse h =>
    refine f.areNames.append fun name hname => ?_
    obtain rfl := List.mem_singleton.1 hname
    exact f.isName_stem h

end TextFile

theorem wildcardName?_eq (path : String) : wildcardName? path = (do
    let (stem, extension) ← splitExtension? (← (splitPath path).getLast?)
    if extension.map Char.toLower != "txt" then none
    let own := if stem == "." || stem == ".." then [] else [stem]
    let name := joinNames ((splitPath path).dropLast ++ own)
    if name.isEmpty then none else some name) := rfl

/-- The wildcard in a text file has the name under which a store keeps it. -/
theorem wildcardName?_path (f : TextFile) : wildcardName? f.path = f.tableName? := by
  rw [wildcardName?_eq, f.splitPath_path]
  have htable : (f.directories ++ if f.stem = "." ∨ f.stem = ".." then [] else [f.stem]) =
      f.tableNames := rfl
  simp [f.splitExtension?_ownName, f.isText, TextFile.tableName?, htable,
    f.areNames_tableNames.joinNames_eq_empty_iff]

namespace TextFile

/-- The text file that a file is, if it is one. -/
def of? (file : String × Bytes) : Option TextFile := do
  let names := splitPath file.1
  let (stem, extension) ← splitExtension? (← names.getLast?)
  if h : (AreNames names.dropLast ∧ stem ≠ "") ∧ '/' ∉ stem.toList ∧
      extension.map Char.toLower = "txt" then
    some ⟨names.dropLast, stem, extension, file.2, h.1.1, h.1.2, h.2.1, h.2.2⟩
  else none

theorem of?_eq_some_iff {file : String × Bytes} {f : TextFile} :
    of? file = some f ↔ file = (f.path, f.bytes) := by
  constructor
  · intro h
    obtain ⟨own, hown, h⟩ := Option.bind_eq_some_iff.1 h
    obtain ⟨⟨stem, extension⟩, hsplit, h⟩ := Option.bind_eq_some_iff.1 h
    obtain ⟨-, -, hjoin⟩ := splitExtension?_eq_some_iff.1 hsplit
    obtain ⟨hfile, hsome⟩ := Option.dite_none_right_eq_some.1 h
    obtain rfl := Option.some.inj hsome
    have hnames : splitPath file.1 = (splitPath file.1).dropLast ++ [own] := by
      obtain ⟨front, hfront⟩ := List.getLast?_eq_some_iff.1 hown
      rw [hfront, List.dropLast_concat]
    refine Prod.ext ?_ rfl
    rw [path, ownName, ← hjoin, ← hnames, joinNames_splitPath]
  · rintro rfl
    have hfile : (AreNames f.directories ∧ f.stem ≠ "") ∧ '/' ∉ f.stem.toList ∧
        f.extension.map Char.toLower = "txt" :=
      ⟨⟨f.areNames, f.stem_ne_empty⟩, f.stem_noSlash, f.isText⟩
    simp [of?, f.splitPath_path, f.splitExtension?_ownName, hfile]

/-- What is no text file is no wildcard. -/
theorem wildcardName?_eq_none {file : String × Bytes} (h : of? file = none) (hpath : IsPath file.1) :
    wildcardName? file.1 = none := by
  obtain ⟨names, hne, hnames, hjoin⟩ := hpath
  obtain ⟨directories, own, rfl⟩ : ∃ directories own, names = directories ++ [own] :=
    ⟨_, _, (List.dropLast_append_getLast hne).symm⟩
  have hpath : splitPath file.1 = directories ++ [own] := by
    rw [hjoin, splitPath_joinNames hnames.noSlash hne]
  have hunfold := wildcardName?_eq file.1
  rw [hpath] at hunfold
  cases hsplit : splitExtension? own with
  | none => simpa [hsplit] using hunfold
  | some parts =>
      obtain ⟨stem, extension⟩ := parts
      by_cases htext : extension.map Char.toLower = "txt"
      · obtain ⟨hstem, -, rfl⟩ := splitExtension?_eq_some_iff.1 hsplit
        have hslash : '/' ∉ stem.toList := fun hin =>
          hnames.noSlash (stem ++ "." ++ extension) (by simp) (by simp [hin])
        have hfile : (AreNames directories ∧ stem ≠ "") ∧ '/' ∉ stem.toList ∧
            extension.map Char.toLower = "txt" :=
          ⟨⟨(AreNames.of_append hnames).1, hstem⟩, hslash, htext⟩
        simp [of?, hpath, hsplit, hfile] at h
      · simpa [hsplit, htext] using hunfold

/-! ### Lines -/

theorem linesOf_bytes (f : TextFile) : linesOf f.bytes = f.lines := by
  have hpieces : Text.piecesAt isLineFeed = List.splitOn '\n' := by
    funext cs
    rw [Text.piecesAt_eq_splitOnP, List.splitOn_eq_splitOnP]
    rfl
  rw [linesOf, lines, hpieces]
  congr 1
  funext line
  by_cases hempty : line = "" <;> simp [hempty]

/-! ### Text files in a directory -/

theorem isPath_path (f : TextFile) : IsPath f.path := by
  refine ⟨_, by simp, f.areNames.append fun name hname => ?_, rfl⟩
  obtain rfl := List.mem_singleton.1 hname
  have hlength : 4 ≤ f.ownName.length := by
    have htext : f.extension.length = 3 := by
      rw [← String.length_map, f.isText]
      rfl
    have hpoint : ".".length = 1 := rfl
    simp [ownName, htext, hpoint]
  refine ⟨?_, ?_, ?_, f.ownName_noSlash⟩
  all_goals
    intro heq
    rw [heq] at hlength
    exact absurd hlength (by decide)

end TextFile

variable {t : FileTree} {directory : String}

/-- The text files with lines in a directory, in the order in which they are read. -/
def textFilesIn (t : FileTree) (directory : String) : List TextFile :=
  ((t.filesIn directory).filterMap TextFile.of?).filter (·.lines ≠ [])

theorem mem_textFilesIn_iff (h : t.WellFormed) {f : TextFile} :
    f ∈ textFilesIn t directory ↔
      t.read? ("/" ++ t.resolve directory ++ "/" ++ f.path) = some f.bytes ∧ f.lines ≠ [] := by
  rw [textFilesIn, List.mem_filter, List.mem_filterMap]
  simp only [TextFile.of?_eq_some_iff, exists_eq_right, h.mem_filesIn_iff, f.isPath_path,
    true_and, decide_eq_true_eq]

theorem pairwise_textFilesIn {r : String × Bytes → String × Bytes → Prop}
    (h : (t.filesIn directory).Pairwise r) :
    (textFilesIn t directory).Pairwise fun f g => r (f.path, f.bytes) (g.path, g.bytes) := by
  refine List.Pairwise.filter _ (List.pairwise_filterMap.2 (h.imp ?_))
  intro file other hr f hf g hg
  rw [TextFile.of?_eq_some_iff] at hf hg
  exact hf ▸ hg ▸ hr

/-- Whether files are the text files with lines in a directory, each once and in the order in which they
are read. -/
structure ListsTextFiles (t : FileTree) (directory : String) (files : List TextFile) : Prop where
  mem_iff : ∀ f, f ∈ files ↔
    t.read? ("/" ++ t.resolve directory ++ "/" ++ f.path) = some f.bytes ∧ f.lines ≠ []
  nodup : (files.map TextFile.path).Nodup
  inOrder : files.Pairwise fun f g => FileTree.namesInOrder (f.directories ++ [f.ownName])
    (g.directories ++ [g.ownName])

theorem listsTextFiles_textFilesIn (h : t.WellFormed) :
    ListsTextFiles t directory (textFilesIn t directory) where
  mem_iff _ := mem_textFilesIn_iff h
  nodup := List.pairwise_map.2
    (pairwise_textFilesIn (List.pairwise_map.1 (t.nodup_filesIn directory)))
  inOrder := by
    have hnames (f : TextFile) : pathNames f.path = f.directories ++ [f.ownName] := by
      obtain ⟨names, hne, hnames, hjoin⟩ := f.isPath_path
      have hsplit := congrArg splitPath hjoin
      rw [f.splitPath_path, splitPath_joinNames hnames.noSlash hne] at hsplit
      rw [hjoin, pathNames_joinNames hnames, hsplit]
    refine (pairwise_textFilesIn (t.filesIn_inOrder directory)).imp fun {f g} horder => ?_
    rwa [FileTree.inOrder, hnames, hnames] at horder

/-! ### The table of a directory -/

/-- The table that is made of a directory binds the names of its text files one after the other. -/
theorem entries_ofFiles_filesIn (h : t.WellFormed) :
    (Table.ofFiles (t.filesIn directory)).entries =
      .ofList ((textFilesIn t directory).filterMap fun f => f.tableName?.map (·, f.lines)) := by
  rw [Table.ofFiles, Table.entries_ofList, textFilesIn, List.filter_filterMap,
    List.filter_filterMap, List.filterMap_filterMap]
  congr 1
  -- What is no text file has no name, and what has no lines is left out on both sides.
  refine List.filterMap_congr fun file hfile => ?_
  obtain ⟨path, bytes⟩ := file
  cases hof : TextFile.of? (path, bytes) with
  | none =>
      have hname := TextFile.wildcardName?_eq_none hof (h.mem_filesIn_iff.1 hfile).1
      simp [hname]
  | some f =>
      obtain ⟨rfl, rfl⟩ := Prod.mk.inj (TextFile.of?_eq_some_iff.1 hof)
      have hname := wildcardName?_path f
      have hlines := f.linesOf_bytes
      cases htable : f.tableName? <;> by_cases hempty : f.lines = [] <;>
        simp [hname, hlines, htable, hempty, Option.filter]

theorem filter_bindings (files : List TextFile) (name : String) :
    (files.filterMap fun f => f.tableName?.map (·, f.lines)).filter (·.1 == name) =
      (files.filter (·.tableName? = some name)).map fun f => (name, f.lines) := by
  induction files with
  | nil => rfl
  | cons f rest ih =>
      cases hname : f.tableName? with
      | none => simp [hname, ih]
      | some other => by_cases hsame : other = name <;> simp [hname, hsame, ih]

/-- Whether a table holds the lines of text files, each under the name under which a store keeps them; of
files with one name it holds those of the last. -/
def Holds (table : Table) (files : List TextFile) : Prop := ∀ name, table.get? name =
  ((files.filter (·.tableName? = some name)).getLast?).map TextFile.lines

theorem holds_ofFiles (h : t.WellFormed) :
    Holds (.ofFiles (t.filesIn directory)) (textFilesIn t directory) := by
  intro name
  rw [Table.get?, entries_ofFiles_filesIn h, Dictionary.get?_ofList, filter_bindings,
    List.getLast?_map, Option.map_map]
  rfl

variable {table : Table} {files : List TextFile}

/-- A table that holds text files has as many wildcards as they have names. -/
theorem Holds.size_eq (h : Holds table files) :
    table.size = (files.filterMap TextFile.tableName?).dedup.length := by
  have hnames (name : String) :
      name ∈ table.entries.keys ↔ name ∈ files.filterMap TextFile.tableName? := by
    have hget : table.entries.get? name = _ := h name
    rw [Dictionary.mem_keys_iff, hget, Option.isSome_map, List.getLast?_isSome, ne_eq,
      List.filter_eq_nil_iff]
    simp
  have hperm : table.entries.keys.Perm (files.filterMap TextFile.tableName?).dedup := by
    rw [List.perm_ext_iff_of_nodup table.entries.nodup_keys (List.nodup_dedup _)]
    intro name
    rw [List.mem_dedup, hnames]
  rw [← hperm.length_eq, Dictionary.keys, List.length_map]
  rfl

namespace TextFile

theorem slashFree (f : TextFile) : ∀ name ∈ f.directories ++ [f.stem], '/' ∉ name.toList := by
  intro name hname
  rcases List.mem_append.1 hname with hname | hname
  · exact f.areNames.noSlash name hname
  · exact List.mem_singleton.1 hname ▸ f.stem_noSlash

/-- Files with one name lie in one directory and have one stem. -/
theorem name_eq_iff {f g : TextFile} :
    f.name = g.name ↔ f.directories = g.directories ∧ f.stem = g.stem := by
  rw [name, name, joinNames_inj f.slashFree g.slashFree (by simp) (by simp)]
  simp

/-- What is called like a directory is never kept under its own name. -/
theorem not_standsForDirectory_of_name {f g : TextFile} (h : g.tableName? = some f.name) :
    ¬ f.StandsForDirectory := by
  rw [tableName?] at h
  split at h
  case isTrue => cases h
  case isFalse hne =>
    have hnames : g.tableNames = f.directories ++ [f.stem] :=
      (joinNames_inj g.areNames_tableNames.noSlash f.slashFree hne (by simp)).1
        (Option.some.inj h)
    have hstem : IsName f.stem := g.areNames_tableNames f.stem (by simp [hnames])
    rintro (hpoint | hpoints)
    · exact hstem.ne_point hpoint
    · exact hstem.ne_points hpoints

theorem tableName?_eq {f : TextFile} (h : ¬ f.StandsForDirectory) : f.tableName? = some f.name := by
  have htable : f.tableNames = f.directories ++ [f.stem] := by rw [tableNames, if_neg h]
  rw [tableName?, if_neg (by simp [htable]), htable]
  rfl

end TextFile

/-! ### One entry for each file -/

/-- Whether each of some text files has an entry of its own in a table that has no others. -/
structure OneEntryEach (table : Table) (files : List TextFile) : Prop where
  size : table.size = files.length
  get? : ∀ f ∈ files, table.get? f.name = some f.lines
  apart : ∀ f ∈ files, ∀ g ∈ files, f.name = g.name → f = g

/-- Whether no text file is called like a directory, and no two differ in the case of the extension
alone. -/
structure WellNamed (files : List TextFile) : Prop where
  own : ∀ f ∈ files, ¬ f.StandsForDirectory
  apart : ∀ f ∈ files, ∀ g ∈ files, f.directories = g.directories → f.stem = g.stem → f = g

instance (files : List TextFile) : Decidable (WellNamed files) :=
  decidable_of_iff ((∀ f ∈ files, ¬ f.StandsForDirectory) ∧
      ∀ f ∈ files, ∀ g ∈ files, f.directories = g.directories → f.stem = g.stem → f = g)
    ⟨fun h => ⟨h.1, h.2⟩, fun h => ⟨h.own, h.apart⟩⟩

theorem Holds.oneEntryEach (h : Holds table files) (hnodup : files.Nodup)
    (hnames : WellNamed files) : OneEntryEach table files := by
  have hown : ∀ f ∈ files, f.tableName? = some f.name := fun f hf =>
    TextFile.tableName?_eq (hnames.own f hf)
  have hapart : ∀ f ∈ files, ∀ g ∈ files, f.name = g.name → f = g := by
    intro f hf g hg hname
    obtain ⟨hdirectories, hstem⟩ := TextFile.name_eq_iff.1 hname
    exact hnames.apart f hf g hg hdirectories hstem
  refine ⟨?_, fun f hf => ?_, hapart⟩
  · have hmap : files.filterMap TextFile.tableName? = files.map TextFile.name := by
      rw [List.filterMap_congr hown, List.filterMap_eq_map']
    rw [h.size_eq, hmap, List.dedup_eq_self.2 (hnodup.map_on hapart), List.length_map]
  · rw [h f.name]
    cases hlast : (files.filter (·.tableName? = some f.name)).getLast? with
    | none =>
        have hnil := List.getLast?_eq_none_iff.1 hlast
        have hin : f ∈ files.filter (·.tableName? = some f.name) := by simp [hf, hown f hf]
        exact absurd hin (hnil ▸ List.not_mem_nil)
    | some g =>
        -- The last file of a name is the only one.
        obtain ⟨hg, hname⟩ := List.mem_filter.1 (List.mem_of_getLast? hlast)
        rw [decide_eq_true_eq, hown g hg, Option.some.injEq] at hname
        rw [hapart g hg f hf hname]
        rfl

theorem Holds.wellNamed (h : Holds table files) (hentries : OneEntryEach table files) :
    WellNamed files := by
  refine ⟨fun f hf => ?_, fun f hf g hg hdirectories hstem => ?_⟩
  · -- Some file is kept under the name of this one, so the name does not end like a directory's.
    have hget := hentries.get? f hf
    rw [h f.name, Option.map_eq_some_iff] at hget
    obtain ⟨g, hlast, -⟩ := hget
    obtain ⟨-, hname⟩ := List.mem_filter.1 (List.mem_of_getLast? hlast)
    exact TextFile.not_standsForDirectory_of_name (of_decide_eq_true hname)
  · exact hentries.apart f hf g hg (TextFile.name_eq_iff.2 ⟨hdirectories, hstem⟩)

theorem load_of_wellFormed (h : t.WellFormed) {s : Store} (hroot : t.isDirectory s.root) :
    s.load FileTree.disk t = ((.ok (Table.ofFiles (t.filesIn s.root)).size,
      { s with table := .ofFiles (t.filesIn s.root) }), t) := by
  rw [Store.load_apply, Store.scan_disk, h.makeDirectory?_of_isDirectory hroot]
  simp only [if_pos hroot]

/-- Reading a directory gives a table of the text files in it that have lines, with an entry for each name
under which files are kept, and the number of those names; the tree and the rest of the store stay as they
are. Each file has an entry of its own, under its path without the extension, exactly if no file is called
like a directory and no two differ in the case of the extension alone. -/
theorem each_text_file_has_its_entry_iff {t : FileTree} (h : t.WellFormed) {s : Store}
    (hroot : t.isDirectory s.root) :
    let files := textFilesIn t s.root
    let table := Table.ofFiles (t.filesIn s.root)
    s.load FileTree.disk t = ((.ok table.size, { s with table }), t) ∧
      ListsTextFiles t s.root files ∧ Holds table files ∧
      table.size = (files.filterMap TextFile.tableName?).dedup.length ∧
      (OneEntryEach table files ↔ WellNamed files) := by
  intro files table
  have hlists : ListsTextFiles t s.root files := listsTextFiles_textFilesIn h
  have hholds : Holds table files := holds_ofFiles h
  exact ⟨load_of_wellFormed h hroot, hlists, hholds, hholds.size_eq, hholds.wellNamed,
    hholds.oneEntryEach hlists.nodup.of_map⟩

/-- A file in a directory of its own, one with several points and an extension in capitals whose bytes are
not all text, a blank file, a file with nothing in front of the point, and one of another kind. -/
theorem each_text_file_has_its_entry_iff_hats :
    let t : FileTree :=
      { entries :=
          { toList := [("w", .directory), ("w/.txt", .file [0x64]),
              ("w/blank.txt", .file [0x20, 0x0A]), ("w/c", .directory),
              ("w/c/hat.txt", .file [0x61, 0x0A, 0x0A, 0x20, 0x62, 0x0D, 0x0A]),
              ("w/d.md", .file [0x65]), ("w/v.1.TXT", .file [0xFF, 0x63])]
            ascending := by decide +kernel }
        current := "" }
    let table := Table.ofFiles (t.filesIn "w")
    t.WellFormed ∧ t.isDirectory "w" ∧
      (Store.new "w").load FileTree.disk t = ((.ok 2, { Store.new "w" with table }), t) ∧
      (textFilesIn t "w").map TextFile.name = ["c/hat", "v.1"] ∧
      OneEntryEach table (textFilesIn t "w") ∧
      table.get? "c/hat" = some ["a", "b"] ∧ table.get? "v.1" = some ["\uFFFDc"] := by
  intro t table
  have ht : t.WellFormed := by decide +kernel
  have hresolve : t.resolve "w" = "w" := FileTree.resolve_of_isName rfl (by decide)
  have hroot : t.isDirectory "w" := by
    rw [FileTree.isDirectory_iff, hresolve]
    exact .inr (by decide +kernel)
  have hfiles : t.filesIn "w" = [(".txt", [0x64]), ("blank.txt", [0x20, 0x0A]),
      ("c/hat.txt", [0x61, 0x0A, 0x0A, 0x20, 0x62, 0x0D, 0x0A]), ("d.md", [0x65]),
      ("v.1.TXT", [0xFF, 0x63])] := by
    apply FileTree.filesIn_of_pairwise
    · rw [hresolve]
      decide +kernel
    · decide +kernel
  have htexts : WellNamed (textFilesIn t "w") := by
    rw [textFilesIn, hfiles]
    decide +kernel
  obtain ⟨hload, -, -, -, hiff⟩ := each_text_file_has_its_entry_iff ht (s := .new "w") hroot
  have hentries : OneEntryEach table (textFilesIn t "w") := hiff.2 htexts
  have hsize : table.size = 2 := by
    simp only [table, hfiles]
    decide +kernel
  refine ⟨ht, hroot, ?_, ?_, hentries, ?_, ?_⟩
  · rw [← hsize]
    exact hload
  · rw [textFilesIn, hfiles]
    decide +kernel
  · simp only [table, hfiles]
    decide +kernel
  · simp only [table, hfiles]
    decide +kernel

/-- Two files with lines, of which one has its extension in capitals. They make one entry, and its lines
are those of the file that is read last. -/
theorem lines_lost_to_other_case :
    let t : FileTree :=
      { entries :=
          { toList := [("w", .directory), ("w/a.TXT", .file [0x74]), ("w/a.txt", .file [0x6F])]
            ascending := by decide +kernel }
        current := "" }
    let files := textFilesIn t "w"
    let table := Table.ofFiles (t.filesIn "w")
    t.WellFormed ∧ t.isDirectory "w" ∧ ListsTextFiles t "w" files ∧
      files.map TextFile.path = ["a.TXT", "a.txt"] ∧ files.map TextFile.lines = [["t"], ["o"]] ∧
      (Store.new "w").load FileTree.disk t = ((.ok 1, { Store.new "w" with table }), t) ∧
      table.get? "a" = some ["o"] ∧ ¬ OneEntryEach table files := by
  intro t files table
  have ht : t.WellFormed := by decide +kernel
  have hresolve : t.resolve "w" = "w" := FileTree.resolve_of_isName rfl (by decide)
  have hroot : t.isDirectory "w" := by
    rw [FileTree.isDirectory_iff, hresolve]
    exact .inr (by decide +kernel)
  have hfiles : t.filesIn "w" = [("a.TXT", [0x74]), ("a.txt", [0x6F])] := by
    apply FileTree.filesIn_of_pairwise
    · rw [hresolve]
      decide +kernel
    · decide +kernel
  have hload := load_of_wellFormed ht (s := .new "w") hroot
  have hsize : table.size = 1 := by
    simp only [table, hfiles]
    decide +kernel
  have hlength : files.length = 2 := by
    simp only [files, textFilesIn, hfiles]
    decide +kernel
  refine ⟨ht, hroot, listsTextFiles_textFilesIn ht, ?_, ?_, ?_, ?_, fun hentries => ?_⟩
  · simp only [files, textFilesIn, hfiles]
    decide +kernel
  · simp only [files, textFilesIn, hfiles]
    decide +kernel
  · rw [← hsize]
    exact hload
  · simp only [table, hfiles]
    decide +kernel
  · have hcount := hentries.size
    omega

end PromptWeave.Wildcard
