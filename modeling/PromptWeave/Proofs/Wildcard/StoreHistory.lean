import PromptWeave.Proofs.Wildcard.BareExpansion
import PromptWeave.Proofs.Wildcard.Scans

/-!
# The wildcards of a store over time

A store is made over wildcards in memory, or reads them from its directory, as often as it is told to. Here
its entries are kept with nothing that says that they have lines; those without lines are left out at the
two places where wildcards come in. Main statements: `bare_history`, `expansions_stay_within_bounds`.
-/
namespace PromptWeave.Wildcard

open PromptWeave.Files (Bytes Disk FileTree)

variable {σ S : Type}

/-! ### Entries without a guarantee -/

/-- The wildcards of a list that have lines. Of two with one name the later counts. -/
def entriesOf (wildcards : List (String × List String)) : Dictionary (List String) :=
  .ofList (wildcards.filter fun wildcard => !wildcard.2.isEmpty)

/-- Adds the wildcard in a file, if the file is one and has lines. -/
def addFile (entries : Dictionary (List String)) (file : String × Bytes) : Dictionary (List String) :=
  match wildcardName? file.1 with
  | none => entries
  | some name =>
      let lines := linesOf file.2
      if lines.isEmpty then entries else entries.insert name lines

/-- The wildcards in files. -/
def entriesIn (files : List (String × Bytes)) : Dictionary (List String) := files.foldl addFile .empty

/-- A directory is read file by file. -/
theorem entries_ofFiles (files : List (String × Bytes)) :
    (Table.ofFiles files).entries = entriesIn files := by
  rw [Table.ofFiles, Table.entries_ofList, entriesIn, Dictionary.ofList, List.foldl_filter,
    List.foldl_filterMap]
  congr 1
  funext entries file
  cases hname : wildcardName? file.1 with
  | none => simp [addFile, hname]
  | some name => cases hlines : (linesOf file.2).isEmpty <;> simp [addFile, hname, hlines]

/-! ### Histories -/

/-- What happens to a store. Each time its directory is read the files may be others. -/
inductive Happening (S : Type) where
  /-- A store over wildcards in memory takes its place. -/
  | build (root : String) (wildcards : List (String × List String))
  /-- A store of another directory takes its table. -/
  | move (root : String)
  | load (files : S)
  | reload (files : S)
  | listen

/-- A store after something has happened. -/
def Store.after (disk : Disk (StateM S)) (s : Store) : Happening S → Store
  | .build root wildcards => { Store.new root with table := .ofList wildcards }
  | .move root => { Store.new root with table := s.table }
  | .load files => (s.load disk files).1.2
  | .reload files => (s.reload disk files).1.2.2
  | .listen => s.listen.2

/-- The directory and the wildcards of a store, of which nothing says that they have lines. -/
structure BareStore where
  root : String
  entries : Dictionary (List String)

/-- What a store holds, without what is known of it. -/
def Store.bare (s : Store) : BareStore := ⟨s.root, s.table.entries⟩

/-- The wildcards of a directory, if it is there or can be made, and can be read. -/
def entriesRead? (disk : Disk (StateM S)) (root : String) (files : S) : Option (Dictionary (List String)) :=
  let (made, files) := disk.makeDirectory root files
  if made then (disk.filesIn root files).1.map entriesIn else none

/-- What a store holds after its directory has been read. If that fails it holds what it held. -/
def BareStore.read (disk : Disk (StateM S)) (b : BareStore) (files : S) : BareStore :=
  { b with entries := (entriesRead? disk b.root files).getD b.entries }

/-- What a store holds after something has happened. -/
def BareStore.after (disk : Disk (StateM S)) (b : BareStore) : Happening S → BareStore
  | .build root wildcards => ⟨root, entriesOf wildcards⟩
  | .move root => { b with root }
  | .load files => b.read disk files
  | .reload files => b.read disk files
  | .listen => b

theorem entriesRead?_eq (disk : Disk (StateM S)) (root : String) (files : S) :
    entriesRead? disk root files = (Store.scan disk root files).1.toOption.map Table.entries := by
  rw [entriesRead?, Store.scan_apply]
  rcases disk.makeDirectory root files with ⟨made, t⟩
  cases made with
  | false => rfl
  | true =>
      simp only [if_true]
      rcases disk.filesIn root t with ⟨_ | found, t⟩
      · rfl
      · exact congrArg some (entries_ofFiles found).symm

theorem bare_load (disk : Disk (StateM S)) (s : Store) (files : S) :
    (s.load disk files).1.2.bare = s.bare.read disk files := by
  simp only [BareStore.read, Store.bare, entriesRead?_eq, Store.load_apply]
  rcases Store.scan disk s.root files with ⟨_ | table, t⟩
  · rfl
  · rfl

/-- Telling the listeners changes nothing that a store holds. -/
theorem reload_eq_load (disk : Disk (StateM S)) (s : Store) (files : S) :
    (s.reload disk files).1.2.2 = (s.load disk files).1.2 := by
  rw [Store.reload_apply, Store.load_apply]
  rcases Store.scan disk s.root files with ⟨_ | table, t⟩
  · rfl
  · rfl

theorem bare_after (disk : Disk (StateM S)) (s : Store) (happening : Happening S) :
    (s.after disk happening).bare = s.bare.after disk happening := by
  cases happening with
  | build root wildcards => exact congrArg (BareStore.mk root) (Table.entries_ofList wildcards)
  | move root => rfl
  | load files => exact bare_load disk s files
  | reload files =>
      rw [Store.after, reload_eq_load]
      exact bare_load disk s files
  | listen => rfl

/-- Whatever happens to a store, it holds what it would hold without a guarantee. -/
theorem bare_history (disk : Disk (StateM S)) (s : Store) (happenings : List (Happening S)) :
    (happenings.foldl (Store.after disk) s).bare =
      happenings.foldl (BareStore.after disk) s.bare := by
  induction happenings generalizing s with
  | nil => rfl
  | cons happening rest ih => rw [List.foldl_cons, List.foldl_cons, ih, bare_after]

/-- Whatever happens to a store and whatever its disk holds each time, none of its wildcards is without
lines, although its entries come from builders that nothing obliges to that. An expansion by these entries
then gives for every tag and every prompt what it should: no choice among nothing and no remainder by zero
is asked for, every line and every alternative is there, and every part of a tag begins and ends with whole
characters and does not end before it begins. -/
theorem expansions_stay_within_bounds (disk : Disk (StateM S)) (root : String)
    (happenings : List (Happening S)) {chooser : Chooser σ} (hrange : chooser.InRange) (maxDepth : Nat) :
    let s := happenings.foldl (Store.after disk) (.new root)
    let b := happenings.foldl (BareStore.after disk) ⟨root, .empty⟩
    let e : Expander σ := ⟨s.table, chooser, maxDepth⟩
    let bare : BareExpander σ := ⟨b.entries, chooser, maxDepth⟩
    b.entries = s.table.entries ∧ (∀ name lines, (name, lines) ∈ b.entries.toList → lines ≠ []) ∧
      (∀ tags x, bare.expandTags? tags x = some (e.expandTags tags x)) ∧
      ∀ token x, bare.expandTag? token x = some (e.expandTag token x) := by
  intro s b e bare
  have hentries : b.entries = s.table.entries :=
    (congrArg BareStore.entries (bare_history disk (.new root) happenings)).symm
  have hbare : bare = e.bare := congrArg (BareExpander.mk · chooser maxDepth) hentries
  refine ⟨hentries, ?_, ?_, ?_⟩
  · rw [hentries]
    exact s.table.hasLine
  · rw [hbare]
    exact expandTags?_bare hrange
  · rw [hbare]
    exact expandTag?_bare hrange

/-- A store over wildcards in memory, one of which has no line, reads two files, one of which is blank. The
tags that are expanded then have characters of two and three bytes at the edges of all their parts. -/
theorem expansions_stay_within_bounds_wide_characters :
    let disk : Disk (StateM (List (String × Bytes))) :=
      { holds := fun path files => (files.any (·.1 == path), files)
        read := fun path files => ((files.find? (·.1 == path)).map Prod.snd, files)
        write := fun _ _ files => (false, files)
        makeDirectory := fun _ files => (true, files)
        filesIn := fun _ files => (some files, files) }
    let blank : Bytes := [0x20, 0x0A]
    let twoLines : Bytes := [0x20, 0xC3, 0xA9, 0x2C, 0x66, 0x0A, 0x3C, 0x67, 0x7C, 0x3E]
    let happenings : List (Happening (List (String × Bytes))) :=
      [.build "w" [("a", ["x"]), ("b", [])], .listen, .reload [("c.txt", blank), ("ä.txt", twoLines)]]
    let chooser : Chooser Unit := ⟨fun count chance => (count - 1, chance)⟩
    let s := happenings.foldl (Store.after disk) (.new "")
    let b := happenings.foldl (BareStore.after disk) ⟨"", .empty⟩
    let x : Expansion Unit := ⟨.initial, (), []⟩
    let tags := ["ü__ä__→__b__\u3000", "\u2003<*ä>", "<$ä:ä>", "<ü|é >"]
    let expanded := (⟨s.table, chooser, 10⟩ : Expander Unit).expandTags tags x
    chooser.InRange ∧ b.entries.toList = [("ä", ["é,f", "<g|>"])] ∧
      (⟨b.entries, chooser, 10⟩ : BareExpander Unit).expandTags? tags x = some expanded ∧
      expanded.1 = ["ü→__b__\u3000", "é", "é", "é"] := by
  intro disk blank twoLines happenings chooser s b x tags expanded
  have hrange : chooser.InRange := fun count _ hcount => Nat.sub_lt hcount Nat.one_pos
  obtain ⟨-, -, hexpanded, -⟩ := expansions_stay_within_bounds disk "" happenings hrange 10
  exact ⟨hrange, by decide +kernel, hexpanded tags x, by decide +kernel⟩

end PromptWeave.Wildcard
