import Mathlib.Data.List.Induction
import PromptWeave.Proofs.Files.Paths

/-!
# What lies in a directory

In a tree that has been built by the operations, everything lies at a path in normal form and in a
directory. The files that are listed for a directory are then exactly those that can be read at a path
below it, each of them once.

Main statements: `wellFormed_of_changes`, `WellFormed.mem_filesIn_iff`, `nodup_filesIn`.
-/
namespace PromptWeave.Files

/-! ### Paths in normal form -/

theorem AreNames.isPath {names : List String} (h : AreNames names) (hne : names ≠ []) :
    IsPath (joinNames names) := ⟨names, hne, h, rfl⟩

namespace IsPath

variable {path : String}

theorem joinNames_pathNames (h : IsPath path) : joinNames (pathNames path) = path := by
  obtain ⟨names, -, hnames, rfl⟩ := h
  rw [pathNames_joinNames hnames]

theorem ne_empty (h : IsPath path) : path ≠ "" := by
  obtain ⟨names, hne, hnames, rfl⟩ := h
  exact fun hempty => hne (hnames.joinNames_eq_empty_iff.1 hempty)

end IsPath

theorem isPath_iff {path : String} :
    IsPath path ↔ path ≠ "" ∧ joinNames (pathNames path) = path := by
  refine ⟨fun h => ⟨h.ne_empty, h.joinNames_pathNames⟩, fun ⟨hne, hjoin⟩ => ?_⟩
  refine ⟨pathNames path, fun hnil => hne ?_, areNames_pathNames path, hjoin.symm⟩
  rw [← hjoin, hnil]
  rfl

instance (path : String) : Decidable (IsPath path) := decidable_of_iff _ isPath_iff.symm

theorem parent_joinNames {names : List String} (h : AreNames names) :
    FileTree.parent (joinNames names) = joinNames names.dropLast := by
  rw [FileTree.parent, pathNames_joinNames h]

theorem liesIn_iff {directory path : String} :
    FileTree.liesIn directory path ↔ ∃ rest, path = directory ++ "/" ++ rest := by
  rw [FileTree.liesIn, String.startsWith_string_iff]
  constructor
  · rintro ⟨tail, htail⟩
    exact ⟨String.ofList tail, String.toList_injective (by simp [← htail])⟩
  · rintro ⟨rest, rfl⟩
    exact ⟨rest.toList, by simp⟩

/-- What lies in a directory has its path and further names. -/
theorem liesIn_joinNames_iff {names others : List String} (h : AreNames names) (hne : names ≠ [])
    (h' : AreNames others) : FileTree.liesIn (joinNames names) (joinNames others) ↔
      ∃ rest, rest ≠ [] ∧ others = names ++ rest := by
  rw [liesIn_iff]
  constructor
  · rintro ⟨tail, htail⟩
    have hempty : others ≠ [] := by
      rintro rfl
      have hchars := congrArg String.toList htail
      simp [joinNames] at hchars
    have hsplit := congrArg splitPath htail
    rw [splitPath_append, splitPath_joinNames h.noSlash hne,
      splitPath_joinNames h'.noSlash hempty] at hsplit
    exact ⟨splitPath tail, by simp [splitPath], hsplit⟩
  · rintro ⟨rest, hrest, rfl⟩
    exact ⟨joinNames rest, joinNames_append hne hrest⟩

theorem liesIn_trans {directory inner path : String} (h : FileTree.liesIn directory inner)
    (h' : FileTree.liesIn inner path) : FileTree.liesIn directory path := by
  obtain ⟨rest, rfl⟩ := liesIn_iff.1 h
  obtain ⟨rest', rfl⟩ := liesIn_iff.1 h'
  exact liesIn_iff.2 ⟨rest ++ "/" ++ rest', by simp only [String.append_assoc]⟩

theorem liesIn_parent {path : String} (h : IsPath path) (hparent : FileTree.parent path ≠ "") :
    FileTree.liesIn (FileTree.parent path) path := by
  obtain ⟨names, hne, hnames, rfl⟩ := h
  have hsplit : names = names.dropLast ++ [names.getLast hne] :=
    (List.dropLast_append_getLast hne).symm
  have hfront : AreNames names.dropLast := (AreNames.of_append (hsplit ▸ hnames)).1
  rw [parent_joinNames hnames] at hparent ⊢
  refine (liesIn_joinNames_iff hfront (fun hnil => hparent ?_) hnames).2 ⟨_, by simp, hsplit⟩
  rw [hnil]
  rfl

namespace FileTree

variable {t u : FileTree} {path : String} {bytes : Bytes}

/-- The names from the root to which a path leads. -/
def names (t : FileTree) (path : String) : List String := pathNames (t.resolve path)

theorem areNames_names (t : FileTree) (path : String) : AreNames (t.names path) :=
  areNames_pathNames _

theorem joinNames_names (t : FileTree) (path : String) :
    joinNames (t.names path) = t.resolve path := by
  rw [names, resolve, pathNames_joinNames (areNames_pathNames _)]

theorem names_eq_nil_iff : t.names path = [] ↔ t.resolve path = "" := by
  rw [← joinNames_names, (areNames_names t path).joinNames_eq_empty_iff]

/-- Where the root is the current directory a name leads to itself. -/
theorem resolve_of_isName (hcurrent : t.current = "") (h : IsName path) : t.resolve path = path := by
  have hslash : ¬ path.startsWith "/" := by
    rw [String.startsWith_string_iff]
    exact fun hfront => h.noSlash (hfront.subset (by simp))
  have hjoin : joinNames [path] = path := String.intercalate_singleton
  have hnames := pathNames_append (List.forall_mem_singleton.2 h : AreNames [path]) ""
  rw [hjoin] at hnames
  rw [resolve, if_neg hslash, hcurrent, hnames]
  exact hjoin

theorem isDirectory_iff : t.isDirectory path ↔
    t.names path = [] ∨ t.entries.get? (t.resolve path) = some .directory := by
  rw [names_eq_nil_iff, isDirectory, entry?]
  by_cases hroot : t.resolve path = "" <;> simp [hroot]

theorem read?_eq_some_iff : t.read? path = some bytes ↔
    t.resolve path ≠ "" ∧ t.entries.get? (t.resolve path) = some (.file bytes) := by
  unfold read? entry?
  by_cases hroot : t.resolve path = ""
  · simp [hroot]
  · simp only [String.isEmpty_iff, ne_eq, hroot, not_false_eq_true, true_and]
    rcases t.entries.get? (t.resolve path) with _ | _ | _ <;> simp

/-! ### Trees that operations have built -/

/-- Whether everything in a tree lies at a path in normal form, and in a directory. -/
structure WellFormed (t : FileTree) : Prop where
  isPath : ∀ path e, t.entries.get? path = some e → IsPath path
  parent : ∀ path e, t.entries.get? path = some e →
    parent path = "" ∨ t.entries.get? (parent path) = some .directory

theorem wellFormed_iff : t.WellFormed ↔ ∀ b ∈ t.entries.toList, IsPath b.1 ∧
    (parent b.1 = "" ∨ t.entries.get? (parent b.1) = some .directory) := by
  simp only [Prod.forall, Dictionary.mem_toList_iff]
  exact ⟨fun h path e hentry => ⟨h.isPath path e hentry, h.parent path e hentry⟩,
    fun h => ⟨fun path e hentry => (h path e hentry).1, fun path e hentry => (h path e hentry).2⟩⟩

instance (t : FileTree) : Decidable t.WellFormed := decidable_of_iff _ wellFormed_iff.symm

theorem wellFormed_of_empty (h : t.entries = .empty) : t.WellFormed := by
  constructor <;>
  · intro path e hentry
    rw [h, Dictionary.get?_empty] at hentry
    cases hentry

/-- What is left when something is removed is what is neither there nor below it. -/
theorem get?_remove_eq_some_iff {other : String} {e : Entry} :
    (t.remove path).entries.get? other = some e ↔
      t.entries.get? other = some e ∧ other ≠ t.resolve path ∧ ¬ liesIn (t.resolve path) other := by
  simp only [FileTree.remove, Dictionary.get?_filterMap]
  cases t.entries.get? other <;> simp [and_comm]

namespace WellFormed

/-- Something new may lie in a directory, and only a directory may take the place of a directory. -/
theorem insert (h : t.WellFormed) {e : Entry} (hpath : IsPath path)
    (hparent : FileTree.parent path = "" ∨
      t.entries.get? (FileTree.parent path) = some .directory)
    (hkeep : e = .directory ∨ t.entries.get? path ≠ some .directory) :
    WellFormed { t with entries := t.entries.insert path e } := by
  have hstill (other : String) (hdirectory : t.entries.get? other = some .directory) :
      (t.entries.insert path e).get? other = some .directory := by
    rw [Dictionary.get?_insert]
    split
    case isTrue hsame =>
      subst hsame
      rcases hkeep with rfl | hfree
      · rfl
      · exact absurd hdirectory hfree
    case isFalse => exact hdirectory
  constructor
  · intro other e' hentry
    rw [Dictionary.get?_insert] at hentry
    split at hentry
    case isTrue hsame => exact hsame ▸ hpath
    case isFalse => exact h.isPath other e' hentry
  · intro other e' hentry
    rw [Dictionary.get?_insert] at hentry
    split at hentry
    case isTrue hsame => exact hsame ▸ hparent.imp_right (hstill _)
    case isFalse => exact (h.parent other e' hentry).imp_right (hstill _)

theorem write? (h : t.WellFormed) (hwrite : t.write? path bytes = some u) : u.WellFormed := by
  simp only [FileTree.write?] at hwrite
  split at hwrite
  case isTrue => cases hwrite
  case isFalse hfree =>
    simp only [Bool.or_eq_true, not_or, beq_iff_eq, String.isEmpty_iff] at hfree
    split at hwrite
    case isFalse => cases hwrite
    case isTrue hinto =>
      obtain rfl := Option.some.inj hwrite
      have hpath : IsPath (t.resolve path) := by
        rw [← joinNames_names]
        exact (areNames_names t path).isPath fun hnil => hfree.1 (names_eq_nil_iff.1 hnil)
      refine h.insert hpath ?_ (.inr hfree.2)
      simpa using hinto

/-- With a directory everything in it is removed. -/
theorem remove (h : t.WellFormed) (path : String) : (t.remove path).WellFormed := by
  constructor
  · intro other e hentry
    exact h.isPath other e (get?_remove_eq_some_iff.1 hentry).1
  · intro other e hentry
    obtain ⟨hthere, hother, hout⟩ := get?_remove_eq_some_iff.1 hentry
    by_cases hroot : FileTree.parent other = ""
    · exact .inl hroot
    · have hinto := liesIn_parent (h.isPath other e hthere) hroot
      have hdirectory := (h.parent other e hthere).resolve_left hroot
      have hkept : FileTree.parent other ≠ t.resolve path ∧
          ¬ liesIn (t.resolve path) (FileTree.parent other) :=
        ⟨fun hsame => hout (hsame ▸ hinto), fun hin => hout (liesIn_trans hin hinto)⟩
      exact .inr (get?_remove_eq_some_iff.2 ⟨hdirectory, hkept⟩)

/-- Whatever leads to what lies in a tree is a directory. -/
theorem directory_of_append (h : t.WellFormed) {front rest : List String} {e : Entry}
    (hnames : AreNames (front ++ rest)) (hfront : front ≠ []) (hrest : rest ≠ [])
    (hentry : t.entries.get? (joinNames (front ++ rest)) = some e) :
    t.entries.get? (joinNames front) = some .directory := by
  -- From the last name backwards, as a directory is known by what lies in it.
  induction rest using List.reverseRecOn generalizing e with
  | nil => exact absurd rfl hrest
  | append_singleton rest last ih =>
      have hparent : FileTree.parent (joinNames (front ++ (rest ++ [last]))) =
          joinNames (front ++ rest) := by
        rw [parent_joinNames hnames, ← List.append_assoc, List.dropLast_concat]
      have hbefore : AreNames (front ++ rest) :=
        (AreNames.of_append (by rwa [List.append_assoc])).1
      have hdirectory : t.entries.get? (joinNames (front ++ rest)) = some .directory := by
        rcases h.parent _ _ hentry with hroot | hdirectory
        · rw [hparent, hbefore.joinNames_eq_empty_iff] at hroot
          exact absurd (List.append_eq_nil_iff.1 hroot).1 hfront
        · rwa [hparent] at hdirectory
      by_cases hnil : rest = []
      · rwa [hnil, List.append_nil] at hdirectory
      · exact ih hbefore hnil hdirectory

theorem directory_of_take (h : t.WellFormed) {names : List String} (hnames : AreNames names)
    (hentry : t.entries.get? (joinNames names) = some .directory) {i : Nat}
    (hi : i < names.length) :
    t.entries.get? (joinNames (names.take (i + 1))) = some .directory := by
  have hsplit := List.take_append_drop (i + 1) names
  have hfront : names.take (i + 1) ≠ [] := List.ne_nil_of_length_pos (by simp; omega)
  by_cases hrest : names.drop (i + 1) = []
  · rw [hrest, List.append_nil] at hsplit
    rwa [hsplit]
  · rw [← hsplit] at hnames hentry
    exact h.directory_of_append hnames hfront hrest hentry

end WellFormed

/-! ### Making directories -/

/-- Makes one of the directories that lead to a path. -/
def makeOne? (t : FileTree) (path : String) : Option FileTree :=
  match t.entries.get? path with
  | none => some { t with entries := t.entries.insert path .directory }
  | some .directory => some t
  | some (.file _) => none

theorem makeDirectory?_eq (t : FileTree) (path : String) :
    t.makeDirectory? path = ((List.range (t.names path).length).map fun i =>
      joinNames ((t.names path).take (i + 1))).foldlM makeOne? t := rfl

/-- A directory that is made was there, or there was nothing at its path. -/
theorem makeOne?_cases (h : t.makeOne? path = some u) :
    t.entries.get? path = some .directory ∧ u = t ∨
      t.entries.get? path = none ∧
        u = { t with entries := t.entries.insert path .directory } := by
  rw [makeOne?] at h
  cases hentry : t.entries.get? path with
  | none =>
      rw [hentry] at h
      exact .inr ⟨rfl, (Option.some.inj h).symm⟩
  | some e =>
      rw [hentry] at h
      cases e with
      | directory => exact .inl ⟨rfl, (Option.some.inj h).symm⟩
      | file bytes => cases h

theorem get?_of_makeOne? (h : t.makeOne? path = some u) :
    u.entries.get? path = some .directory := by
  rcases makeOne?_cases h with ⟨hthere, rfl⟩ | ⟨-, rfl⟩
  · exact hthere
  · simp [Dictionary.get?_insert]

theorem get?_directory_of_makeOne? (h : t.makeOne? path = some u) {other : String}
    (hother : t.entries.get? other = some .directory) :
    u.entries.get? other = some .directory := by
  rcases makeOne?_cases h with ⟨-, rfl⟩ | ⟨-, rfl⟩
  · exact hother
  · rw [Dictionary.get?_insert, hother]
    exact ite_self _

theorem WellFormed.makeOne? (h : t.WellFormed) (hpath : IsPath path)
    (hparent : FileTree.parent path = "" ∨
      t.entries.get? (FileTree.parent path) = some .directory)
    (hmake : t.makeOne? path = some u) : u.WellFormed := by
  rcases makeOne?_cases hmake with ⟨-, rfl⟩ | ⟨-, rfl⟩
  · exact h
  · exact h.insert hpath hparent (.inl rfl)

/-- Of the directories that lead to a path each is made in the one before. -/
theorem WellFormed.makeEach (h : t.WellFormed) {names : List String} (hnames : AreNames names)
    {count : Nat} (hcount : count ≤ names.length)
    (hmake : ((List.range count).map fun i => joinNames (names.take (i + 1))).foldlM
      FileTree.makeOne? t = some u) :
    u.WellFormed ∧
      ∀ i < count, u.entries.get? (joinNames (names.take (i + 1))) = some .directory := by
  induction count generalizing u with
  | zero =>
      obtain rfl : t = u := by simpa using hmake
      exact ⟨h, fun i hi => absurd hi (Nat.not_lt_zero i)⟩
  | succ count ih =>
      rw [List.range_succ, List.map_append, List.foldlM_append] at hmake
      obtain ⟨v, hfront, hlast⟩ := Option.bind_eq_some_iff.1 hmake
      have hlast : v.makeOne? (joinNames (names.take (count + 1))) = some u := by
        simpa using hlast
      obtain ⟨hv, hmade⟩ := ih (by omega) hfront
      have hfirst : AreNames (names.take (count + 1)) := fun name hname =>
        hnames name (List.mem_of_mem_take hname)
      have hpath : IsPath (joinNames (names.take (count + 1))) := by
        refine hfirst.isPath fun hnil => ?_
        have hlength := congrArg List.length hnil
        rw [List.length_take, List.length_nil] at hlength
        omega
      have hparent : FileTree.parent (joinNames (names.take (count + 1))) =
          joinNames (names.take count) := by
        rw [parent_joinNames hfirst, List.take_succ_eq_append_getElem hcount,
          List.dropLast_concat]
      -- The directory around this one has just been made.
      refine ⟨hv.makeOne? hpath ?_ hlast, fun i hi => ?_⟩
      · rw [hparent]
        cases count with
        | zero => exact .inl rfl
        | succ count => exact .inr (hmade count (Nat.lt_succ_self count))
      · by_cases hcase : i = count
        · subst hcase
          exact get?_of_makeOne? hlast
        · exact get?_directory_of_makeOne? hlast (hmade i (by omega))

theorem WellFormed.makeDirectory? (h : t.WellFormed) (hmake : t.makeDirectory? path = some u) :
    u.WellFormed :=
  (h.makeEach (areNames_names t path) (Nat.le_refl _) (makeDirectory?_eq t path ▸ hmake)).1

/-- Nothing is made where a directory is. -/
theorem WellFormed.makeDirectory?_of_isDirectory (h : t.WellFormed) (hdir : t.isDirectory path) :
    t.makeDirectory? path = some t := by
  have hthere : ∀ i < (t.names path).length,
      t.entries.get? (joinNames ((t.names path).take (i + 1))) = some .directory := by
    intro i hi
    rcases isDirectory_iff.1 hdir with hnil | hentry
    · simp [hnil] at hi
    · rw [← joinNames_names] at hentry
      exact h.directory_of_take (areNames_names t path) hentry hi
  rw [makeDirectory?_eq]
  generalize (t.names path).length = count at hthere
  induction count with
  | zero => rfl
  | succ count ih =>
      have hfront := ih fun i hi => hthere i (by omega)
      have hlast : t.makeOne? (joinNames ((t.names path).take (count + 1))) = some t := by
        rw [FileTree.makeOne?, hthere count (Nat.lt_succ_self count)]
      rw [List.range_succ, List.map_append, List.foldlM_append, hfront]
      simp [hlast]

/-! ### Trees over time -/

/-- What is done to a tree of files. -/
inductive Change where
  | write (path : String) (bytes : Bytes)
  | makeDirectory (path : String)
  | remove (path : String)

/-- A tree after something has been done to it; what is refused leaves it as it is. -/
def after (t : FileTree) : Change → FileTree
  | .write path bytes => (t.write? path bytes).getD t
  | .makeDirectory path => (t.makeDirectory? path).getD t
  | .remove path => t.remove path

theorem WellFormed.after (h : t.WellFormed) (change : Change) : (t.after change).WellFormed := by
  cases change with
  | write path bytes =>
      rw [FileTree.after]
      cases hwrite : t.write? path bytes with
      | none => exact h
      | some u => exact h.write? hwrite
  | makeDirectory path =>
      rw [FileTree.after]
      cases hmake : t.makeDirectory? path with
      | none => exact h
      | some u => exact h.makeDirectory? hmake
  | remove path => exact h.remove path

theorem WellFormed.changes (h : t.WellFormed) (changes : List Change) :
    (changes.foldl FileTree.after t).WellFormed := by
  induction changes generalizing t with
  | nil => exact h
  | cons change rest ih => exact ih (h.after change)

/-- Whatever is done to a tree that was empty, everything in it lies at a path in normal form and in a
directory. -/
theorem wellFormed_of_changes (changes : List Change) (current : String) :
    (changes.foldl after ⟨.empty, current⟩).WellFormed :=
  (wellFormed_of_empty rfl).changes changes

/-! ### Listing files -/

/-- The path from the root of something in a directory. -/
def below (directory path : String) : String :=
  if directory = "" then path else directory ++ "/" ++ path

/-- The path from a directory of something in it. -/
def rest? (directory path : String) : Option String :=
  if directory = "" then some path
  else if (directory ++ "/").toList.isPrefixOf path.toList then
    some (String.ofList (path.toList.drop (directory.length + 1)))
  else none

theorem rest?_eq_some_iff {directory path rest : String} :
    rest? directory path = some rest ↔ path = below directory rest := by
  rw [rest?, below]
  by_cases hroot : directory = ""
  · simp [hroot]
  · have hlength : directory.length + 1 = (directory ++ "/").toList.length := by
      rw [String.length_toList, String.length_append]
      rfl
    rw [if_neg hroot, if_neg hroot]
    constructor
    · intro h
      obtain ⟨hfront, hrest⟩ := Option.ite_none_right_eq_some.1 h
      obtain ⟨tail, htail⟩ := List.isPrefixOf_iff_prefix.1 hfront
      rw [← htail, hlength, List.drop_left] at hrest
      apply String.toList_injective
      rw [← htail, ← Option.some.inj hrest]
      simp
    · rintro rfl
      have hchars : (directory ++ "/" ++ rest).toList =
          (directory ++ "/").toList ++ rest.toList := by simp
      rw [hchars, hlength, List.drop_left, String.ofList_toList, if_pos]
      exact List.isPrefixOf_iff_prefix.2 (List.prefix_append _ _)

/-- The file that is listed for a directory, if what lies at a path is a file in it. -/
def listed? (directory : String) (binding : String × Entry) : Option (String × Bytes) :=
  match binding.2 with
  | .file bytes => (rest? directory binding.1).map (·, bytes)
  | .directory => none

theorem filesIn_eq (t : FileTree) (path : String) :
    t.filesIn path =
      (t.entries.toList.filterMap (listed? (t.resolve path))).mergeSort inOrder := by
  rw [filesIn]
  refine congrArg (List.mergeSort · inOrder) (List.filterMap_congr fun binding _ => ?_)
  obtain ⟨other, e⟩ := binding
  cases e with
  | directory => rfl
  | file bytes =>
      have hfront : liesIn (t.resolve path) other =
          (t.resolve path ++ "/").toList.isPrefixOf other.toList := by
        rw [Bool.eq_iff_iff, liesIn, String.startsWith_string_iff, List.isPrefixOf_iff_prefix]
      simp only [listed?, rest?, hfront, String.isEmpty_iff]
      split
      · rfl
      · split <;> rfl

theorem listed?_eq_some_iff {directory : String} {binding : String × Entry}
    {file : String × Bytes} :
    listed? directory binding = some file ↔ binding = (below directory file.1, .file file.2) := by
  obtain ⟨path, e⟩ := binding
  obtain ⟨rest, bytes⟩ := file
  cases e with
  | directory => simp [listed?]
  | file content => simp [listed?, rest?_eq_some_iff]

/-- Where a file is that is listed for a directory. -/
theorem mem_filesIn_iff_get? {directory : String} : (path, bytes) ∈ t.filesIn directory ↔
    t.entries.get? (below (t.resolve directory) path) = some (.file bytes) := by
  rw [filesIn_eq, List.mem_mergeSort, List.mem_filterMap, ← Dictionary.mem_toList_iff]
  simp only [listed?_eq_some_iff, exists_eq_right]

theorem resolve_below (hpath : IsPath path) (t : FileTree) (directory : String) :
    t.resolve ("/" ++ t.resolve directory ++ "/" ++ path) = below (t.resolve directory) path := by
  obtain ⟨names, hne, hnames, rfl⟩ := hpath
  have hroot : ("/" ++ t.resolve directory ++ "/" ++ joinNames names).startsWith "/" := by
    rw [String.startsWith_string_iff]
    exact ⟨(t.resolve directory ++ "/" ++ joinNames names).toList, by simp⟩
  have hfront := pathNames_append (areNames_names t directory) ""
  have hslash : "" ++ "/" = "/" := rfl
  have hempty : pathNames "" = [] := rfl
  rw [hslash, hempty, List.nil_append, joinNames_names] at hfront
  rw [resolve, if_pos hroot, pathNames_append hnames, hfront, below]
  split
  case isTrue hempty => rw [names_eq_nil_iff.2 hempty, List.nil_append]
  case isFalse hfull =>
    rw [joinNames_append (fun hnil => hfull (names_eq_nil_iff.1 hnil)) hne, joinNames_names]

/-- What is below a directory has further names. -/
theorem isPath_of_below {directory : String} (h : IsPath (below (t.resolve directory) path)) :
    IsPath path := by
  rw [below] at h
  split at h
  case isTrue => exact h
  case isFalse hempty =>
    have hfull : t.names directory ≠ [] := fun hnil => hempty (names_eq_nil_iff.1 hnil)
    obtain ⟨others, -, hothers, hjoin⟩ := h
    rw [← joinNames_names] at hjoin
    have hin : liesIn (joinNames (t.names directory)) (joinNames others) :=
      liesIn_iff.2 ⟨path, hjoin.symm⟩
    rw [liesIn_joinNames_iff (areNames_names t directory) hfull hothers] at hin
    obtain ⟨rest, hrest, hsplit⟩ := hin
    rw [hsplit] at hothers hjoin
    rw [joinNames_append hfull hrest] at hjoin
    exact ⟨rest, hrest, (AreNames.of_append hothers).2, (String.append_right_inj _).1 hjoin⟩

/-- The files that are listed for a directory are those that can be read at a path below it. -/
theorem WellFormed.mem_filesIn_iff (h : t.WellFormed) {directory : String} :
    (path, bytes) ∈ t.filesIn directory ↔
      IsPath path ∧ t.read? ("/" ++ t.resolve directory ++ "/" ++ path) = some bytes := by
  rw [mem_filesIn_iff_get?, read?_eq_some_iff]
  constructor
  · intro hentry
    have hbelow := h.isPath _ _ hentry
    have hpath := isPath_of_below hbelow
    rw [resolve_below hpath]
    exact ⟨hpath, hbelow.ne_empty, hentry⟩
  · rintro ⟨hpath, -, hentry⟩
    rwa [resolve_below hpath] at hentry

/-- No file is listed twice. -/
theorem nodup_filesIn (t : FileTree) (directory : String) :
    ((t.filesIn directory).map Prod.fst).Nodup := by
  rw [filesIn_eq, ((List.mergeSort_perm _ inOrder).map Prod.fst).nodup_iff, List.Nodup,
    List.pairwise_map, List.pairwise_filterMap]
  refine t.entries.ascending.imp fun {first second} hlt file hfile other hother hsame => ?_
  rw [listed?_eq_some_iff] at hfile hother
  have hpaths : first.1 = second.1 := by rw [hfile, hother, hsame]
  rw [hpaths] at hlt
  exact String.lt_irrefl _ hlt

/-! ### The order of files -/

theorem namesInOrder_trans {a b c : List String} (hab : namesInOrder a b) (hbc : namesInOrder b c) :
    namesInOrder a c := by
  induction a generalizing b c with
  | nil => rfl
  | cons name rest ih =>
      cases b with
      | nil => cases hab
      | cons name' rest' =>
          cases c with
          | nil => cases hbc
          | cons name'' rest'' =>
              rw [namesInOrder] at hab hbc ⊢
              by_cases hfirst : name = name'
              · subst hfirst
                by_cases hsecond : name = name''
                · simp only [if_pos hsecond, if_true] at hab hbc ⊢
                  exact ih hab hbc
                · simpa only [if_neg hsecond] using hbc
              · have hlt : name < name' := by simpa [hfirst] using hab
                have hlt'' : name < name'' := by
                  by_cases hsecond : name' = name''
                  · exact hsecond ▸ hlt
                  · have hlt' : name' < name'' := by simpa [hsecond] using hbc
                    exact String.lt_trans hlt hlt'
                simp [String.ne_of_lt hlt'', hlt'']

theorem namesInOrder_total (a b : List String) : namesInOrder a b ∨ namesInOrder b a := by
  induction a generalizing b with
  | nil => exact .inl rfl
  | cons name rest ih =>
      cases b with
      | nil => exact .inr rfl
      | cons name' rest' =>
          rw [namesInOrder, namesInOrder]
          by_cases hsame : name = name'
          · subst hsame
            simpa using ih rest'
          · have hlt : name < name' ∨ name' < name := by
              by_contra! hnot
              exact hsame (String.le_antisymm (String.not_lt.1 hnot.2) (String.not_lt.1 hnot.1))
            simpa [hsame, Ne.symm hsame] using hlt

/-- The files of a directory are listed in order. -/
theorem filesIn_inOrder (t : FileTree) (directory : String) :
    (t.filesIn directory).Pairwise fun a b => inOrder a b := by
  have htrans (a b c : String × Bytes) (hab : inOrder a b) (hbc : inOrder b c) : inOrder a c :=
    namesInOrder_trans hab hbc
  have htotal (a b : String × Bytes) : (inOrder a b || inOrder b a) = true :=
    Bool.or_eq_true_iff.2 (namesInOrder_total (pathNames a.1) (pathNames b.1))
  exact List.pairwise_mergeSort htrans htotal _

/-- Files that lie in order are listed as they lie. -/
theorem filesIn_of_pairwise {directory : String} {files : List (String × Bytes)}
    (h : t.entries.toList.filterMap (listed? (t.resolve directory)) = files)
    (horder : files.Pairwise fun a b => inOrder a b) : t.filesIn directory = files := by
  rw [filesIn_eq, h, List.mergeSort_of_pairwise horder]

end FileTree
end PromptWeave.Files
