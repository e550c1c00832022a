import Mathlib.Data.List.Basic
import PromptWeave.Files.FileTree
import PromptWeave.Text.Pieces

/-!
# Paths and names

A path in normal form is a way of names from one directory to the next. Joining names and cutting the path
at its slashes undo each other, so a path in normal form has its names and no others.
-/
namespace PromptWeave.Files

/-- The parts of a path between its slashes. -/
def splitPath (path : String) : List String := (path.toList.splitOnP (· == '/')).map String.ofList

/-- Whether something can have this name in a directory. -/
structure IsName (name : String) : Prop where
  ne_empty : name ≠ ""
  ne_point : name ≠ "."
  ne_points : name ≠ ".."
  noSlash : '/' ∉ name.toList

theorem isName_iff {name : String} :
    IsName name ↔ (name ≠ "" ∧ name ≠ ".") ∧ name ≠ ".." ∧ '/' ∉ name.toList :=
  ⟨fun h => ⟨⟨h.ne_empty, h.ne_point⟩, h.ne_points, h.noSlash⟩,
    fun h => ⟨h.1.1, h.1.2, h.2.1, h.2.2⟩⟩

instance (name : String) : Decidable (IsName name) := decidable_of_iff _ isName_iff.symm

/-- Whether all names on a way are names. -/
def AreNames (names : List String) : Prop := ∀ name ∈ names, IsName name

instance (names : List String) : Decidable (AreNames names) :=
  inferInstanceAs (Decidable (∀ name ∈ names, IsName name))

/-- Whether a path is in normal form. -/
def IsPath (path : String) : Prop := ∃ names, names ≠ [] ∧ AreNames names ∧ path = joinNames names

/-! ### Cutting -/

theorem noSlash_of_mem_splitPath {path name : String} (h : name ∈ splitPath path) :
    '/' ∉ name.toList := by
  obtain ⟨piece, hpiece, rfl⟩ := List.mem_map.1 h
  rw [← Text.piecesAt_eq_splitOnP] at hpiece
  rw [String.toList_ofList]
  intro hslash
  have hapart := Text.not_inClass_of_mem_piecesAt hpiece hslash
  exact absurd hapart (by decide)

@[simp] theorem splitPath_empty : splitPath "" = [""] := rfl

theorem splitPath_append (front rest : String) :
    splitPath (front ++ "/" ++ rest) = splitPath front ++ splitPath rest := by
  have hchars : (front ++ "/" ++ rest).toList = front.toList ++ '/' :: rest.toList := by simp
  have hslash : ('/' == '/') = true := rfl
  rw [splitPath, hchars, List.splitOnP_append_cons (p := (· == '/')) _ _ hslash, List.map_append]
  rfl

theorem joinNames_splitPath (path : String) : joinNames (splitPath path) = path := by
  apply String.toList_injective
  have hmap : (splitPath path).map String.toList = path.toList.splitOn '/' := by
    rw [splitPath, List.map_map, List.splitOn_eq_splitOnP]
    have hid : String.toList ∘ String.ofList = id := funext fun _ => String.toList_ofList
    rw [hid, List.map_id]
  rw [joinNames, String.toList_intercalate, hmap]
  exact List.intercalate_splitOn '/'

theorem splitPath_joinNames {names : List String} (h : ∀ name ∈ names, '/' ∉ name.toList)
    (hne : names ≠ []) : splitPath (joinNames names) = names := by
  have hsplit : (joinNames names).toList.splitOnP (· == '/') = names.map String.toList := by
    rw [← List.splitOn_eq_splitOnP, joinNames, String.toList_intercalate]
    refine List.splitOn_intercalate '/' (fun cs hcs => ?_) (by simpa using hne)
    obtain ⟨name, hname, rfl⟩ := List.mem_map.1 hcs
    exact h name hname
  have hid : String.ofList ∘ String.toList = id := funext fun _ => String.ofList_toList
  rw [splitPath, hsplit, List.map_map, hid, List.map_id]

theorem joinNames_append {front rest : List String} (hfront : front ≠ []) (hrest : rest ≠ []) :
    joinNames (front ++ rest) = joinNames front ++ "/" ++ joinNames rest :=
  String.intercalate_append_of_ne_nil hfront hrest

/-- Ways of different names have different paths. -/
theorem joinNames_inj {names others : List String} (h : ∀ name ∈ names, '/' ∉ name.toList)
    (h' : ∀ name ∈ others, '/' ∉ name.toList) (hne : names ≠ []) (hne' : others ≠ []) :
    joinNames names = joinNames others ↔ names = others := by
  refine ⟨fun hjoin => ?_, congrArg joinNames⟩
  rw [← splitPath_joinNames h hne, hjoin, splitPath_joinNames h' hne']

/-! ### Names -/

namespace AreNames

variable {names others : List String}

theorem noSlash (h : AreNames names) : ∀ name ∈ names, '/' ∉ name.toList :=
  fun name hname => (h name hname).noSlash

theorem append (h : AreNames names) (h' : AreNames others) : AreNames (names ++ others) := by
  intro name hname
  rcases List.mem_append.1 hname with hname | hname
  · exact h name hname
  · exact h' name hname

theorem of_append (h : AreNames (names ++ others)) : AreNames names ∧ AreNames others :=
  List.forall_mem_append.1 h

theorem joinNames_eq_empty_iff (h : AreNames names) : joinNames names = "" ↔ names = [] := by
  refine ⟨fun hjoin => ?_, fun hnil => hnil ▸ rfl⟩
  by_contra hne
  have hsplit := splitPath_joinNames h.noSlash hne
  rw [hjoin, splitPath_empty] at hsplit
  exact (h "" (by simp [← hsplit])).ne_empty rfl

end AreNames

/-- Of names in front of others, each is the next name on the way. -/
theorem foldl_step_of_areNames {names : List String} (h : AreNames names) (before : List String) :
    names.foldl pathNames.step before = names.reverse ++ before := by
  induction names generalizing before with
  | nil => rfl
  | cons name rest ih =>
      have hname := h name List.mem_cons_self
      have hstep : pathNames.step before name = name :: before := by
        simp [pathNames.step, hname.ne_empty, hname.ne_point, hname.ne_points]
      rw [List.foldl_cons, hstep, ih fun other hother => h other (List.mem_cons_of_mem name hother)]
      simp

/-- Names behind any path lead on from there. -/
theorem pathNames_append {names : List String} (h : AreNames names) (front : String) :
    pathNames (front ++ "/" ++ joinNames names) = pathNames front ++ names := by
  have hunfold (path : String) :
      pathNames path = ((splitPath path).foldl pathNames.step []).reverse := rfl
  rw [hunfold, hunfold, splitPath_append, List.foldl_append]
  by_cases hne : names = []
  · subst hne
    have hempty : splitPath (joinNames []) = [""] := rfl
    simp [hempty, pathNames.step]
  · rw [splitPath_joinNames h.noSlash hne, foldl_step_of_areNames h]
    simp

theorem pathNames_joinNames {names : List String} (h : AreNames names) :
    pathNames (joinNames names) = names := by
  by_cases hne : names = []
  · subst hne
    rfl
  · have hunfold : pathNames (joinNames names) =
        ((splitPath (joinNames names)).foldl pathNames.step []).reverse := rfl
    rw [hunfold, splitPath_joinNames h.noSlash hne, foldl_step_of_areNames h]
    simp

/-- What a path leads along are names. -/
theorem areNames_pathNames (path : String) : AreNames (pathNames path) := by
  -- On the parts of the path, with any names that have been collected before.
  suffices ∀ names before : List String, (∀ name ∈ names, '/' ∉ name.toList) → AreNames before →
      AreNames (names.foldl pathNames.step before) by
    have hnames := this (splitPath path) [] (fun _ => noSlash_of_mem_splitPath)
      fun _ h => absurd h List.not_mem_nil
    intro name hname
    exact hnames name (List.mem_reverse.1 hname)
  intro names
  induction names with
  | nil => exact fun before _ hbefore => hbefore
  | cons name rest ih =>
      intro before hslash hbefore
      refine ih _ (fun other hother => hslash other (List.mem_cons_of_mem name hother)) ?_
      rw [pathNames.step]
      split
      · exact hbefore
      case isFalse hname =>
        simp only [Bool.or_eq_true, not_or, Bool.not_eq_true, String.isEmpty_eq_false_iff,
          beq_eq_false_iff_ne] at hname
        split
        · exact fun other hother => hbefore other (List.mem_of_mem_drop hother)
        case isFalse hpoints =>
          have hpoints' : name ≠ ".." := by simpa using hpoints
          intro other hother
          rcases List.mem_cons.1 hother with rfl | hmem
          · exact ⟨hname.1, hname.2, hpoints', hslash _ List.mem_cons_self⟩
          · exact hbefore other hmem

end PromptWeave.Files
