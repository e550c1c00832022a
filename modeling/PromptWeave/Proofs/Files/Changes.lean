import PromptWeave.Files.FileTree

/-!
# What changes to a tree of files leave

A file that is written can be read, and nothing else changes with it. Making directories changes no
file. Main statements: `writes_of_write?`, `grows_of_makeDirectory?`.
-/
namespace PromptWeave.Files.FileTree

variable {t u v : FileTree} {path : String}

/-! ### Directories that are made -/

/-- Whether a tree is an earlier one with directories where nothing was. -/
structure Grows (t u : FileTree) : Prop where
  current : u.current = t.current
  entries : ∀ path, u.entries.get? path = t.entries.get? path ∨
    t.entries.get? path = none ∧ u.entries.get? path = some .directory

theorem Grows.refl (t : FileTree) : Grows t t := ⟨rfl, fun _ => .inl rfl⟩

theorem Grows.trans (h : Grows t u) (h' : Grows u v) : Grows t v := by
  refine ⟨h'.current.trans h.current, fun path => ?_⟩
  rcases h'.entries path with hsame | ⟨hnone, hmade⟩
  · rw [hsame]
    exact h.entries path
  · rcases h.entries path with hsame | ⟨hnone', -⟩
    · exact .inr ⟨hsame ▸ hnone, hmade⟩
    · exact .inr ⟨hnone', hmade⟩

theorem grows_insert (h : t.entries.get? path = none) :
    Grows t { t with entries := t.entries.insert path .directory } := by
  refine ⟨rfl, fun other => ?_⟩
  rw [Dictionary.get?_insert]
  by_cases hother : path = other
  · subst hother
    exact .inr ⟨h, if_pos rfl⟩
  · exact .inl (if_neg hother)

/-- Making directories changes no file. -/
theorem grows_of_makeDirectory? (h : t.makeDirectory? path = some u) : Grows t u := by
  rw [makeDirectory?] at h
  generalize pathsTo (t.resolve path) = paths at h
  induction paths generalizing t with
  | nil =>
      obtain rfl : t = u := by simpa using h
      exact .refl t
  | cons first rest ih =>
      rw [List.foldlM_cons] at h
      cases hfirst : t.entries.get? first with
      | none =>
          rw [hfirst] at h
          exact (grows_insert hfirst).trans (ih h)
      | some e =>
          rw [hfirst] at h
          cases e with
          | directory => exact ih h
          | file bytes => cases h

theorem Grows.resolve (h : Grows t u) (path : String) : u.resolve path = t.resolve path := by
  rw [FileTree.resolve, FileTree.resolve, h.current]

theorem Grows.entry? (h : Grows t u) (path : String) : u.entry? path = t.entry? path ∨
    t.entry? path = none ∧ u.entry? path = some .directory := by
  simp only [FileTree.entry?, h.resolve]
  by_cases hroot : (t.resolve path).isEmpty
  · simp [hroot]
  · simpa [hroot] using h.entries (t.resolve path)

theorem Grows.read? (h : Grows t u) (path : String) : u.read? path = t.read? path := by
  rw [FileTree.read?, FileTree.read?]
  rcases h.entry? path with hsame | ⟨hnone, hmade⟩
  · rw [hsame]
  · rw [hnone, hmade]

/-! ### Files that are written -/

/-- Whether a tree is an earlier one with a file at a path. -/
structure Writes (t u : FileTree) (path : String) (bytes : Bytes) : Prop where
  current : u.current = t.current
  file : u.entry? path = some (.file bytes)
  others : ∀ other, t.resolve other ≠ t.resolve path → u.entry? other = t.entry? other

variable {bytes : Bytes}

/-- A file that is written is there, and nothing else has changed. -/
theorem writes_of_write? (h : t.write? path bytes = some u) : Writes t u path bytes := by
  simp only [write?] at h
  split at h
  case isTrue => cases h
  case isFalse hfree =>
    simp only [Bool.or_eq_true, not_or, Bool.not_eq_true] at hfree
    split at h
    case isFalse => cases h
    case isTrue =>
      obtain rfl := Option.some.inj h
      have hresolve (other : String) : FileTree.resolve
          { t with entries := t.entries.insert (t.resolve path) (.file bytes) } other =
            t.resolve other := rfl
      refine ⟨rfl, ?_, fun other hother => ?_⟩
      · simp [FileTree.entry?, hresolve, hfree.1, Dictionary.get?_insert]
      · simp [FileTree.entry?, hresolve, Dictionary.get?_insert, Ne.symm hother]

theorem Writes.read?_eq (h : Writes t u path bytes) : u.read? path = some bytes := by
  rw [read?, h.file]

theorem Writes.read?_other (h : Writes t u path bytes) {other : String}
    (hother : t.resolve other ≠ t.resolve path) : u.read? other = t.read? other := by
  rw [read?, read?, h.others other hother]

end PromptWeave.Files.FileTree
