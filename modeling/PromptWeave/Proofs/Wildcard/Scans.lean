import PromptWeave.Wildcard.Store

/-!
# Reading a directory

What reading the directory of a store comes to, on a disk that is a value and on a tree of files. The
table that is published is that of a whole scan, or the one from before.
-/
namespace PromptWeave.Wildcard

open PromptWeave.Files (Disk FileTree keepIfDone)

variable {α β S : Type}

theorem bind_apply (x : StateM S α) (f : α → StateM S β) (files : S) :
    (x >>= f) files = f (x files).1 (x files).2 := rfl

namespace Store

theorem scan_apply (disk : Disk (StateM S)) (root : String) (files : S) :
    scan disk root files =
      match disk.makeDirectory root files with
      | (false, files) => (.error (.noDirectory root), files)
      | (true, files) =>
          match disk.filesIn root files with
          | (none, files) => (.error (.unreadable root), files)
          | (some found, files) => (.ok (.ofFiles found), files) := by
  rw [scan, bind_apply]
  rcases disk.makeDirectory root files with ⟨made, files⟩
  cases made with
  | false => rfl
  | true =>
      simp only [if_true, bind_apply]
      rcases disk.filesIn root files with ⟨_ | found, files⟩ <;> rfl

theorem load_apply (disk : Disk (StateM S)) (s : Store) (files : S) :
    s.load disk files =
      match scan disk s.root files with
      | (.error e, files) => ((.error e, s), files)
      | (.ok table, files) => ((.ok table.size, { s with table }), files) := by
  rw [load, bind_apply]
  rcases scan disk s.root files with ⟨_ | table, files⟩ <;> rfl

theorem reload_apply (disk : Disk (StateM S)) (s : Store) (files : S) :
    s.reload disk files =
      match scan disk s.root files with
      | (.error e, files) => ((.error e, [], s), files)
      | (.ok table, files) =>
          ((.ok table.size, s.notices table.size, { s with table }), files) := by
  rw [reload, bind_apply, load_apply]
  rcases scan disk s.root files with ⟨_ | table, files⟩ <;> rfl

/-- Over a tree of files the directory is made and its files are listed. -/
theorem scan_disk (root : String) (t : FileTree) :
    scan FileTree.disk root t =
      match t.makeDirectory? root with
      | none => (.error (.noDirectory root), t)
      | some u =>
          if u.isDirectory root then (.ok (.ofFiles (u.filesIn root)), u)
          else (.error (.unreadable root), u) := by
  have hmake : FileTree.disk.makeDirectory root t = keepIfDone (·.makeDirectory? root) t := by
    rw [FileTree.disk]
  have hfiles (u : FileTree) : FileTree.disk.filesIn root u =
      (if u.isDirectory root then some (u.filesIn root) else none, u) := rfl
  rw [scan_apply, hmake, keepIfDone]
  cases t.makeDirectory? root with
  | none => rfl
  | some u =>
      simp only [hfiles]
      by_cases hdirectory : u.isDirectory root
      · simp only [if_pos hdirectory]
      · simp only [if_neg hdirectory]

end Store
end PromptWeave.Wildcard
