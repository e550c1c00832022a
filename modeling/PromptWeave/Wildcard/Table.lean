import PromptWeave.Dictionary

/-!
# Tables of wildcards

A wildcard is a name with lines, of which one takes the place of the name.
-/
namespace PromptWeave.Wildcard

/-- Wildcards by name. Every wildcard has a line. -/
structure Table where
  entries : Dictionary (List String)
  hasLine : ∀ name lines, (name, lines) ∈ entries.toList → lines ≠ []

namespace Table

/-- The table without wildcards. -/
def empty : Table where
  entries := .empty
  hasLine := by intro name lines h; simp [Dictionary.empty] at h

instance : Inhabited Table := ⟨empty⟩

/-- Adds the lines of a wildcard in place of those that it had; without lines nothing is added. -/
def insert (t : Table) (name : String) (lines : List String) : Table :=
  if h : lines = [] then t
  else
    { entries := t.entries.insert name lines
      hasLine := by
        intro other ls hm
        rcases Dictionary.mem_insertBinding hm with hm | hm
        · exact (Prod.mk.inj hm).2 ▸ h
        · exact t.hasLine other ls hm }

/-- The table of wildcards in a list. Of two with one name the later counts, and wildcards without
lines do not count. -/
def ofList (wildcards : List (String × List String)) : Table :=
  wildcards.foldl (fun t (name, lines) => t.insert name lines) empty

theorem entries_insert (t : Table) (name : String) (lines : List String) :
    (t.insert name lines).entries =
      if lines.isEmpty then t.entries else t.entries.insert name lines := by
  unfold insert
  cases lines with
  | nil => rfl
  | cons line rest => rfl

/-- A table binds the wildcards of a list that have lines one after the other. -/
theorem entries_ofList (wildcards : List (String × List String)) :
    (ofList wildcards).entries = .ofList (wildcards.filter fun wildcard => !wildcard.2.isEmpty) := by
  suffices ∀ t : Table, (wildcards.foldl (fun t (name, lines) => t.insert name lines) t).entries =
      (wildcards.filter fun wildcard => !wildcard.2.isEmpty).foldl (fun d b => d.insert b.1 b.2)
        t.entries from this empty
  induction wildcards with
  | nil => exact fun _ => rfl
  | cons wildcard rest ih =>
      intro t
      rw [List.foldl_cons, ih, entries_insert]
      cases hlines : wildcard.2.isEmpty <;> simp [hlines]

/-- The lines of a wildcard. -/
def get? (t : Table) (name : String) : Option (List String) := t.entries.get? name

/-- The names in ascending order. -/
def names (t : Table) : List String := t.entries.keys

/-- The number of wildcards. -/
def size (t : Table) : Nat := t.entries.size

/-- The wildcards in ascending order of their names. -/
def toList (t : Table) : List (String × List String) := t.entries.toList

/-- Tables that list the same wildcards are equal. -/
@[ext] theorem ext {a b : Table} (h : a.toList = b.toList) : a = b := by
  have hentries : a.entries = b.entries := Dictionary.ext h
  cases a
  cases b
  cases hentries
  rfl

end Table
end PromptWeave.Wildcard
