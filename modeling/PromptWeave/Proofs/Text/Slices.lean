import Mathlib.Data.String.Basic

/-!
# Parts of a text between two bytes

The part of a text between two of its bytes is there only if a character begins at both of them, or the
text ends there, and the first does not come behind the second. Main statement: `slice?_append`.
-/
namespace PromptWeave.Text

open String (Pos.Raw utf8Len utf8Len_toList)

/-- The part of a text from one byte to another. -/
def slice? (text : String) (start stop : Nat) : Option String :=
  if start ≤ stop ∧ Pos.Raw.IsValid text ⟨start⟩ ∧ Pos.Raw.IsValid text ⟨stop⟩ then
    some (Pos.Raw.extract text ⟨start⟩ ⟨stop⟩)
  else none

theorem isValid_append (front rest : String) :
    Pos.Raw.IsValid (front ++ rest) ⟨front.utf8ByteSize⟩ :=
  Pos.Raw.isValid_iff_exists_append.2 ⟨front, rest, rfl, rfl⟩

/-- What stands between two other texts is the part between their bytes. -/
theorem slice?_append (front part rest : String) :
    slice? (front ++ part ++ rest) front.utf8ByteSize (front.utf8ByteSize + part.utf8ByteSize) =
      some part := by
  have hstart : Pos.Raw.IsValid (front ++ part ++ rest) ⟨front.utf8ByteSize⟩ := by
    rw [String.append_assoc]
    exact isValid_append front _
  have hstop : Pos.Raw.IsValid (front ++ part ++ rest) ⟨front.utf8ByteSize + part.utf8ByteSize⟩ := by
    rw [← String.utf8ByteSize_append]
    exact isValid_append (front ++ part) rest
  have hpart := String.extract_of_valid front.toList part.toList rest.toList
  simp only [String.ofList_append, String.ofList_toList, utf8Len_toList] at hpart
  rw [slice?, if_pos ⟨Nat.le_add_right _ _, hstart, hstop⟩, hpart]

/-- Between its two bytes no part of a character begins. -/
example : slice? "aé" 0 2 = none := by decide +kernel

end PromptWeave.Text
