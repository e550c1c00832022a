/-!
# Blank characters

The characters with the `White_Space` property, and trimming by any class of characters.
-/
namespace PromptWeave.Text

/-- Whether a character has the `White_Space` property. Neither the zero width space nor the
byte order mark has it. -/
def isBlank (c : Char) : Bool :=
  let n := c.toNat
  (9 ≤ n && n ≤ 13) || n == 0x20 || n == 0x85 || n == 0xA0 || n == 0x1680 ||
    (0x2000 ≤ n && n ≤ 0x200A) || n == 0x2028 || n == 0x2029 || n == 0x202F || n == 0x205F ||
    n == 0x3000

/-- Drops the characters of a class from both ends. -/
def stripChars (inClass : Char → Bool) (cs : List Char) : List Char :=
  ((cs.dropWhile inClass).reverse.dropWhile inClass).reverse

/-- Drops the characters of a class from both ends of a text. -/
def strip (inClass : Char → Bool) (text : String) : String :=
  String.ofList (stripChars inClass text.toList)

/-- Drops blank characters from both ends of a text. -/
def trim (text : String) : String := strip isBlank text

theorem toList_trim (text : String) : (trim text).toList = stripChars isBlank text.toList := by
  simp [trim, strip]

/-- Dropping characters from the ends leaves the others as they are. -/
theorem stripChars_sublist (inClass : Char → Bool) (cs : List Char) :
    (stripChars inClass cs).Sublist cs := by
  have hfront := List.dropWhile_sublist inClass (l := cs)
  have hback := List.dropWhile_sublist inClass (l := (cs.dropWhile inClass).reverse)
  have hturned := hback.reverse
  rw [List.reverse_reverse] at hturned
  exact hturned.trans hfront

/-- What core calls white space is blank. -/
theorem isBlank_of_isWhitespace {c : Char} (h : c.isWhitespace = true) : isBlank c = true := by
  simp only [Char.isWhitespace, Bool.or_eq_true, decide_eq_true_eq] at h
  rcases h with ((rfl | rfl) | rfl) | rfl <;> decide

end PromptWeave.Text
