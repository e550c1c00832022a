import PromptWeave.Pattern.AsciiClass
import PromptWeave.Pattern.Property.Trait
import PromptWeave.Pattern.Tree
import PromptWeave.Text.CharTable

/-!
# Conditions on a place

What a pattern can ask of the characters before and after a place in a text.
-/
namespace PromptWeave.Pattern

open PromptWeave.Text

/-- Whether an edge lies between two characters, given whether they are word characters. -/
def Edge.lies (e : Edge) (before after : Bool) : Bool :=
  match e with
  | boundary => before != after
  | noBoundary => before == after
  | start => !before && after
  | stop => before && !after
  | startHalf => !before
  | stopHalf => !after

/-- The characters of words of all scripts. -/
def wordTable : CharTable := .ofSet Property.wordPart

/-- Whether a character belongs to words, of ASCII alone or of all scripts. -/
def isWordPart (ascii : Bool) (c : Char) : Bool :=
  if c.toNat < 128 then c.isAlphanum || c == '_' else !ascii && wordTable.contains c

/-- A condition on the characters before and after a place. -/
inductive Anchor where
  | textStart
  | textStop
  | lineStart
  | lineStop
  /-- The start of a line where a carriage return with or without a line feed ends a line, too. -/
  | anyLineStart
  | anyLineStop
  /-- How the edge of a word lies. The characters of words are those of all scripts or of ASCII. -/
  | word (ascii : Bool) (edge : Edge)
  deriving Repr, DecidableEq

namespace Anchor

/-- Whether a condition holds between two characters; nothing stands for an end of the text. -/
def holds (a : Anchor) (before after : Option Char) : Bool :=
  match a with
  | textStart => before.isNone
  | textStop => after.isNone
  | lineStart => before.isNone || before == some '\n'
  | lineStop => after.isNone || after == some '\n'
  | anyLineStart =>
      before.isNone || before == some '\n' || (before == some '\r' && after != some '\n')
  | anyLineStop =>
      after.isNone || after == some '\r' || (after == some '\n' && before != some '\r')
  | word ascii edge => edge.lies (before.any (isWordPart ascii)) (after.any (isWordPart ascii))

end Anchor
end PromptWeave.Pattern
