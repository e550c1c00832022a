import PromptWeave.Text.Blank
import PromptWeave.Text.Pieces

/-!
# Tags in text

A prompt lists its tags with commas between them. Blanks around a tag do not belong to it, and there
are no empty tags.
-/
namespace PromptWeave.Prompt

/-- Whether a character stands between tags. -/
def isComma (c : Char) : Bool := c == ','

/-- The tags that a text lists. -/
def splitTags (text : String) : List String :=
  ((Text.piecesAt isComma text.toList).map fun piece =>
    String.ofList (Text.stripChars Text.isBlank piece)).filter fun tag => !tag.isEmpty

/-- The text that lists tags. -/
def joinTags (tags : List String) : String := ", ".intercalate tags

end PromptWeave.Prompt
