import PromptWeave.Prompt.Context
import Std.Data.HashSet

/-!
# The final text of a prompt

Tags that count people come first, some tags are rewritten, repeated tags are dropped, and what is
left becomes one text.
-/
namespace PromptWeave.Prompt

/-- What sets paragraphs apart. -/
def paragraphBreak : String := "\n\n"

/-- The kinds of people that tags count, in the order in which they are named. -/
inductive People where
  | boys
  | girls
  | others
  deriving Repr, DecidableEq

namespace People

/-- The place of a kind in the order. -/
def rank : People → Nat
  | boys => 0
  | girls => 1
  | others => 2

/-- The words for one and for several people of a kind. -/
def words : People → String × String
  | boys => ("boy", "boys")
  | girls => ("girl", "girls")
  | others => ("other", "others")

/-- The tags that count people of a kind: from one to five, and six or more. -/
def tags (p : People) : List String :=
  let (one, several) := p.words
  ["1" ++ one, "2" ++ several, "3" ++ several, "4" ++ several, "5" ++ several, "6+" ++ several]

/-- The kind of people that a tag counts. -/
def ofTag? (tag : String) : Option People :=
  [boys, girls, others].find? fun p => p.tags.contains tag

end People

/-- The tags that are rewritten, and what becomes of them. -/
def rewrites : List (String × String) := [
  ("v", "peace sign"),
  ("double v", "double peace"),
  ("|_|", "bar eyes"),
  ("\\||/", "open \\m/"),
  (":|", "neutral face"),
  (";|", "neutral face"),
  ("eyepatch bikini", "square bikini"),
  ("tachi-e", "character image")]

/-- What becomes of a tag. -/
def rewriteTag (tag : String) : String := (rewrites.lookup tag).getD tag

/-- Whether a tag holds a paragraph break. -/
def hasBreak (tag : String) : Bool := Text.occursIn paragraphBreak tag

/-- Tags without those that occurred before; tags with a paragraph break are all kept. `seen` holds
the tags so far, and `kept` those that are kept, back to front. -/
def dropRepeated (seen : Std.HashSet String) (kept : List String) : List String → List String
  | [] => kept.reverse
  | tag :: rest =>
      if hasBreak tag then dropRepeated seen (tag :: kept) rest
      else if seen.contains tag then dropRepeated seen kept rest
      else dropRepeated (seen.insert tag) (tag :: kept) rest

/-- Tags without those that occurred before; tags with a paragraph break are all kept. -/
def dedupTags (tags : List String) : List String := dropRepeated ∅ [] tags

/-- The text of one tag: a tag that begins with a number sign stands on lines of its own. -/
def renderTag (tag : String) : String :=
  if Text.beginsWith "#" tag then "\n" ++ tag ++ "\n" else tag

/-- The text of a prompt with the given tags. -/
def renderTags (tags : List String) : String := joinTags (tags.map renderTag)

/-- Whether a tag that counts people stands no later than another. -/
def peopleInOrder (a b : String) : Bool :=
  match People.ofTag? a, People.ofTag? b with
  | some p, some q => p.rank ≤ q.rank
  | _, _ => true

/-- Finishes a prompt. The tags that were set aside join the main tags; then those that count people
move in front of the leading tags, and the others are rewritten. -/
def Context.finalize (c : Context) : Context :=
  let (people, others) := (c.main ++ c.deferred).partition fun tag => (People.ofTag? tag).isSome
  let leading := people.mergeSort peopleInOrder ++ c.leading
  let main := others.map rewriteTag
  { c with
    leading, main
    deferred := []
    prompt := some (renderTags (dedupTags (leading ++ main ++ c.trailing))) }

end PromptWeave.Prompt
