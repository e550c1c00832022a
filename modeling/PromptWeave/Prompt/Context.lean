import PromptWeave.Prompt.Session
import PromptWeave.Prompt.Settings
import PromptWeave.Prompt.SourceRow
import PromptWeave.Prompt.Tags
import PromptWeave.Wildcard.Table

/-!
# The context of a prompt

All that is known of a prompt on its way from a request to its final text.
-/
namespace PromptWeave.Prompt

open PromptWeave.Wildcard (Table)

/-- A prompt under way. -/
structure Context where
  row : SourceRow
  settings : Settings
  /-- The tags before the main tags. -/
  leading : List String
  main : List String
  /-- The tags after the main tags. -/
  trailing : List String
  removed : List String
  /-- The tags that wildcards have set aside; they join the main tags at the end. -/
  deferred : List String
  counters : Dictionary UInt64
  progress : Dictionary Progress
  /-- The lines that each wildcard has given, in order. -/
  history : Dictionary (List String)
  metadata : Dictionary Json.Value
  /-- The text of the prompt once it is finished. -/
  prompt : Option String

namespace Context

/-- A prompt without tags. -/
def new (row : SourceRow) (settings : Settings) : Context where
  row
  settings
  leading := []
  main := []
  trailing := []
  removed := []
  deferred := []
  counters := .empty
  progress := .empty
  history := .empty
  metadata := .empty
  prompt := none

/-- A prompt of which nothing is known. -/
def initial : Context := new .initial .initial

instance : Inhabited Context := ⟨initial⟩

/-- Goes on where a session stopped. -/
def withSession (c : Context) (s : Session) : Context :=
  { c with counters := s.counters, progress := s.progress }

/-- Takes the tags from the texts of a request. -/
def withText (c : Context) (leading main trailing : String) : Context :=
  { c with leading := splitTags leading, main := splitTags main, trailing := splitTags trailing }

/-- What the next prompt goes on with. -/
def session (c : Context) : Session := ⟨c.counters, c.progress⟩

/-- The progress that a counter stands for: its last use took the line before the one it is at.
Before the first use there is none. -/
def progressAt? (lines : List String) (counter : UInt64) : Option Progress :=
  if counter = 0 then none
  else some ⟨(counter.toNat - 1) % lines.length + 1, lines.length⟩

/-- Computes the progress anew from the counters of the wildcards that a table holds. -/
def rebuildProgress (c : Context) (table : Table) : Context :=
  { c with
    progress := c.counters.filterMap fun name counter =>
      (table.get? name).bind (progressAt? · counter) }

/-- Adds a line to the history of a wildcard. -/
def record (c : Context) (name line : String) : Context :=
  { c with history := c.history.insert name ((c.history.get? name).getD [] ++ [line]) }

/-- A list of texts as a value. -/
def textsToJson (texts : List String) : Json.Value := .array (texts.map .text)

/-- A context as a value. -/
def toJson (c : Context) : Json.Value :=
  .object [("source_row", c.row.toJson), ("settings", c.settings.toJson),
    ("prefix_tags", textsToJson c.leading), ("main_tags", textsToJson c.main),
    ("postfix_tags", textsToJson c.trailing), ("removed_tags", textsToJson c.removed),
    ("global_append_tags", textsToJson c.deferred),
    (Session.countersKey, countersToJson c.counters),
    (Session.progressKey, progressToJson c.progress),
    ("wildcard_history", .ofDictionary (c.history.filterMap fun _ ls => some (textsToJson ls))),
    ("metadata", .ofDictionary c.metadata),
    ("final_prompt", (c.prompt.map Json.Value.text).getD .null)]

end Context
end PromptWeave.Prompt
