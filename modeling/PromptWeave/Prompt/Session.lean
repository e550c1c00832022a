import PromptWeave.Json.Record

/-!
# Sessions

What is carried from one prompt to the next: how often each sequential wildcard has been used, and
the progress that is shown for it.
-/
namespace PromptWeave.Prompt

/-- The place of the line that was chosen last, counted from one, and the number of lines. -/
structure Progress where
  current : Nat
  total : Nat
  deriving Repr, DecidableEq

/-- The state that is carried from one prompt to the next. -/
structure Session where
  /-- How often each sequential wildcard has been used, as words of 64 bits. -/
  counters : Dictionary UInt64
  progress : Dictionary Progress

/-- Progress as a value. -/
def Progress.toJson (p : Progress) : Json.Value :=
  .object [("current", .integer p.current), ("total", .integer p.total)]

/-- Reads progress; both fields have to be there. -/
def Progress.decode : Json.Decoder Progress :=
  Json.record ["current", "total"] fun fields => do
    return ⟨← fields.required "current" Json.decodeWord, ← fields.required "total" Json.decodeWord⟩

/-- Counters as a value. -/
def countersToJson (counters : Dictionary UInt64) : Json.Value :=
  .ofDictionary (counters.filterMap fun _ n => some (.integer n.toNat))

/-- The progress of several wildcards as a value. -/
def progressToJson (progress : Dictionary Progress) : Json.Value :=
  .ofDictionary (progress.filterMap fun _ p => some p.toJson)

namespace Session

/-- The session before the first prompt. -/
def initial : Session := ⟨.empty, .empty⟩

instance : Inhabited Session := ⟨initial⟩

/-- The name of the field with the counters. -/
def countersKey : String := "sequential_counters"

/-- The name of the field with the progress. -/
def progressKey : String := "wildcard_state"

/-- Reads a counter. -/
def decodeCounter : Json.Decoder UInt64 := fun levels t =>
  (Json.decodeWord levels t).map UInt64.ofNat

/-- Reads a session; both fields may be missing. -/
def decode : Json.Decoder Session :=
  Json.record [countersKey, progressKey] fun fields => do
    return {
      counters := ← fields.withDefault countersKey (Json.decodeDictionary decodeCounter) .empty
      progress := ← fields.withDefault progressKey (Json.decodeDictionary Progress.decode) .empty }

/-- A session as a value. -/
def toJson (s : Session) : Json.Value :=
  .object [(countersKey, countersToJson s.counters), (progressKey, progressToJson s.progress)]

end Session
end PromptWeave.Prompt
