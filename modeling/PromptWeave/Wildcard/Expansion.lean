import PromptWeave.Prompt.Context
import PromptWeave.Wildcard.Chooser
import PromptWeave.Wildcard.Reference

/-!
# Expanding wildcards

Tags are resolved one after the other. A chosen line is resolved in turn, one level further in; at
the deepest level a tag stands for itself. An expansion changes the counters, the progress, the
history and the deferred tags of its prompt and nothing else.
-/
namespace PromptWeave.Wildcard

open PromptWeave.Prompt (Context Progress splitTags joinTags)

/-- What happens during an expansion. -/
inductive Event where
  /-- One of several alternatives was chosen. -/
  | chosen (count index : Nat)
  /-- A line of a wildcard was taken by chance. -/
  | drawn (name : String) (count index : Nat) (line : String)
  /-- The next line of a wildcard was taken. -/
  | advanced (name line : String)
  /-- The line was taken that stands where another wildcard is. -/
  | observed (watched name line : String)
  /-- A tag was left as it is at the deepest level. -/
  | capped (tag : String)
  deriving Repr, DecidableEq

/-- An expansion under way: the prompt, the state of the chooser, and what has happened, the latest
first. -/
structure Expansion (σ : Type) where
  context : Context
  chance : σ
  events : List Event

/-- What expansions go by: the wildcards, the source of choices and the number of levels. -/
structure Expander (σ : Type) where
  table : Table
  chooser : Chooser σ
  maxDepth : Nat

namespace Expansion

variable {σ : Type}

/-- Notes what has happened. -/
def note (x : Expansion σ) (e : Event) : Expansion σ := { x with events := e :: x.events }

/-- Sets tags aside. -/
def defer (x : Expansion σ) (tags : List String) : Expansion σ :=
  { x with context := { x.context with deferred := x.context.deferred ++ tags } }

/-- The tags that were set aside since there were `count` of them, and the expansion without them. -/
def takeBack (x : Expansion σ) (count : Nat) : List String × Expansion σ :=
  (x.context.deferred.drop count,
    { x with context := { x.context with deferred := x.context.deferred.take count } })

/-- Shows the place of a line as the progress of a wildcard. -/
def showProgress (x : Expansion σ) (name : String) (p : Progress) : Expansion σ :=
  { x with context := { x.context with progress := x.context.progress.insert name p } }

/-- Sets the counter of a wildcard. -/
def setCounter (x : Expansion σ) (name : String) (n : UInt64) : Expansion σ :=
  { x with context := { x.context with counters := x.context.counters.insert name n } }

/-- Adds a line to the history of a wildcard. -/
def record (x : Expansion σ) (name line : String) : Expansion σ :=
  { x with context := x.context.record name line }

/-- How often a wildcard has been used in order. -/
def counter (x : Expansion σ) (name : String) : UInt64 := (x.context.counters.get? name).getD 0

end Expansion

/-- The place of the line that a counter points at. -/
def lineIndex (counter count : Nat) : Nat := counter % count

/-- Sorts the tags of a line. Tags with a star are kept, without the star; if there is none, the
first tag is kept. All others are set aside. -/
def sortOut (tags : List String) : List String × List String :=
  let starred (tag : String) : Option String :=
    (Text.after? "*" tag).map Text.trim
  if tags.any fun tag => (starred tag).isSome then
    ((tags.filterMap starred).filter fun tag => !tag.isEmpty,
      tags.filter fun tag => (starred tag).isNone)
  else (tags.take 1, tags.drop 1)

namespace Expander

variable {σ : Type}

/-- Takes a line of a wildcard by chance. -/
def draw (e : Expander σ) (name : String) (x : Expansion σ) : Option String × Expansion σ :=
  match e.table.get? name with
  | none => (none, x)
  | some lines =>
      let (index, chance) := e.chooser.choose lines.length x.chance
      let line := lines.getD index ""
      (some line,
        ({ x with chance }.record name line).note (.drawn name lines.length index line))

/-- Takes the next line of a wildcard; after the last comes the first. -/
def advance (e : Expander σ) (name : String) (x : Expansion σ) : Option String × Expansion σ :=
  match e.table.get? name with
  | none => (none, x)
  | some lines =>
      let counter := x.counter name
      let index := lineIndex counter.toNat lines.length
      let line := lines.getD index ""
      (some line,
        (((x.setCounter name (counter + 1)).showProgress name ⟨index + 1, lines.length⟩).record
          name line).note (.advanced name line))

/-- Takes the line of a wildcard that stands where another wildcard was used last. -/
def observe (e : Expander σ) (watched name : String) (x : Expansion σ) :
    Option String × Expansion σ :=
  match e.table.get? name with
  | none => (none, x)
  | some lines =>
      let index := lineIndex ((x.counter watched).toNat - 1) lines.length
      let line := lines.getD index ""
      (some line,
        ((x.showProgress name ⟨index + 1, lines.length⟩).record name line).note
          (.observed watched name line))

/-- Takes the line that a reference asks for. -/
def look (e : Expander σ) (r : Reference) (x : Expansion σ) : Option String × Expansion σ :=
  match r with
  | .chance name => e.draw name x
  | .sequential name => e.advance name x
  | .observer watched name => e.observe watched name x
  | .malformed => (none, x)

/-- What resolving a tag gives: tags and the expansion afterwards. -/
abbrev Resolver (σ : Type) := String → Expansion σ → List String × Expansion σ

/-- Chooses one of several alternatives and resolves it; an empty one stands for no tag. -/
def resolveChoice (e : Expander σ) (further : Resolver σ) (alternatives : List String)
    (x : Expansion σ) : List String × Expansion σ :=
  let (index, chance) := e.chooser.choose alternatives.length x.chance
  let choice := alternatives.getD index ""
  let x := { x with chance }.note (.chosen alternatives.length index)
  if choice.isEmpty then ([], x) else further choice x

/-- Resolves a reference. Of the tags of the line some are kept and the others are set aside; a
reference to nothing stands for itself. -/
def resolveReference (e : Expander σ) (further : Resolver σ) (token : String) (r : Reference)
    (x : Expansion σ) : List String × Expansion σ :=
  match e.look r x with
  | (none, x) => ([token], x)
  | (some line, x) =>
      let (resolved, x) := further line x
      let (kept, aside) := sortOut (resolved.flatMap splitTags)
      (kept, x.defer aside)

/-- Resolves a block to text. What its line sets aside stays in the text. A block that names no
wildcard stands for itself. -/
def resolveBlock (e : Expander σ) (further : Resolver σ) (name : String) (x : Expansion σ) :
    String × Expansion σ :=
  match e.draw (Text.trim name) x with
  | (none, x) => ("__" ++ name ++ "__", x)
  | (some line, x) =>
      let (resolved, after) := further line x
      let (aside, after) := after.takeBack x.context.deferred.length
      (joinTags ((resolved ++ aside).flatMap splitTags), after)

/-- Resolves the blocks among pieces. `written` is the text before them. -/
def resolvePieces (e : Expander σ) (further : Resolver σ) :
    (written : String) → List Piece → Expansion σ → String × Expansion σ
  | written, [], x => (written, x)
  | written, .text s :: rest, x => e.resolvePieces further (written ++ s) rest x
  | written, .block name :: rest, x =>
      let (text, x) := e.resolveBlock further name x
      e.resolvePieces further (written ++ text) rest x

/-- Resolves a tag when `levels` levels are left. -/
def resolve (e : Expander σ) : (levels : Nat) → Resolver σ
  | 0, token, x => ([token], x.note (.capped token))
  | levels + 1, token, x =>
      match Request.ofTag token with
      | .choice alternatives => e.resolveChoice (e.resolve levels) alternatives x
      | .reference r => e.resolveReference (e.resolve levels) token r x
      | .blocks pieces =>
          let (text, x) := e.resolvePieces (e.resolve levels) "" pieces x
          ([text], x)
      | .plain => ([token], x)

/-- Resolves one tag. -/
def expandTag (e : Expander σ) : Resolver σ := e.resolve (e.maxDepth + 1)

/-- Resolves tags one after the other. `done` holds the tags so far. -/
def expandFrom (e : Expander σ) :
    (done : List String) → List String → Expansion σ → List String × Expansion σ
  | done, [], x => (done, x)
  | done, tag :: rest, x =>
      let (tags, x) := e.expandTag tag x
      e.expandFrom (done ++ tags) rest x

/-- Resolves tags one after the other. -/
def expandTags (e : Expander σ) (tags : List String) (x : Expansion σ) :
    List String × Expansion σ := e.expandFrom [] tags x

end Expander
end PromptWeave.Wildcard
