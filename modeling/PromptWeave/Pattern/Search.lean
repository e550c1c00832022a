import PromptWeave.Pattern.Program

/-!
# Searching for a pattern

All ways through the program are followed at once, character by character, in the order of
preference. The first way that ends wins over those behind it, and over all that begin later.
-/
namespace PromptWeave.Pattern

/-- The places that a way has remembered: the start and the end of each group. -/
abbrev Slots := Array (Option Nat)

/-- A way through a program. -/
structure Thread where
  instr : Nat
  slots : Slots

/-- A place in a text: the character before it, its number and what comes after it. -/
structure Cursor where
  before : Option Char
  place : Nat
  rest : List Char

namespace Cursor

/-- The start of a text. -/
def start (cs : List Char) : Cursor := ⟨none, 0, cs⟩

/-- Moves on by some characters, to the end of the text at most. -/
def advance (k : Cursor) : Nat → Cursor
  | 0 => k
  | n + 1 =>
      match k.rest with
      | [] => k
      | c :: rest => advance ⟨some c, k.place + 1, rest⟩ n

end Cursor

/-- What has been found of a text. -/
structure Match where
  slots : Slots

namespace Match

/-- The start and the end of a group; the whole match is group 0. -/
def span? (m : Match) (group : Nat) : Option (Nat × Nat) :=
  match m.slots[2 * group]?, m.slots[2 * group + 1]? with
  | some (some start), some (some stop) => some (start, stop)
  | _, _ => none

/-- The start and the end of the match. -/
def span (m : Match) : Nat × Nat := (m.span? 0).getD (0, 0)

end Match

namespace Program

/-- Follows ways up to the instructions that take a character or accept. `seen` holds the
instructions that a better way has reached, and `reached` the ways so far, back to front. -/
def follow (p : Program) (k : Cursor) :
    (fuel : Nat) → (seen : Array Bool) → (reached : List Thread) → List Thread → List Thread
  | 0, _, reached, _ => reached.reverse
  | _, _, reached, [] => reached.reverse
  | fuel + 1, seen, reached, t :: rest =>
      if seen.getD t.instr true then follow p k fuel seen reached rest
      else
        let seen := seen.set! t.instr true
        match p.code.getD t.instr .accept with
        | .fork targets => follow p k fuel seen reached (targets.map (⟨·, t.slots⟩) ++ rest)
        | .mark slot next =>
            follow p k fuel seen reached (⟨next, t.slots.set! slot (some k.place)⟩ :: rest)
        | .check a next =>
            if a.holds k.before k.rest.head? then
              follow p k fuel seen reached (⟨next, t.slots⟩ :: rest)
            else follow p k fuel seen reached rest
        | .take _ _ => follow p k fuel seen (t :: reached) rest
        | .accept => follow p k fuel seen (t :: reached) rest

/-- Takes one character on each way, up to the first that ends: the ways that go on, and the match
if there is one. -/
def takeChar (p : Program) (c : Option Char) :
    (going : List Thread) → List Thread → List Thread × Option Slots
  | going, [] => (going.reverse, none)
  | going, t :: rest =>
      match p.code.getD t.instr .accept with
      | .take set next =>
          match c with
          | some c =>
              takeChar p (some c) (if set.contains c then ⟨next, t.slots⟩ :: going else going) rest
          | none => takeChar p none going rest
      | _ => (going.reverse, some t.slots)

/-- Searches from a place on. `threads` are the ways that began before it, and `best` is the match
so far; no way begins after a match. -/
def searchFrom (p : Program) (threads : List Thread) (best : Option Slots) (before : Option Char)
    (place : Nat) (rest : List Char) : Option Slots :=
  let first : Thread := ⟨p.start, Array.replicate (2 * (p.groups + 1)) none⟩
  let threads := if best.isNone then threads ++ [first] else threads
  if threads.isEmpty then best
  else
    let reached := p.follow ⟨before, place, rest⟩ (p.ways + threads.length)
      (Array.replicate p.code.size false) [] threads
    let (going, found) := p.takeChar rest.head? [] reached
    let best := found.orElse fun _ => best
    match rest with
    | [] => best
    | c :: rest => searchFrom p going best (some c) (place + 1) rest

/-- The first match from a place on. -/
def find? (p : Program) (k : Cursor) : Option Match :=
  (p.searchFrom [] none k.before k.place k.rest).map Match.mk

/-- All matches from left to right. They do not overlap, and an empty match does not stand right
after another match. -/
def matchesFrom (p : Program) :
    (fuel : Nat) → Cursor → (lastStop : Option Nat) → (found : List Match) → List Match
  | 0, _, _, found => found.reverse
  | fuel + 1, k, lastStop, found =>
      match p.find? k with
      | none => found.reverse
      | some m =>
          let (start, stop) := m.span
          if start == stop && some stop == lastStop then
            if k.rest.isEmpty then found.reverse
            else matchesFrom p fuel (k.advance 1) lastStop found
          else matchesFrom p fuel (k.advance (stop - k.place)) (some stop) (m :: found)

/-- All matches in a text. -/
def findAll (p : Program) (cs : List Char) : List Match :=
  p.matchesFrom (2 * cs.length + 2) (.start cs) none []

end Program

/-- The part of a text between two places. -/
def textBetween (cs : Array Char) (span : Nat × Nat) : String :=
  String.ofList (cs.extract span.1 span.2).toList

namespace Program

/-- The text of the first match, if it lies where it is wanted. -/
def search (p : Program) (atStart : Bool) (text : String) : Option String :=
  let cs := text.toList
  match p.find? (.start cs) with
  | none => none
  | some m => if atStart && m.span.1 != 0 then none else some (textBetween cs.toArray m.span)

/-- The texts of all matches, or of the group if just one is remembered. -/
def findTexts (p : Program) (text : String) : List String :=
  let cs := text.toList
  let whole := cs.toArray
  (p.findAll cs).map fun m =>
    if p.groups == 1 then ((m.span? 1).map (textBetween whole)).getD ""
    else textBetween whole m.span

/-- The pieces of a text between the matches. -/
def split (p : Program) (text : String) : List String :=
  let cs := text.toList
  let whole := cs.toArray
  go whole 0 [] ((p.findAll cs).map Match.span)
where
  /-- The pieces from the place `last` on; `done` holds the pieces before it, back to front. -/
  go (whole : Array Char) (last : Nat) (done : List String) : List (Nat × Nat) → List String
    | [] => (textBetween whole (last, whole.size) :: done).reverse
    | (start, stop) :: rest => go whole stop (textBetween whole (last, start) :: done) rest

end Program
end PromptWeave.Pattern
