import Std.Data.HashMap
import PromptWeave.Pattern.Encoding
import PromptWeave.Pattern.Node

/-!
# How large a pattern may be

A pattern stands for an automaton that reads bytes, and for another one that reads them from the
last to the first. Each must fit into a megabyte. The automata are not built here: their states are
counted, with the room that each takes.

A state takes 32 bytes. One that may have several ways on takes more: 8 bytes for each range of
bytes if it reads a byte, and 4 for each way if it is a fork, which reads none. The part that
follows a part is one more way where the part ends in a fork, as repetitions do.
-/
namespace PromptWeave.Pattern

open PromptWeave.Text

/-- In which order an automaton reads bytes. -/
inductive Direction where
  | forward
  | backward
  deriving Repr, DecidableEq

/-- What has been counted of an automaton. -/
structure Extent where
  states : Nat := 0
  /-- The room for ways on, in bytes. -/
  ways : Nat := 0
  deriving Repr, DecidableEq

namespace Extent

/-- The room that an automaton may take. -/
def limit : Nat := 1048576

/-- The room that an automaton takes. -/
def size (e : Extent) : Nat := 32 * e.states + e.ways

end Extent

/-- Counting, which ends where an automaton is too large. -/
abbrev Counting := StateT Extent Option

namespace Counting

/-- Counts states and room for ways. -/
def add (states ways : Nat) : Counting Unit := fun e =>
  let e : Extent := ⟨e.states + states, e.ways + ways⟩
  if e.size ≤ Extent.limit then some ((), e) else none

/-- The number of the next state. -/
def next : Counting Nat := fun e => some (e.states, e)

/-- Counts the way on from the end of a part; it takes room if the end is a fork. -/
def link (forks : Bool) : Counting Unit := if forks then add 0 4 else pure ()

/-- Counts a part a number of times and tells whether the last one ends in a fork. `forks` tells it
of what is in front. -/
def copies (part : Counting Bool) : (count : Nat) → (forks : Bool) → Counting Bool
  | 0, forks => pure forks
  | count + 1, forks => do
      let forks' ← part
      link forks
      copies part count forks'

/-- Counts a part that is taken a fixed number of times. -/
def exactly (part : Counting Bool) (count : Nat) : Counting Bool := do
  if count = 0 then add 1 0
  copies part count false

/-- Counts a part up to a number of times, each with a fork in front. -/
def upTo (part : Counting Bool) : (count : Nat) → (forks : Bool) → Counting Unit
  | 0, forks => link forks
  | count + 1, forks => do
      add 1 8
      let forks' ← part
      link forks
      upTo part count forks'

/-- Counts a repetition. -/
def repetition (least : Nat) (most : Option Nat) (takesSome : Bool) (part : Counting Bool) :
    Counting Bool := do
  match most with
  | some most =>
      if least == most then exactly part least
      else if least == 0 && most == 1 then
        upTo part 1 false
        add 1 0
        return false
      else
        let forks ← exactly part least
        add 1 0
        upTo part (most - least) forks
        return false
  | none =>
      if least == 0 then
        if takesSome then
          add 1 4
          link (← part)
          return true
        else
          link (← part)
          add 3 16
          return false
      else
        let forks ← if least == 1 then pure false else exactly part (least - 1)
        let forks' ← part
        link forks
        add 1 4
        link forks'
        return true

end Counting

/-- States that have been counted, by what they lead to. A state is found again until another one
has taken its place; the hash of what it leads to decides on the place. -/
structure StateTable where
  places : Nat
  found : Std.HashMap Nat (List Nat × Nat) := ∅

namespace StateTable

/-- The hash of some numbers: each is mixed into the hash of those before it. -/
def hashOf (ns : List Nat) : UInt64 :=
  ns.foldl (fun h n => (h ^^^ UInt64.ofNat n) * 1099511628211) 14695981039346656037

/-- The place of a state. -/
def place (t : StateTable) (key : List Nat) : Nat := (hashOf key).toNat % t.places

/-- The state that leads to what `key` says, if it is found. -/
def find? (t : StateTable) (key : List Nat) : Option Nat :=
  match t.found[t.place key]? with
  | some (k, state) => if k == key then some state else none
  | none => none

/-- Keeps a state. -/
def insert (t : StateTable) (key : List Nat) (state : Nat) : StateTable :=
  { t with found := t.found.insert (t.place key) (key, state) }

end StateTable

/-- Counting with a table of states. -/
abbrev Sharing := StateT StateTable Counting

namespace Sharing

/-- The state that leads to what `key` says. A new one takes room for its ways. -/
def state (key : List Nat) (ways : Nat) : Sharing Nat := do
  match (← get).find? key with
  | some n => return n
  | none =>
      let n ← Counting.next
      Counting.add 1 ways
      modify (·.insert key n)
      return n

end Sharing

/-- A way on: a range of bytes and the state that it leads to. -/
structure Way where
  bytes : ByteRange
  target : Nat

/-- A state that is not complete: its ways back to front, and the bytes of the way that leads to the
incomplete state after it. -/
structure OpenState where
  ways : List Way
  last : ByteRange

namespace OpenState

/-- Completes the states of a path. Each leads to the one after it, and the last one to `stop`. The
answer is the first of them. -/
def complete (stop : Nat) : List OpenState → Sharing Nat
  | [] => pure stop
  | o :: rest => do
      let target ← complete stop rest
      let ways := (⟨o.last, target⟩ :: o.ways).reverse
      Sharing.state (ways.flatMap fun w => [w.bytes.first, w.bytes.last, w.target])
        (8 * ways.length)

/-- The path of a block after that of another one. The states that both paths begin with stay open,
and the others are completed. -/
def advance (stop : Nat) : List OpenState → List ByteRange → Sharing (List OpenState)
  | [], block => pure (block.map (⟨[], ·⟩))
  | path, [] => pure path
  | o :: rest, r :: block => do
      if o.last = r then
        return o :: (← advance stop rest block)
      else
        let target ← complete stop rest
        return ⟨⟨o.last, target⟩ :: o.ways, r⟩ :: block.map (⟨[], ·⟩)

end OpenState

namespace Counting

/-- Counts the states that read the characters of a set forwards: the blocks share states at their
ends. -/
def setForward (s : CharSet) : Counting Unit := do
  let stop ← next
  add 1 0
  let read : Sharing Unit := do
    let path ← (blocksOfSet s).foldlM (OpenState.advance stop) []
    let _ ← OpenState.complete stop path
  let _ ← read.run { places := 10000 }

/-- Counts the states that read the bytes of a block, the last one first. -/
def blockBackward (stop : Nat) (block : List ByteRange) : Sharing Nat :=
  block.foldlM (fun n r => Sharing.state [n, r.first, r.last] 0) stop

/-- Counts the states that read the characters of a set backwards: there is a way for each block. -/
def setBackward (s : CharSet) : Counting Unit := do
  add 1 0
  let stop ← next
  add 1 0
  let read : Sharing Unit := (blocksOfSet s).forM fun block => do
    let _ ← blockBackward stop block
    Counting.add 0 4
  let _ ← read.run { places := 1000 }

/-- Counts the states that read a character of a set. -/
def set (d : Direction) (s : CharSet) : Counting Unit :=
  let ranges := s.ranges
  if ranges.all fun (_, last) => last < 128 then add 2 (8 * ranges.length)
  else
    match d with
    | .forward => setForward s
    | .backward => setBackward s

end Counting

/-- Lists of bytes, cut where one of them is empty: those before the first empty one, those up to
the next, and so on. `now` holds those since the last cut and `done` what was cut off before, both back
to front. -/
def stretches {α : Type} (now : List (List α)) (done : List (List (List α))) :
    List (List α) → List (List (List α))
  | [] => (now.reverse :: done).reverse
  | [] :: rest => stretches [] (now.reverse :: done) rest
  | bytes :: rest => stretches (bytes :: now) done rest

/-- The lists with each first byte, without that byte. There are no more than `room` first bytes. -/
def groupByFirst : (room : Nat) → List (List Nat) → List (List (List Nat))
  | room + 1, (b :: bytes) :: rest =>
      let (same, others) := rest.partition fun bytes => bytes.head? == some b
      (bytes :: same.map List.tail) :: groupByFirst room others
  | _, _ => []

namespace Counting

/-- Counts the states that read one of some texts, which begin alike as far as they have been read.
A text that ends cuts off those after it. `room` bounds the length of the texts. -/
def texts : (room : Nat) → List (List Nat) → Counting Unit
  | 0, _ => pure ()
  | room + 1, bytes => do
      let bytes := match bytes with
        | [] :: rest => [] :: rest.dropWhile List.isEmpty
        | bytes => bytes
      let parts := stretches [] [] bytes
      let filled := parts.filter (!·.isEmpty)
      if filled.isEmpty then return
      add 1 (4 * (filled.length + parts.length - 1))
      filled.forM fun part => do
        let groups := groupByFirst 256 part
        add 1 (if groups.length = 1 then 0 else 8 * groups.length)
        groups.forM (texts room)

/-- Counts a choice between texts. -/
def choiceOfTexts (d : Direction) (branches : List (List Char)) : Counting Unit := do
  add 1 0
  let bytes := branches.map bytesOfText
  let bytes := match d with
    | .forward => bytes
    | .backward => bytes.map List.reverse
  texts (bytes.foldl (fun n b => max n b.length) 0 + 1) bytes

end Counting

/-- The text of a pattern that is a text. -/
def Node.text? : Node → Option (List Char)
  | literal cs => some cs
  | _ => none

mutual

/-- Counts the states of a pattern, and tells whether it ends in a fork. -/
def Node.tally (d : Direction) : Node → Counting Bool
  | .nothing => do
      Counting.add 1 0
      return false
  | .literal cs => do
      Counting.add (bytesOfText cs).length 0
      return false
  | .oneOf set => do
      Counting.set d set
      return false
  | .anchor _ => do
      Counting.add 1 0
      return false
  | .group _ body =>
      match d with
      | .forward => do
          Counting.add 1 0
          Counting.link (← body.tally d)
          Counting.add 1 0
          return false
      | .backward => body.tally d
  | .repeated least most _ body =>
      Counting.repetition least most body.takesSome (body.tally d)
  | .sequence parts =>
      match d with
      | .forward => tallyForward false parts
      | .backward => tallyBackward parts
  | .choice branches => do
      match branches.mapM Node.text? with
      | some texts => Counting.choiceOfTexts d texts
      | none => tallyBranches d 0 branches
      return false

/-- Counts parts from the first to the last. -/
def tallyForward (forks : Bool) : List Node → Counting Bool
  | [] => pure forks
  | n :: rest => do
      let forks' ← n.tally .forward
      Counting.link forks
      tallyForward forks' rest

/-- Counts parts from the last to the first. -/
def tallyBackward : List Node → Counting Bool
  | [] => pure false
  | n :: rest => do
      let forks ← tallyBackward rest
      let forks' ← n.tally .backward
      Counting.link forks
      return forks'

/-- Counts the branches of a choice from the one with the number `i` on. The fork in front of them
and the state after them come after the second. -/
def tallyBranches (d : Direction) (i : Nat) : List Node → Counting Unit
  | [] => pure ()
  | n :: rest => do
      let forks ← n.tally d
      Counting.link forks
      Counting.add (if i = 1 then 2 else 0) 4
      tallyBranches d (i + 1) rest

end

namespace Node

/-- Counts the states of the automaton of a pattern. In front of it there is a loop over all bytes,
unless a match can only lie where the text begins. Forwards, two states remember where the match
lies. -/
def tallyAll (n : Node) (d : Direction) : Counting Unit := do
  let bound := match d with
    | .forward => n.beginsAt .textStart
    | .backward => n.endsAt .textStop
  if bound then Counting.add 1 0 else Counting.add 3 16
  match d with
  | .forward =>
      Counting.add 1 0
      Counting.link (← n.tally d)
      Counting.add 2 0
  | .backward =>
      Counting.link (← n.tally d)
      Counting.add 1 0

/-- Whether a pattern is a choice between so many texts that there is no automaton for it. -/
def isLexicon : Node → Bool
  | choice branches => 3000 ≤ branches.length && branches.all fun n => n.text?.isSome
  | _ => false

/-- Whether the automata of a pattern are small enough. -/
def fits (n : Node) : Bool :=
  n.isLexicon ||
    (((n.tallyAll .forward).run {}).isSome && ((n.tallyAll .backward).run {}).isSome)

end Node
end PromptWeave.Pattern
