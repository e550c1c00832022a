import PromptWeave.Pattern.Extent
import PromptWeave.Pattern.Meaning
import PromptWeave.Pattern.Reader

/-!
# The program of a pattern

A pattern becomes a list of instructions. Each is written with the number of the one that follows
it, so a program is written back to front; only the way back of a repetition is filled in later.
-/
namespace PromptWeave.Pattern

open PromptWeave.Text

/-- An instruction. -/
inductive Instr where
  | accept
  /-- Takes one character of a set. -/
  | take (set : CharTable) (next : Nat)
  /-- Goes on at each of several instructions, the first choice first. -/
  | fork (targets : List Nat)
  /-- Remembers the place. -/
  | mark (slot : Nat) (next : Nat)
  /-- Goes on if a condition holds at the place. -/
  | check (a : Anchor) (next : Nat)
  deriving Inhabited

/-- Instructions that have been written, and how to write more of them in front of a given one. The
answer is the number of the first. -/
abbrev Writer := (next : Nat) → Array Instr → Nat × Array Instr

namespace Writer

/-- Writes one instruction. -/
def emit (i : Instr) (code : Array Instr) : Nat × Array Instr := (code.size, code.push i)

/-- The order in which a repetition tries to go on and to end. -/
def preference (greedy : Bool) (more done : Nat) : Instr :=
  .fork (if greedy then [more, done] else [done, more])

/-- Takes the characters of a text, given back to front. -/
def takeAll (cs : List Char) : Writer := fun next code =>
  cs.foldl (fun (next, code) c => emit (.take (.ofSet (.single c)) next) code) (next, code)

/-- A part that may follow itself; it is taken at least once. -/
def oneOrMore (greedy : Bool) (body : Writer) : Writer := fun next code =>
  let (loop, code) := emit .accept code
  let (start, code) := body loop code
  (start, code.set! loop (preference greedy start next))

/-- A part that is taken any number of times. If it may take nothing, the loop is entered by a
choice of its own, so that an empty round does not outweigh the end. -/
def zeroOrMore (greedy takesSome : Bool) (body : Writer) : Writer := fun next code =>
  if takesSome then
    let (loop, code) := emit .accept code
    let (start, code) := body loop code
    (loop, code.set! loop (preference greedy start next))
  else
    let (start, code) := oneOrMore greedy body next code
    emit (preference greedy start next) code

/-- A part that is taken a fixed number of times. -/
def exactly (body : Writer) : (count : Nat) → Writer
  | 0, next, code => (next, code)
  | count + 1, next, code =>
      let (start, code) := exactly body count next code
      body start code

/-- A part that is taken up to a number of times. Each time but the first follows another. -/
def upTo (greedy : Bool) (body : Writer) (done : Nat) :
    (count : Nat) → Array Instr → Nat × Array Instr
  | 0, code => (done, code)
  | count + 1, code =>
      let (rest, code) := upTo greedy body done count code
      let (start, code) := body rest code
      emit (preference greedy start done) code

/-- A part that is repeated. -/
def repeated (least : Nat) (most : Option Nat) (greedy takesSome : Bool) (body : Writer) :
    Writer := fun next code =>
  match most with
  | some n =>
      let (start, code) := upTo greedy body next (n - least) code
      exactly body least start code
  | none =>
      if least = 0 then zeroOrMore greedy takesSome body next code
      else
        let (start, code) := oneOrMore greedy body next code
        exactly body (least - 1) start code

end Writer

mutual

/-- Writes the instructions of a pattern. -/
def Node.write : Node → Writer
  | .nothing, next, code => (next, code)
  | .literal cs, next, code => Writer.takeAll cs.reverse next code
  | .oneOf set, next, code => Writer.emit (.take (.ofSet set) next) code
  | .anchor a, next, code => Writer.emit (.check a next) code
  | .group n body, next, code =>
      let (stop, code) := Writer.emit (.mark (2 * n + 1) next) code
      let (start, code) := body.write stop code
      Writer.emit (.mark (2 * n) start) code
  | .repeated least most greedy body, next, code =>
      Writer.repeated least most greedy body.takesSome body.write next code
  | .sequence parts, next, code => writeAll parts next code
  | .choice branches, next, code =>
      let (starts, code) := writeEach branches next code
      Writer.emit (.fork starts) code

/-- Writes patterns one after the other. -/
def writeAll : List Node → Writer
  | [], next, code => (next, code)
  | n :: rest, next, code =>
      let (start, code) := writeAll rest next code
      n.write start code

/-- Writes patterns beside each other. -/
def writeEach : List Node → (next : Nat) → Array Instr → List Nat × Array Instr
  | [], _, code => ([], code)
  | n :: rest, next, code =>
      let (start, code) := n.write next code
      let (starts, code) := writeEach rest next code
      (start :: starts, code)

end

/-- How many ways lead on from an instruction. -/
def Instr.ways : Instr → Nat
  | fork targets => targets.length
  | _ => 1

/-- A pattern that can be searched for. -/
structure Program where
  code : Array Instr
  start : Nat
  /-- The highest number of a group that is remembered, 0 if only the whole match is. -/
  groups : Nat
  names : List (String × Nat)
  /-- How many steps lead through all instructions once. -/
  ways : Nat

/-- The program of a pattern whose groups have some names. -/
def Program.ofNode (n : Node) (names : List (String × Nat)) : Program :=
  let (stop, code) := Writer.emit .accept #[]
  let (stop, code) := Writer.emit (.mark 1 stop) code
  let (start, code) := n.write stop code
  let (start, code) := Writer.emit (.mark 0 start) code
  { code, start, groups := n.highestGroup 0, names
    ways := code.foldl (fun ways i => ways + i.ways) 1 }

/-- The program of a pattern in a text, if the text is a pattern that means something and is not too
large. -/
def compile? (text : String) : Option Program := do
  let r ← read? text
  let (n, _) ← r.tree.meaning? {}
  if n.fits then some (.ofNode n r.names) else none

end PromptWeave.Pattern
