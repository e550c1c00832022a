import PromptWeave.Pattern.Normal
import PromptWeave.Pattern.Property.Folding
import PromptWeave.Pattern.Tree

/-!
# What a written pattern stands for

Flags are applied to a pattern from left to right. A change holds to the end of the group around it,
in the branches to its right, too. Without the flag of Unicode a pattern is one over ASCII: what
could match anything else has no meaning.
-/
namespace PromptWeave.Pattern

open PromptWeave.Text

/-- The flags that bear on what a part stands for. -/
structure Flags where
  ignoreCase : Bool := false
  multiLine : Bool := false
  dotAll : Bool := false
  anyLine : Bool := false
  swapGreed : Bool := false
  unicode : Bool := true
  deriving Repr, DecidableEq

namespace Flags

/-- Turns a switch on or off. -/
def set (f : Flags) (change : Switch × Bool) : Flags :=
  let (switch, on) := change
  match switch with
  | .ignoreCase => { f with ignoreCase := on }
  | .multiLine => { f with multiLine := on }
  | .dotAll => { f with dotAll := on }
  | .anyLine => { f with anyLine := on }
  | .swapGreed => { f with swapGreed := on }
  | .unicode => { f with unicode := on }
  | .verbose => f

/-- Makes changes in their order. -/
def change (f : Flags) (changes : Switches) : Flags := changes.foldl set f

/-- A set with the other cases of its members, if case is ignored. -/
def fold (f : Flags) (set : CharSet) : CharSet :=
  if !f.ignoreCase then set
  else if f.unicode then Property.closeUnderCase set
  else Property.closeUnderAsciiCase set

/-- The characters outside a set; over ASCII there is no such set. -/
def outside? (f : Flags) (set : CharSet) : Option CharSet :=
  if f.unicode then some set.compl else none

/-- The characters of a class in brackets or of a named one: case is ignored first, and then the
class may be turned around. -/
def class? (f : Flags) (negated : Bool) (set : CharSet) : Option CharSet :=
  if negated then f.outside? (f.fold set) else some (f.fold set)

/-- The character that is written in a class. -/
def member? (f : Flags) (w : Written) : Option Char :=
  if f.unicode || w.char.toNat < 128 then some w.char else none

/-- The set of a class that is named by a letter. -/
def letterSet (f : Flags) : ClassLetter → CharSet
  | .digit => if f.unicode then Property.decimalNumber else asciiDigits
  | .space => if f.unicode then Property.whiteSpace else asciiSpace
  | .word => if f.unicode then Property.wordPart else asciiWord

end Flags

/-- Two sets combined. -/
def SetOp.apply : SetOp → CharSet → CharSet → CharSet
  | inter, a, b => a.inter b
  | diff, a, b => a.diff b
  | symmDiff, a, b => a.symmDiff b

namespace Members

mutual

/-- The characters that a class stands for. -/
def set? (f : Flags) : Members → Option CharSet
  | char w => (f.member? w).map .single
  | range first last => do
      return .range (← f.member? first).toNat (← f.member? last).toNat
  | ascii negated set => f.class? negated set
  | letter negated l => if negated then f.outside? (f.letterSet l) else some (f.letterSet l)
  | property negated set => if f.unicode then f.class? negated set else none
  | several parts => (sets? f [] parts).map .unions
  | combined op left right => do
      return op.apply (f.fold (← left.set? f)) (f.fold (← right.set? f))
  | brackets negated body => do f.class? negated (← body.set? f)

/-- The sets of classes; `done` holds those before them. -/
def sets? (f : Flags) (done : List CharSet) : List Members → Option (List CharSet)
  | [] => some done
  | m :: rest =>
      match m.set? f with
      | some set => sets? f (set :: done) rest
      | none => none

end

end Members

namespace Flags

/-- A single character. -/
def char? (f : Flags) (w : Written) : Option Node :=
  let n := w.char.toNat
  let variants (ns : List Nat) := Node.ofSet (.unions (ns.map fun n => .range n n))
  if f.unicode then
    some (if f.ignoreCase then variants (Property.caseVariants n) else .literal [w.char])
  else if w.asByte && 128 ≤ n then none
  else if f.ignoreCase && w.char.isAlpha then
    some (variants [w.char.toLower.toNat, w.char.toUpper.toNat])
  else some (.literal [w.char])

/-- The characters for which a dot stands. -/
def dot? (f : Flags) : Option Node :=
  if !f.unicode then none
  else if f.dotAll then some (.ofSet .full)
  else if f.anyLine then some (.ofSet (.diff .full (.union (.single '\n') (.single '\r'))))
  else some (.ofSet (.diff .full (.single '\n')))

/-- The condition that a place has to meet. -/
def anchor (f : Flags) : Spot → Anchor
  | .caret => if !f.multiLine then .textStart else if f.anyLine then .anyLineStart else .lineStart
  | .dollar => if !f.multiLine then .textStop else if f.anyLine then .anyLineStop else .lineStop
  | .textStart => .textStart
  | .textStop => .textStop
  | .edge e => .word (!f.unicode) e

end Flags

namespace Tree

mutual

/-- What a pattern stands for, and the flags that hold after it. -/
def meaning? (f : Flags) : Tree → Option (Node × Flags)
  | nothing => some (.nothing, f)
  | flags changes => some (.nothing, f.change changes)
  | char w => (f.char? w).map (·, f)
  | dot => f.dot?.map (·, f)
  | spot s => some (.anchor (f.anchor s), f)
  | members m => (m.set? f).map fun set => (.ofSet set, f)
  | group number changes body => do
      let (body, _) ← body.meaning? (f.change changes)
      return (match number with
        | some n => .group n body
        | none => body, f)
  | repeated least most greedy body => do
      let (body, f) ← body.meaning? f
      return (.replicate least most (greedy != f.swapGreed) body, f)
  | sequence parts => do
      let (parts, f) ← meanings? f [] parts
      return (.concat parts, f)
  | choice branches => do
      let (branches, f) ← meanings? f [] branches
      return (.choose branches, f)

/-- What some patterns stand for, and the flags that hold after them. `done` holds what those before
them stand for, back to front. -/
def meanings? (f : Flags) (done : List Node) : List Tree → Option (List Node × Flags)
  | [] => some (done.reverse, f)
  | t :: rest =>
      match t.meaning? f with
      | some (n, f) => meanings? f (n :: done) rest
      | none => none

end

end Tree
end PromptWeave.Pattern
