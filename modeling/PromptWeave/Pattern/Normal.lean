import PromptWeave.Pattern.Node

/-!
# Patterns in normal form

Ways to build a pattern from its parts that leave out what says nothing: texts that meet are one
text, choices between single characters are sets, and what all branches of a choice begin with
stands in front of it once.
-/
namespace PromptWeave.Pattern

open PromptWeave.Text

/-- Parts that have been put together, back to front, and a text after them that may still grow,
back to front, too. -/
structure Joined where
  parts : List Node := []
  text : List Char := []

namespace Joined

/-- All parts, back to front. -/
def closed (j : Joined) : List Node :=
  if j.text.isEmpty then j.parts else .literal j.text.reverse :: j.parts

/-- Adds a part. -/
def add (j : Joined) : Node → Joined
  | .nothing => j
  | .literal cs => { j with text := cs.reverseAux j.text }
  | n => ⟨n :: j.closed, []⟩

/-- Adds a part, or the parts of a sequence. -/
def addFlat (j : Joined) : Node → Joined
  | .sequence parts => parts.foldl add j
  | n => j.add n

end Joined

namespace Node

/-- One character of a set. -/
def ofSet (set : CharSet) : Node :=
  match set.ranges with
  | [(first, last)] => if first == last then literal [Char.ofNat first] else oneOf set
  | _ => oneOf set

/-- Patterns one after the other. -/
def concat (ns : List Node) : Node :=
  match (ns.foldl Joined.addFlat {}).closed.reverse with
  | [] => nothing
  | [n] => n
  | parts => sequence parts

/-- A pattern a number of times. One that matches the empty text only is taken once at most. -/
def replicate (least : Nat) (most : Option Nat) (greedy : Bool) (body : Node) : Node :=
  let (least, most) :=
    if body.isBlank then (min least 1, some (min (most.getD 1) 1)) else (least, most)
  if most == some 0 then nothing
  else if least == 1 && most == some 1 then body
  else repeated least most greedy body

/-- The branches of a choice; any other pattern is its own only branch. -/
def branches : Node → List Node
  | choice ns => ns
  | n => [n]

/-- The set of a pattern that is a single character. -/
def singleton? : Node → Option CharSet
  | literal [c] => some (.single c)
  | _ => none

/-- The set of a pattern that is a set. -/
def set? : Node → Option CharSet
  | oneOf set => some set
  | _ => none

/-- The parts of a sequence. -/
def parts? : Node → Option (List Node)
  | sequence parts => some parts
  | _ => none

/-- What two lists of patterns begin with. -/
def commonParts : List Node → List Node → List Node
  | a :: as, b :: bs => if a.same b then a :: commonParts as bs else []
  | _, _ => []

/-- What all lists of patterns begin with. -/
def commonStart : List (List Node) → List Node
  | [] => []
  | parts :: rest => rest.foldl commonParts parts

/-- A choice between branches of which none is a choice. After what the branches have in common
there is a choice again; `fuel` bounds how often. -/
def chooseIn : (fuel : Nat) → List Node → Node
  | _, [n] => n
  | fuel, ns =>
      match ns.mapM singleton? with
      | some sets => ofSet (.unions sets)
      | none =>
          match ns.mapM set? with
          | some sets => ofSet (.unions sets)
          | none =>
              match fuel, ns.mapM parts? with
              | fuel + 1, some sequences =>
                  let start := commonStart sequences
                  if start.isEmpty then choice ns
                  else
                    let rests := sequences.map fun parts => concat (parts.drop start.length)
                    concat (start ++ [chooseIn fuel (rests.flatMap branches)])
              | _, _ => choice ns

/-- The first of some branches that leads to a match. -/
def choose (ns : List Node) : Node :=
  let ns := ns.flatMap branches
  chooseIn (countAll 0 ns) ns

end Node
end PromptWeave.Pattern
