import PromptWeave.Pattern.Anchor

/-!
# Search patterns

The tree of a pattern once its flags have been applied, and what can be told from it about all of
its matches.
-/
namespace PromptWeave.Pattern

open PromptWeave.Text

/-- A pattern. -/
inductive Node where
  /-- The empty text. -/
  | nothing
  /-- A text. -/
  | literal (cs : List Char)
  /-- One character of a set. -/
  | oneOf (set : CharSet)
  | anchor (a : Anchor)
  /-- A part for which the text it matches is remembered under a number. -/
  | group (number : Nat) (body : Node)
  | repeated (least : Nat) (most : Option Nat) (greedy : Bool) (body : Node)
  | sequence (parts : List Node)
  /-- The first branch that leads to a match. -/
  | choice (branches : List Node)
  deriving Inhabited

namespace Node

mutual

/-- Whether two patterns are the same. -/
def same : Node → Node → Bool
  | nothing, nothing => true
  | literal a, literal b => a == b
  | oneOf a, oneOf b => a == b
  | anchor a, anchor b => a == b
  | group m a, group n b => m == n && a.same b
  | repeated least most greedy a, repeated least' most' greedy' b =>
      least == least' && most == most' && greedy == greedy' && a.same b
  | sequence as, sequence bs => allSame as bs
  | choice as, choice bs => allSame as bs
  | _, _ => false

/-- Whether two lists hold the same patterns. -/
def allSame : List Node → List Node → Bool
  | [], [] => true
  | a :: as, b :: bs => a.same b && allSame as bs
  | _, _ => false

end

mutual

/-- Whether a pattern matches the empty text, if it matches, and nothing else. -/
def isBlank : Node → Bool
  | nothing => true
  | literal cs => cs.isEmpty
  | oneOf _ => false
  | anchor _ => true
  | group _ body => body.isBlank
  | repeated _ _ _ body => body.isBlank
  | sequence parts => allBlank parts
  | choice branches => allBlank branches

/-- Whether all patterns are blank. -/
def allBlank : List Node → Bool
  | [] => true
  | n :: rest => n.isBlank && allBlank rest

end

mutual

/-- How many characters a match has at least; nothing if some part can have no match. -/
def leastLength : Node → Option Nat
  | nothing => some 0
  | literal cs => some cs.length
  | oneOf set => if set.isEmpty then none else some 1
  | anchor _ => some 0
  | group _ body => body.leastLength
  | repeated least _ _ body => body.leastLength.map (least * ·)
  | sequence parts => sumLengths 0 parts
  | choice branches => minLengths none branches

/-- Adds the least lengths of patterns to `total`. -/
def sumLengths (total : Nat) : List Node → Option Nat
  | [] => some total
  | n :: rest =>
      match n.leastLength with
      | some length => sumLengths (total + length) rest
      | none => none

/-- The least of the least lengths of patterns and of `least`, if it is given. -/
def minLengths (least : Option Nat) : List Node → Option Nat
  | [] => least
  | n :: rest =>
      match n.leastLength with
      | some length => minLengths (some (min length (least.getD length))) rest
      | none => none

end

/-- Whether every match takes a character. -/
def takesSome (n : Node) : Bool := n.leastLength.any (0 < ·)

mutual

/-- Whether a match can only begin at a place where a condition holds, by what stands first. -/
def beginsAt (a : Anchor) : Node → Bool
  | anchor b => a == b
  | group _ body => body.beginsAt a
  | repeated least _ _ body => 0 < least && body.beginsAt a
  | sequence parts => firstBeginsAt a parts
  | choice branches => !branches.isEmpty && allBeginAt a branches
  | _ => false

/-- Whether one of the blank patterns in front begins where the condition holds, or the one after
them. -/
def firstBeginsAt (a : Anchor) : List Node → Bool
  | [] => false
  | n :: rest => n.beginsAt a || (n.isBlank && firstBeginsAt a rest)

/-- Whether all patterns begin where the condition holds. -/
def allBeginAt (a : Anchor) : List Node → Bool
  | [] => true
  | n :: rest => n.beginsAt a && allBeginAt a rest

end

mutual

/-- Whether a match can only end at a place where a condition holds, by what stands last. -/
def endsAt (a : Anchor) : Node → Bool
  | anchor b => a == b
  | group _ body => body.endsAt a
  | repeated least _ _ body => 0 < least && body.endsAt a
  | sequence parts => lastEndsAt a parts
  | choice branches => !branches.isEmpty && allEndAt a branches
  | _ => false

/-- Whether one of the blank patterns at the end ends where the condition holds, or the one before
them. -/
def lastEndsAt (a : Anchor) : List Node → Bool
  | [] => false
  | n :: rest => (n.endsAt a && allBlank rest) || lastEndsAt a rest

/-- Whether all patterns end where the condition holds. -/
def allEndAt (a : Anchor) : List Node → Bool
  | [] => true
  | n :: rest => n.endsAt a && allEndAt a rest

end

mutual

/-- The highest number of a group, or `most` if that is higher. -/
def highestGroup (most : Nat) : Node → Nat
  | group number body => body.highestGroup (max most number)
  | repeated _ _ _ body => body.highestGroup most
  | sequence parts => highestOf most parts
  | choice branches => highestOf most branches
  | _ => most

/-- The highest number of a group in some patterns, or `most` if that is higher. -/
def highestOf (most : Nat) : List Node → Nat
  | [] => most
  | n :: rest => highestOf (n.highestGroup most) rest

end

mutual

/-- How many nodes a pattern has, added to `total`. -/
def count (total : Nat) : Node → Nat
  | group _ body => body.count (total + 1)
  | repeated _ _ _ body => body.count (total + 1)
  | sequence parts => countAll (total + 1) parts
  | choice branches => countAll (total + 1) branches
  | _ => total + 1

/-- How many nodes some patterns have, added to `total`. -/
def countAll (total : Nat) : List Node → Nat
  | [] => total
  | n :: rest => countAll (n.count total) rest

end

end Node
end PromptWeave.Pattern
