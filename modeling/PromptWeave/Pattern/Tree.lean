import PromptWeave.Text.CharSet

/-!
# What a pattern says

The tree of a pattern as it is written, before flags are applied to it, and a bound on how deep it
may be nested.
-/
namespace PromptWeave.Pattern

open PromptWeave.Text

/-- What a letter in parentheses switches. -/
inductive Switch where
  | ignoreCase
  /-- Whether lines have starts and ends. -/
  | multiLine
  /-- Whether a dot stands for the end of a line, too. -/
  | dotAll
  /-- Whether a carriage return ends a line, too. -/
  | anyLine
  /-- Whether repetitions take as little as they can unless they are marked. -/
  | swapGreed
  | unicode
  /-- Whether blanks and comments are passed over. -/
  | verbose
  deriving Repr, DecidableEq

/-- The switch of a letter. -/
def Switch.ofLetter? : Char → Option Switch
  | 'i' => some ignoreCase
  | 'm' => some multiLine
  | 's' => some dotAll
  | 'R' => some anyLine
  | 'U' => some swapGreed
  | 'u' => some unicode
  | 'x' => some verbose
  | _ => none

/-- Switches, each with whether it is turned on. -/
abbrev Switches := List (Switch × Bool)

/-- A character of a pattern, and whether it is written as a byte in two digits. -/
structure Written where
  char : Char
  asByte : Bool := false
  deriving Repr, DecidableEq

/-- How the edge of a word lies at a place. -/
inductive Edge where
  | boundary
  | noBoundary
  | start
  | stop
  /-- No word character before the place. -/
  | startHalf
  /-- No word character after the place. -/
  | stopHalf
  deriving Repr, DecidableEq

/-- A condition on a place, as it is written. -/
inductive Spot where
  | caret
  | dollar
  | textStart
  | textStop
  | edge (e : Edge)
  deriving Repr, DecidableEq

/-- The classes that are named by a letter. -/
inductive ClassLetter where
  | digit
  | space
  | word
  deriving Repr, DecidableEq

/-- How two sets are combined in a class. -/
inductive SetOp where
  | inter
  | diff
  | symmDiff
  deriving Repr, DecidableEq

/-- What stands for one of several characters. -/
inductive Members where
  | char (w : Written)
  | range (first last : Written)
  /-- A class of ASCII that is named between colons. -/
  | ascii (negated : Bool) (set : CharSet)
  | letter (negated : Bool) (l : ClassLetter)
  | property (negated : Bool) (set : CharSet)
  | several (parts : List Members)
  | combined (op : SetOp) (left right : Members)
  /-- A class in brackets. -/
  | brackets (negated : Bool) (body : Members)
  deriving Inhabited

/-- A pattern as it is written. -/
inductive Tree where
  /-- The empty text. -/
  | nothing
  /-- A change of flags up to the end of the group around it. -/
  | flags (changes : Switches)
  | char (w : Written)
  | dot
  | spot (s : Spot)
  | members (m : Members)
  /-- A part in parentheses, with its number if what it matches is remembered, and the flags that
  hold inside it. -/
  | group (number : Option Nat) (changes : Switches) (body : Tree)
  | repeated (least : Nat) (most : Option Nat) (greedy : Bool) (body : Tree)
  | sequence (parts : List Tree)
  /-- The first branch that leads to a match. -/
  | choice (branches : List Tree)
  deriving Inhabited

namespace Members

/-- Parts as one. -/
def ofParts : List Members → Members
  | [m] => m
  | parts => several parts

mutual

/-- Whether classes, operators and unions are nested at most `room` deep. -/
def fits : Members → (room : Nat) → Bool
  | several [], _ => true
  | several (m :: rest), room + 1 => m.fits room && allFit rest room
  | combined _ left right, room + 1 => left.fits room && right.fits room
  | brackets _ body, room + 1 => body.fits room
  | several (_ :: _), 0 => false
  | combined _ _ _, 0 => false
  | brackets _ _, 0 => false
  | _, _ => true

/-- Whether all are nested at most `room` deep. -/
def allFit : List Members → (room : Nat) → Bool
  | [], _ => true
  | m :: rest, room => m.fits room && allFit rest room

end

end Members

namespace Tree

mutual

/-- Whether groups, repetitions, sequences, choices and classes are nested at most `room` deep. -/
def fits : Tree → (room : Nat) → Bool
  | members m, room => m.fits room
  | group _ _ body, room + 1 => body.fits room
  | repeated _ _ _ body, room + 1 => body.fits room
  | sequence parts, room + 1 => allFit parts room
  | choice branches, room + 1 => allFit branches room
  | group _ _ _, 0 => false
  | repeated _ _ _ _, 0 => false
  | sequence _, 0 => false
  | choice _, 0 => false
  | _, _ => true

/-- Whether all are nested at most `room` deep. -/
def allFit : List Tree → (room : Nat) → Bool
  | [], _ => true
  | t :: rest, room => t.fits room && allFit rest room

end

end Tree
end PromptWeave.Pattern
