import PromptWeave.Text.CharSet

/-!
# Looking characters up

A set of characters as an array of its turning points, in which a character is looked up by halving.
-/
namespace PromptWeave.Text

/-- A set of characters, by its ascending turning points. -/
structure CharTable where
  points : Array Nat
  deriving Repr, DecidableEq, Inhabited

namespace CharTable

/-- The table of a set. -/
def ofSet (s : CharSet) : CharTable := ⟨s.points.toArray⟩

/-- How many turning points lie at or below `n`, if it is at least `low` and at most `high`. -/
def turnsBetween (points : Array Nat) (n low high : Nat) : Nat :=
  if low < high then
    let middle := (low + high) / 2
    if points.getD middle 0 ≤ n then turnsBetween points n (middle + 1) high
    else turnsBetween points n low middle
  else low
termination_by high - low

/-- Whether a code point is in a set. -/
def holds (t : CharTable) (n : Nat) : Bool := turnsBetween t.points n 0 t.points.size % 2 == 1

/-- Whether a character is in a set. -/
def contains (t : CharTable) (c : Char) : Bool := t.holds c.toNat

end CharTable
end PromptWeave.Text
