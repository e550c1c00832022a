import PromptWeave.Random.Draw

/-!
# Sources of choices

A chooser picks one of several things. What it picks next depends on a state that it keeps.
-/
namespace PromptWeave.Wildcard

/-- A source of choices with states `σ`: for a number of things it gives the place of one of them
and the next state. -/
structure Chooser (σ : Type) where
  choose : (count : Nat) → σ → Nat × σ

/-- Chooses at random. -/
def Chooser.random : Chooser Random.Generator where
  choose count g := g.below .wide count

end PromptWeave.Wildcard
