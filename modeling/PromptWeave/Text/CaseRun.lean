import PromptWeave.Text.CharSet

/-!
# Runs of characters that change alike

A change of case moves most characters by a distance that they share with their neighbours.
-/
namespace PromptWeave.Text

/-- A run of code points that a change of case moves by the same distance: every `step`-th code
point from `first` to `last`. -/
structure CaseRun where
  first : Nat
  last : Nat
  step : Nat
  shift : Int
  deriving Repr

namespace CaseRun

/-- Whether a run holds a code point. -/
def holds (r : CaseRun) (n : Nat) : Bool :=
  r.first ≤ n && n ≤ r.last && (n - r.first) % r.step == 0

/-- Where the first run that holds `n` moves it. -/
def shifted? (runs : List CaseRun) (n : Nat) : Option Nat :=
  (runs.find? (·.holds n)).map fun r => Int.toNat (n + r.shift)

/-- Each code point of a run, with what it becomes. -/
def pairs (r : CaseRun) : List (Nat × Nat) :=
  (List.range ((r.last - r.first) / r.step + 1)).map fun i =>
    let source := r.first + i * r.step
    (source, Int.toNat (source + r.shift))

end CaseRun
end PromptWeave.Text
