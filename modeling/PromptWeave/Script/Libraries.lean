import PromptWeave.Pattern.Replacement
import PromptWeave.Random.Draw
import PromptWeave.Script.Arguments
import PromptWeave.Words

/-!
# Libraries

The functions of `re`, `math` and `random`. Only those of `random` use the generator.
-/
namespace PromptWeave.Script

open PromptWeave.Decimal (Double)
open PromptWeave.Pattern (Program)
open PromptWeave.Random (Generator)

/-- The program of a pattern. -/
def patternOf (v : Value) : Outcome Program := do
  let text ← expectText "re" v
  match Pattern.compile? text with
  | some p => return p
  | none => .error (.badPattern text)

/-- A found text, or nothing. -/
def ofFound : Option String → Value
  | some s => .str s
  | none => .absent

/-- A list of texts that may not be too long. -/
def boundedTexts (texts : List String) : Outcome Value := do
  checkItems texts.length
  return .list (texts.map .str)

/-- Searches for a pattern in a text. -/
def searchPattern (name : String) (atStart : Bool) (args : List Value) : Outcome Value := do
  let (pattern, text) ← twoArguments name args
  let p ← patternOf pattern
  return ofFound (p.search atStart (← expectText name text))

/-- Calls a function of `re`. -/
def callPattern (name : String) (args : List Value) : Outcome Value := do
  match name with
  | "search" => searchPattern name false args
  | "match" => searchPattern name true args
  | "sub" =>
      let (pattern, replacement, text) ← threeArguments name args
      let p ← patternOf pattern
      let replacement ← expectText name replacement
      boundedText (p.replaceAll replacement (← expectText name text))
  | "findall" =>
      let (pattern, text) ← twoArguments name args
      let p ← patternOf pattern
      boundedTexts (p.findTexts (← expectText name text))
  | "split" =>
      let (pattern, text) ← twoArguments name args
      let p ← patternOf pattern
      boundedTexts (p.split (← expectText name text))
  | _ => .error (.noFunction .re name)

/-- The number that one argument is. -/
def oneNumber (name : String) (args : List Value) : Outcome Double := do
  expectNumber name (← oneArgument name args)

/-- Calls a function of `math`. -/
def callMath (name : String) (args : List Value) : Outcome Value := do
  match name with
  | "floor" => integerOf .floor (← oneNumber name args).value
  | "ceil" => integerOf .ceiling (← oneNumber name args).value
  | "round" => integerOf .nearestEven (← oneNumber name args).value
  | "sqrt" =>
      let x ← oneNumber name args
      if x.value < 0.0 then .error .domainError else return .float x.sqrt
  | "pow" =>
      let (base, exponent) ← twoArguments name args
      let base ← expectNumber name base
      return .float (base.pow (← expectNumber name exponent))
  | _ => .error (.noFunction .math name)

/-- An integer between two bounds, the bounds among them. Between the least and the greatest integer
the word that is drawn is the answer as it is. -/
def drawInteger (low high : Int) (g : Generator) : Value × Generator :=
  let count := (high - low + 1).toNat
  let (n, g) := g.below .wide count
  (.int (Int64.ofInt (if count = words64 then n else low + n)), g)

/-- Calls a function of `random`. -/
def callRandom (name : String) (args : List Value) (g : Generator) :
    Outcome (Value × Generator) := do
  match name with
  | "random" =>
      noArguments name args
      let (x, g) := g.fraction
      return (.float (.ofFloat x), g)
  | "randint" =>
      let (low, high) ← twoArguments name args
      let low := (← expectInt name low).toInt
      let high := (← expectInt name high).toInt
      if high < low then .error (.emptyRange low high)
      return drawInteger low high g
  | "choice" =>
      let items ← expectItems name (← oneArgument name args)
      if items.isEmpty then .error .emptyChoice
      let (i, g) := g.below .wide items.length
      return (items.getD i .absent, g)
  | "shuffle" =>
      let items ← expectItems name (← oneArgument name args)
      let (shuffled, g) := g.shuffle items
      return (.list shuffled, g)
  | "sample" =>
      let (items, count) ← twoArguments name args
      let items ← expectItems name items
      let count := (← expectInt name count).toInt
      if count < 0 || (items.length : Int) < count then .error .badSampleSize
      let (picked, g) := g.sample items count.toNat
      return (.list picked, g)
  | _ => .error (.noFunction .random name)

/-- The constants of a library. -/
def constantOf (l : Library) (name : String) : Outcome Value :=
  match l, name with
  | .math, "pi" => .ok (.float (.ofFloat 3.141592653589793))
  | .math, "e" => .ok (.float (.ofFloat 2.718281828459045))
  | _, _ => .error (.noLibraryAttribute l name)

/-- Calls a function of a library. -/
def callLibrary (l : Library) (name : String) (args : List Value) (g : Generator) :
    Outcome (Value × Generator) :=
  match l with
  | .re => (·, g) <$> callPattern name args
  | .math => (·, g) <$> callMath name args
  | .random => callRandom name args g

end PromptWeave.Script
