import PromptWeave.Script.Arguments
import PromptWeave.Text.Blank
import PromptWeave.Text.Casing

/-!
# Methods of lists and texts

A method of a list either changes the list or answers a question about it. Texts are never changed.
-/
namespace PromptWeave.Script

/-- A method that changes its list. -/
inductive Mutator where
  | append
  | extend
  | insert
  | remove
  | pop
  | clear
  | sort
  | reverse
  deriving Repr, DecidableEq

/-- The changing method of a name. -/
def Mutator.ofName? : String → Option Mutator
  | "append" => some append
  | "extend" => some extend
  | "insert" => some insert
  | "remove" => some remove
  | "pop" => some pop
  | "clear" => some clear
  | "sort" => some sort
  | "reverse" => some reverse
  | _ => none

/-- The place at which an item is inserted; a negative index counts from the end, and one beyond
either end is that end. -/
def insertionPoint (size : Nat) (index : Int) : Nat :=
  if index < 0 then (size + index).toNat else min index.toNat size

/-- Calls a method that changes its list: what the call gives, and the list afterwards. -/
def Mutator.apply (m : Mutator) (items args : List Value) : Outcome (Value × List Value) := do
  match m with
  | append =>
      let item ← oneArgument "append" args
      checkItems (items.length + 1)
      checkBytes (Value.listSizeBytes items + item.sizeBytes)
      return (.absent, items ++ [item])
  | extend =>
      let more ← expectItems "extend" (← oneArgument "extend" args)
      checkItems (items.length + more.length)
      checkBytes (Value.listSizeBytes items + Value.listSizeBytes more)
      return (.absent, items ++ more)
  | insert =>
      let (index, item) ← twoArguments "insert" args
      checkItems (items.length + 1)
      let place := insertionPoint items.length (← expectInt "insert" index).toInt
      checkBytes (Value.listSizeBytes items + item.sizeBytes)
      return (.absent, items.insertIdx place item)
  | remove =>
      let item ← oneArgument "remove" args
      return (.absent, items.eraseP (· == item))
  | pop =>
      let index ← optionalArgument "pop" args
      if items.isEmpty then .error .popFromEmpty
      let place ← match index with
        | some index => position items.length index
        | none => pure (items.length - 1)
      return (items.getD place .absent, items.eraseIdx place)
  | clear =>
      noArguments "clear" args
      return (.absent, [])
  | sort =>
      noArguments "sort" args
      return (.absent, ← sortValues items)
  | reverse =>
      noArguments "reverse" args
      return (.absent, items.reverse)

/-- Calls a method that answers a question about a list. -/
def askList (items : List Value) (name : String) (args : List Value) : Outcome Value := do
  match name with
  | "index" =>
      let item ← oneArgument name args
      match items.findIdx? (· == item) with
      | some i => return ofCount i
      | none => .error (.notInList item.repr)
  | "count" =>
      let item ← oneArgument name args
      return ofCount (items.countP (· == item))
  | "copy" =>
      noArguments name args
      return .list items
  | _ => .error (.noMethod .list name)

/-- The pieces of a text between the occurrences of a separator, or between blanks if there is no
separator. -/
def splitText (s : String) (separator : Option Value) : Outcome (List Value) := do
  match separator with
  | none | some .absent =>
      return (Text.runsOutside Text.isBlank s.toList).map fun cs => .str (String.ofList cs)
  | some v =>
      let separator ← expectText "split" v
      if separator.isEmpty then .error .emptySeparator
      return (Text.cut separator s).map .str

/-- Calls a method of a text. -/
def askText (s : String) (name : String) (args : List Value) : Outcome Value := do
  match name with
  | "lower" =>
      noArguments name args
      return .str (Text.toLowercase s)
  | "upper" =>
      noArguments name args
      return .str (Text.toUppercase s)
  | "strip" =>
      match ← optionalArgument name args with
      | none => return .str (Text.trim s)
      | some v =>
          let chars := (← expectText name v).toList
          return .str (Text.strip chars.contains s)
  | "replace" =>
      let (needle, replacement) ← twoArguments name args
      let needle ← expectText name needle
      let replacement ← expectText name replacement
      if needle.isEmpty then .error .emptyNeedle
      boundedText (Text.replace needle replacement s)
  | "startswith" => return .bool (Text.beginsWith (← expectText name (← oneArgument name args)) s)
  | "endswith" => return .bool (Text.endsWith (← expectText name (← oneArgument name args)) s)
  | "contains" => return .bool (Text.occursIn (← expectText name (← oneArgument name args)) s)
  | "find" =>
      match Text.position? (← expectText name (← oneArgument name args)) s with
      | some i => return ofCount i
      | none => return .int (-1)
  | "split" =>
      let pieces ← splitText s (← optionalArgument name args)
      checkItems pieces.length
      return .list pieces
  | "join" =>
      match ← oneArgument name args with
      | .list items => return .str (s.intercalate (items.map Value.text))
      | other => .error (.wrongArgument name .list other.kind)
  | _ => .error (.noMethod .str name)

/-- Calls a method that leaves its receiver as it is. -/
def ask (receiver : Value) (name : String) (args : List Value) : Outcome Value :=
  match receiver with
  | .str s => askText s name args
  | .list items => askList items name args
  | other => .error (.noMethod other.kind name)

end PromptWeave.Script
