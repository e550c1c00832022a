import PromptWeave.Pattern.Property.Age
import PromptWeave.Pattern.Property.Breaks
import PromptWeave.Pattern.Property.Script
import PromptWeave.Pattern.Property.Trait

/-!
# Properties by name

The sets of characters that a pattern names by a property, alone or with its value.
-/
namespace PromptWeave.Pattern.Property

open PromptWeave.Text

/-- A name without the differences that do not count: case, blanks, low lines and hyphens, what is
beyond ASCII, and the word "is" in front. A `c` after that word is not the category of that name. -/
def plainName (name : List Char) : String :=
  let (marked, rest) := match name with
    | i :: s :: rest => if i.toLower == 'i' && s.toLower == 's' then (true, rest) else (false, name)
    | _ => (false, name)
  let kept := rest.filter fun c => c.toNat < 128 && c != ' ' && c != '_' && c != '-'
  let kept := kept.map Char.toLower
  if marked && kept == ['c'] then "isc" else String.ofList kept

/-- What a table has under a name. -/
def lookUp? {α : Type} (table : List (List String × α)) (name : String) : Option α :=
  (table.find? fun entry => entry.1.contains name).map (·.2)

/-- The script with a name. -/
def script? (name : String) : Option Script := scripts.find? fun s => s.names.contains name

/-- The set of a category, a script or a trait. -/
def named? (name : String) : Option CharSet :=
  (lookUp? categories name).orElse fun _ =>
    ((script? name).map Script.members).orElse fun _ => lookUp? traits name

/-- The set of the characters for which a property has a value. -/
def valued? (property value : String) : Option CharSet :=
  match property with
  | "gc" | "generalcategory" => lookUp? categories value
  | "sc" | "script" => (script? value).map Script.members
  | "scx" | "scriptextensions" => (script? value).map Script.extended
  | "age" => age? value
  | "gcb" | "graphemeclusterbreak" => (lookUp? graphemeBreaks value).map .ofSteps
  | "wb" | "wordbreak" => (lookUp? wordBreaks value).map .ofSteps
  | "sb" | "sentencebreak" => (lookUp? sentenceBreaks value).map .ofSteps
  | _ => none

/-- Cuts a text at the first place where a mark stands. -/
def cutAt? (mark : List Char) (before : List Char) : List Char → Option (List Char × List Char)
  | [] => none
  | c :: rest =>
      if mark.isPrefixOf (c :: rest) then some (before.reverse, (c :: rest).drop mark.length)
      else cutAt? mark (c :: before) rest

/-- What a text names as a property: whether the characters without it are meant, and the set of
those with it. -/
def ofText? (text : List Char) : Option (Bool × CharSet) :=
  let value (parts : List Char × List Char) := valued? (plainName parts.1) (plainName parts.2)
  match cutAt? ['!', '='] [] text with
  | some parts => (value parts).map (true, ·)
  | none =>
      match (cutAt? [':'] [] text).orElse fun _ => cutAt? ['='] [] text with
      | some parts => (value parts).map (false, ·)
      | none => (named? (plainName text)).map (false, ·)

end PromptWeave.Pattern.Property
