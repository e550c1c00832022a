import PromptWeave.Json.Value
import PromptWeave.Words

/-!
# Records in JSON

A record is an object with known fields, or the array of its fields in their order. Fields that are
not known are passed over whatever they hold. No known field may be given twice.
-/
namespace PromptWeave.Json

/-- Reads what a tree holds, when arrays and objects in it may be nested to the given depth. -/
abbrev Decoder (α : Type) := (levels : Nat) → Tree → Option α

/-- Adds a field to the fields of a record that have been found; fields that are not known are left
out, and a second value for one is refused. -/
def addField? (names : List String) (found : Dictionary Tree) (key : Option String) (t : Tree) :
    Option (Dictionary Tree) :=
  match key with
  | none => none
  | some k =>
      if !names.contains k then some found
      else if found.contains k then none
      else some (found.insert k t)

/-- The known fields of an object. -/
def knownFields? (names : List String) :
    (found : Dictionary Tree) → List (Option String × Tree) → Option (Dictionary Tree)
  | found, [] => some found
  | found, (key, t) :: rest => (addField? names found key t).bind (knownFields? names · rest)

/-- The fields of a record with the given names. -/
def recordFields? (names : List String) : Tree → Option (Dictionary Tree)
  | .object fields => knownFields? names .empty fields
  | .array items =>
      if items.length ≤ names.length then some (.ofList (names.zip items)) else none
  | _ => none

/-- The fields that a decoder of a record may read, and the depth that is left inside it. -/
structure Fields where
  levels : Nat
  found : Dictionary Tree

/-- Reads a record: a level is entered and its fields are handed on. -/
def record (names : List String) (build : Fields → Option α) : Decoder α := fun levels t =>
  if levels = 0 then none
  else (recordFields? names t).bind fun found => build ⟨levels - 1, found⟩

/-- A field that has to be there. -/
def Fields.required (fields : Fields) (name : String) (decode : Decoder α) : Option α :=
  (fields.found.get? name).bind (decode fields.levels)

/-- A field that has a default. -/
def Fields.withDefault (fields : Fields) (name : String) (decode : Decoder α) (fallback : α) :
    Option α :=
  match fields.found.get? name with
  | some t => decode fields.levels t
  | none => some fallback

/-- A truth value. -/
def decodeBool : Decoder Bool := fun _ => fun
  | .bool b => some b
  | _ => none

/-- A text. -/
def decodeText : Decoder String := fun _ => fun
  | .text s => s
  | _ => none

/-- A natural number of 64 bits. -/
def decodeWord : Decoder Nat := fun _ => fun
  | .number n => n.toWord?
  | _ => none

/-- An integer of 32 bits. -/
def decodeInt32 : Decoder Int := fun _ => fun
  | .number n =>
      match n.toNumber? with
      | some (.integer i) => if leastInt32 ≤ i && i ≤ greatestInt32 then some i else none
      | _ => none
  | _ => none

/-- Any value. -/
def decodeValue : Decoder Value := fun levels t => t.toValue? levels

/-- Nothing for `null`, and a value for anything else. -/
def decodeOptional (decode : Decoder α) : Decoder (Option α) := fun levels => fun
  | .null => some none
  | t => (decode levels t).map some

/-- An object with any keys; of fields with one key the last counts. -/
def decodeDictionary (decode : Decoder α) : Decoder (Dictionary α) := fun levels => fun
  | .object fields =>
      if levels = 0 then none
      else
        (fields.mapM (decodeField? (levels - 1))).map Dictionary.ofList
  | _ => none
where
  /-- The key and the value of a field. -/
  decodeField? (levels : Nat) (field : Option String × Tree) : Option (String × α) := do
    return ((← field.1), (← decode levels field.2))

/-- The items of an array. -/
def decodeList (decode : Decoder α) : Decoder (List α) := fun levels => fun
  | .array items => if levels = 0 then none else items.mapM (decode (levels - 1))
  | _ => none

/-- Reads what the document in a text holds. -/
def decodeDocument? (decode : Decoder α) (text : String) : Option α :=
  (Tree.read? text).bind (decode maxDepth)

end PromptWeave.Json
