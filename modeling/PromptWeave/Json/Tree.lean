import PromptWeave.Json.Token

/-!
# Documents as they are written

A tree keeps numbers as they are written, fields in their order and repeated fields as well. It is
built from the tokens one after the other, with the open arrays and objects in a list, so a document
may be nested to any depth.
-/
namespace PromptWeave.Json

/-- A document, or a part of one, as it is written. -/
inductive Tree where
  | null
  | bool (b : Bool)
  | number (n : Numeral)
  /-- A text; nothing if it names half of a surrogate pair. -/
  | text (s : Option String)
  | array (items : List Tree)
  | object (fields : List (Option String × Tree))
  deriving Inhabited

/-- An array or object that has not been closed. Its parts are kept back to front. -/
inductive Frame where
  | array (items : List Tree)
  /-- The fields and the key of the field that has been begun. -/
  | object (fields : List (Option String × Tree)) (key : Option String)

/-- What may come next. -/
inductive Expected where
  | value
  /-- After an opening bracket. -/
  | valueOrClose
  /-- After an opening brace, with the fields back to front; a field or the closing brace. -/
  | keyOrClose
  /-- After a comma in an object. -/
  | key (fields : List (Option String × Tree))
  | colon
  | commaOrClose
  /-- Nothing: the document has ended. -/
  | nothing (document : Tree)

/-- The open arrays and objects, the innermost first, and what may come next. -/
structure Building where
  frames : List Frame
  expected : Expected

namespace Building

/-- Puts a finished value in its place. -/
def place (frames : List Frame) (v : Tree) : Building :=
  match frames with
  | [] => ⟨[], .nothing v⟩
  | .array items :: rest => ⟨.array (v :: items) :: rest, .commaOrClose⟩
  | .object fields key :: rest => ⟨.object ((key, v) :: fields) key :: rest, .commaOrClose⟩

/-- Begins a value with a token. -/
def begin (frames : List Frame) : Token → Option Building
  | .null => some (place frames .null)
  | .bool b => some (place frames (.bool b))
  | .number n => some (place frames (.number n))
  | .text s => some (place frames (.text s))
  | .openArray => some ⟨.array [] :: frames, .valueOrClose⟩
  | .openObject => some ⟨frames, .keyOrClose⟩
  | _ => none

/-- Takes one token. -/
def step (b : Building) (t : Token) : Option Building :=
  match b.expected, t with
  | .value, t => begin b.frames t
  | .valueOrClose, .closeArray => some (place b.frames.tail (.array []))
  | .valueOrClose, t => begin b.frames t
  | .keyOrClose, .closeObject => some (place b.frames (.object []))
  | .keyOrClose, .text key => some ⟨.object [] key :: b.frames, .colon⟩
  | .key fields, .text key => some ⟨.object fields key :: b.frames, .colon⟩
  | .colon, .colon => some ⟨b.frames, .value⟩
  | .commaOrClose, t =>
      match b.frames, t with
      | .array _ :: _, .comma => some ⟨b.frames, .value⟩
      | .array items :: rest, .closeArray => some (place rest (.array items.reverse))
      | .object fields _ :: rest, .comma => some ⟨rest, .key fields⟩
      | .object fields _ :: rest, .closeObject => some (place rest (.object fields.reverse))
      | _, _ => none
  | _, _ => none

/-- Takes tokens one after the other. -/
def steps : Building → List Token → Option Building
  | b, [] => some b
  | b, t :: rest =>
      match b.step t with
      | some b => steps b rest
      | none => none

end Building

/-- The document that a text writes. -/
def Tree.read? (text : String) : Option Tree := do
  let b ← Building.steps ⟨[], .value⟩ (← tokens? text)
  match b.expected with
  | .nothing document => some document
  | _ => none

end PromptWeave.Json
