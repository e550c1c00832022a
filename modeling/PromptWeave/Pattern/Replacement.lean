import PromptWeave.Pattern.Search
import PromptWeave.Words

/-!
# Replacing matches

A replacement is text in which a dollar sign names a group: by its number or its name, in braces or
up to the first character that cannot belong to a name. Two dollar signs stand for one.
-/
namespace PromptWeave.Pattern

/-- A part of a replacement. -/
inductive ReplacementPart where
  | char (c : Char)
  | group (name : String)
  deriving Repr, DecidableEq

/-- Whether a character belongs to a name that is not in braces. -/
def isReferencePart (c : Char) : Bool := c.isAlphanum || c == '_'

/-- Reads the parts of a replacement. `room` bounds the number of characters. -/
def readReplacement : (room : Nat) → List Char → List ReplacementPart
  | 0, _ => []
  | _, [] => []
  | room + 1, '$' :: rest =>
      match rest with
      | '$' :: rest => .char '$' :: readReplacement room rest
      | '{' :: more =>
          match more.dropWhile (· != '}') with
          | _ :: after =>
              .group (String.ofList (more.takeWhile (· != '}'))) :: readReplacement room after
          | [] => .char '$' :: readReplacement room rest
      | rest =>
          let name := rest.takeWhile isReferencePart
          if name.isEmpty then .char '$' :: readReplacement room rest
          else .group (String.ofList name) :: readReplacement room (rest.dropWhile isReferencePart)
  | room + 1, c :: rest => .char c :: readReplacement room rest

/-- The number of a group: the number that its name writes, or the number of the group with that
name. -/
def groupNumber? (names : List (String × Nat)) (name : String) : Option Nat :=
  let digits := match name.toList with
    | '+' :: ds => ds
    | ds => ds
  let n := Decimal.digitsValue digits
  if !digits.isEmpty && digits.all Char.isDigit && n < words64 then some n else names.lookup name

/-- The text that a replacement stands for at a match; a group that is unknown or has not matched is
empty. -/
def expand (p : Program) (whole : Array Char) (m : Match) (parts : List ReplacementPart) :
    List Char :=
  parts.flatMap fun
    | .char c => [c]
    | .group name =>
        match (groupNumber? p.names name).bind m.span? with
        | some (start, stop) => (whole.extract start stop).toList
        | none => []

/-- A text with each match replaced. -/
def Program.replaceAll (p : Program) (replacement text : String) : String :=
  let cs := text.toList
  let parts := readReplacement replacement.length replacement.toList
  String.ofList (go cs.toArray parts 0 [] (p.findAll cs))
where
  /-- Replaces matches from the place `last` on; `done` holds the result back to front. -/
  go (whole : Array Char) (parts : List ReplacementPart) (last : Nat) (done : List Char) :
      List Match → List Char
    | [] => done.reverseAux (whole.extract last whole.size).toList
    | m :: rest =>
        let (start, stop) := m.span
        let done := (whole.extract last start).toList.reverseAux done
        go whole parts stop ((expand p whole m parts).reverseAux done) rest

end PromptWeave.Pattern
