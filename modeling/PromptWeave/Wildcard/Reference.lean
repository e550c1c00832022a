import PromptWeave.Text.Blank
import PromptWeave.Text.Pieces

/-!
# References to wildcards

A tag in angle brackets refers to a wildcard, or offers alternatives with bars between them. In other
tags, names between double underscores refer to wildcards.
-/
namespace PromptWeave.Wildcard

open PromptWeave.Text

/-- What the text in angle brackets refers to. -/
inductive Reference where
  /-- A line of a wildcard, chosen by chance. -/
  | chance (name : String)
  /-- The next line of a wildcard. -/
  | sequential (name : String)
  /-- The line of a wildcard that stands where another wildcard is. -/
  | observer (watched name : String)
  /-- An observer that does not say what it gives. -/
  | malformed
  deriving Repr, DecidableEq

/-- A part of a tag: text as it is, or a name between double underscores. -/
inductive Piece where
  | text (s : String)
  | block (name : String)
  deriving Repr, DecidableEq

/-- What a tag asks for. -/
inductive Request where
  | choice (alternatives : List String)
  | reference (r : Reference)
  | blocks (pieces : List Piece)
  | plain
  deriving Repr, DecidableEq

/-- Reads what stands in angle brackets. A star asks for the next line, and a dollar sign with a
colon for the line that stands where another wildcard is. -/
def Reference.ofText (text : String) : Reference :=
  match text.toList with
  | '*' :: rest => .sequential (trim (String.ofList rest))
  | '$' :: rest =>
      match splitOnce? ':' (String.ofList rest) with
      | some (watched, name) => .observer (trim watched) (trim name)
      | none => .malformed
  | _ => .chance text

/-- Reads a name up to the next double underscore. `read` holds the name so far, back to front; a
name does not run over the end of a line. -/
def nameUpTo (read : List Char) : List Char → Option (List Char × List Char)
  | [] => none
  | '_' :: '_' :: rest => some (read.reverse, rest)
  | c :: rest => if c == '\n' then none else nameUpTo (c :: read) rest

/-- Reads a name between double underscores, at least one character of it. -/
def readBlock : List Char → Option (List Char × List Char)
  | '_' :: '_' :: c :: rest => if c == '\n' then none else nameUpTo [c] rest
  | _ => none

/-- Puts text in front of pieces, unless it is empty. `read` holds it back to front. -/
def withText (read : List Char) (pieces : List Piece) : List Piece :=
  if read.isEmpty then pieces else .text (String.ofList read.reverse) :: pieces

/-- Cuts a tag into pieces. A block begins as soon as it can and is as short as it can be. `read`
holds the text since the last block, back to front, and `room` bounds the number of characters. -/
def piecesFrom (read : List Char) : (room : Nat) → List Char → List Piece
  | _, [] => withText read []
  | 0, _ => withText read []
  | room + 1, c :: rest =>
      match readBlock (c :: rest) with
      | some (name, after) =>
          withText read (.block (String.ofList name) :: piecesFrom [] room after)
      | none => piecesFrom (c :: read) room rest

/-- The pieces of a tag. -/
def pieces (tag : String) : List Piece := piecesFrom [] tag.length tag.toList

/-- Whether a piece is a block. -/
def Piece.isBlock : Piece → Bool
  | block _ => true
  | text _ => false

/-- The text between angle brackets, if a tag stands in them. -/
def inner? (tag : String) : Option String :=
  match (trim tag).toList with
  | '<' :: rest =>
      if rest.getLast? == some '>' then some (String.ofList rest.dropLast) else none
  | _ => none

/-- Whether a character stands between alternatives. -/
def isBar (c : Char) : Bool := c == '|'

/-- What a tag asks for. -/
def Request.ofTag (tag : String) : Request :=
  match inner? tag with
  | some inner =>
      if inner.toList.any isBar then
        .choice ((piecesAt isBar inner.toList).map fun cs => trim (String.ofList cs))
      else .reference (.ofText (trim inner))
  | none =>
      let parts := pieces tag
      if parts.any Piece.isBlock then .blocks parts else .plain

end PromptWeave.Wildcard
