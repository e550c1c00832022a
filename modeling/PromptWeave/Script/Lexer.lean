import PromptWeave.Script.Token
import PromptWeave.Text.Blank
import PromptWeave.Text.Letter
import PromptWeave.Words

/-!
# From text to tokens

A text is read one character after the other. What has been read is a state: the line, the open
brackets, the finished tokens and the token at hand. Reading is a fold of one step over the
characters, so a text is read by reading its parts one after the other.
-/
namespace PromptWeave.Script

open PromptWeave.Text

/-- The token at hand. Characters that belong to it are kept back to front. -/
inductive LexMode where
  /-- Between tokens. -/
  | plain
  /-- In a comment, which ends before the line does. -/
  | comment
  /-- In a string that `quote` closes. -/
  | str (quote : Char) (read : List Char)
  /-- In a string, after a backslash. -/
  | escape (quote : Char) (read : List Char)
  /-- In the digits of an integer. -/
  | digits (read : List Char)
  /-- After digits and a point; the point belongs to the number only before another digit. -/
  | point (read : List Char)
  /-- In the digits after the point of a number. -/
  | places (read : List Char)
  /-- In a name or a keyword. -/
  | word (read : List Char)
  /-- After a mark that a following `=` extends. -/
  | extensible (first : Char)
  deriving Repr, BEq

/-- What has been read of a text. `tokens` holds the finished tokens back to front. -/
structure LexState where
  line : Nat
  nesting : Nat
  tokens : List Token
  mode : LexMode
  deriving Repr, BEq

namespace LexState

/-- Before the first character. -/
def start : LexState := ⟨1, 0, [], .plain⟩

/-- Finishes a token on the current line. -/
def push (s : LexState) (kind : TokenKind) : LexState :=
  { s with tokens := ⟨s.line, kind⟩ :: s.tokens, mode := .plain }

/-- Fails on the current line. -/
def fail {α : Type} (s : LexState) (fault : SyntaxFault) : Except SyntaxError α :=
  .error ⟨s.line, fault⟩

/-- Finishes an integer, which must fit into 64 bits with a sign. -/
def pushInt (s : LexState) (read : List Char) : Except SyntaxError LexState :=
  let n := Decimal.digitsValue read.reverse
  if (n : Int) ≤ greatestInt64 then .ok (s.push (.int (Int64.ofNat n)))
  else s.fail (.integerOutOfRange (String.ofList read.reverse))

/-- Finishes a number with a point. -/
def pushFloat (s : LexState) (read : List Char) : LexState :=
  s.push (.float ((Decimal.readFloat? read.reverse).getD 0.0))

/-- The marks that a following `=` extends, alone. -/
def singleMark? : Char → Option Mark
  | '+' => some .plus
  | '-' => some .minus
  | '=' => some .assign
  | '<' => some .less
  | '>' => some .greater
  | _ => none

/-- The marks that a following `=` extends, extended. -/
def doubleMark? : Char → Option Mark
  | '+' => some .plusAssign
  | '-' => some .minusAssign
  | '=' => some .equal
  | '!' => some .notEqual
  | '<' => some .lessEqual
  | '>' => some .greaterEqual
  | _ => none

/-- The marks that stand for themselves and open or close nothing. -/
def loneMark? : Char → Option Mark
  | '{' => some .leftBrace
  | '}' => some .rightBrace
  | ',' => some .comma
  | '.' => some .dot
  | ':' => some .colon
  | '*' => some .star
  | '/' => some .slash
  | '%' => some .percent
  | _ => none

/-- The character that a backslash and `c` stand for, if the pair is known. -/
def escaped? : Char → Option Char
  | 'n' => some '\n'
  | 't' => some '\t'
  | '\\' => some '\\'
  | '"' => some '"'
  | '\'' => some '\''
  | _ => none

/-- Begins a token with a character, or passes over it. -/
def enter (s : LexState) (c : Char) : Except SyntaxError LexState :=
  if c == '\n' then
    let s := if s.nesting == 0 then s.push .newline else s
    .ok { s with line := s.line + 1 }
  else if c == ';' then .ok (s.push .newline)
  else if isBlank c then .ok s
  else if c == '#' then .ok { s with mode := .comment }
  else if c == '"' || c == '\'' then .ok { s with mode := .str c [] }
  else if c.isDigit then .ok { s with mode := .digits [c] }
  else if isLetter c || c == '_' then .ok { s with mode := .word [c] }
  else if c == '(' then .ok { s.push (.mark .leftParen) with nesting := s.nesting + 1 }
  else if c == ')' then .ok { s.push (.mark .rightParen) with nesting := s.nesting - 1 }
  else if c == '[' then .ok { s.push (.mark .leftBracket) with nesting := s.nesting + 1 }
  else if c == ']' then .ok { s.push (.mark .rightBracket) with nesting := s.nesting - 1 }
  else if (doubleMark? c).isSome then .ok { s with mode := .extensible c }
  else
    match loneMark? c with
    | some m => .ok (s.push (.mark m))
    | none => s.fail (.unexpectedCharacter c)

/-- Finishes the token at hand where the text or the token ends. A string has to be closed, and a
bang has to be extended. -/
def close (s : LexState) : Except SyntaxError LexState :=
  match s.mode with
  | .plain => .ok s
  | .comment => .ok { s with mode := .plain }
  | .str _ _ => s.fail .unterminatedString
  | .escape _ _ => s.fail .unterminatedString
  | .digits read => s.pushInt read
  | .point read => (s.pushInt read).map (·.push (.mark .dot))
  | .places read => .ok (s.pushFloat read)
  | .word read => .ok (s.push (TokenKind.ofWord (String.ofList read.reverse)))
  | .extensible first =>
      match singleMark? first with
      | some m => .ok (s.push (.mark m))
      | none => s.fail .strayBang

/-- Finishes the token at hand and begins the next with a character. -/
def closeThenEnter (s : LexState) (c : Char) : Except SyntaxError LexState :=
  s.close.bind (·.enter c)

/-- Reads one character. -/
def step (s : LexState) (c : Char) : Except SyntaxError LexState :=
  match s.mode with
  | .plain => s.enter c
  | .comment => if c == '\n' then s.closeThenEnter c else .ok s
  | .str quote read =>
      if c == '\n' then s.fail .unterminatedString
      else if c == quote then .ok (s.push (.str (String.ofList read.reverse)))
      else if c == '\\' then .ok { s with mode := .escape quote read }
      else .ok { s with mode := .str quote (c :: read) }
  | .escape quote read =>
      match escaped? c with
      | some e => .ok { s with mode := .str quote (e :: read) }
      | none => .ok { s with mode := .str quote (c :: '\\' :: read) }
  | .digits read =>
      if c.isDigit then .ok { s with mode := .digits (c :: read) }
      else if c == '.' then .ok { s with mode := .point read }
      else s.closeThenEnter c
  | .point read =>
      if c.isDigit then .ok { s with mode := .places (c :: '.' :: read) }
      else s.closeThenEnter c
  | .places read =>
      if c.isDigit then .ok { s with mode := .places (c :: read) } else s.closeThenEnter c
  | .word read =>
      if isLetterOrNumber c || c == '_' then .ok { s with mode := .word (c :: read) }
      else s.closeThenEnter c
  | .extensible first =>
      if c == '=' then
        match doubleMark? first with
        | some m => .ok (s.push (.mark m))
        | none => s.closeThenEnter c
      else s.closeThenEnter c

/-- Reads characters one after the other. -/
def steps (s : LexState) (cs : List Char) : Except SyntaxError LexState := cs.foldlM step s

/-- The tokens in order once the text has ended; the last statement ends with the text. -/
def finish (s : LexState) : Except SyntaxError (List Token) :=
  s.close.map fun s => (⟨s.line, .eof⟩ :: ⟨s.line, .newline⟩ :: s.tokens).reverse

end LexState

/-- The tokens of a text. The last two are the end of the last statement and of the text. -/
def tokenize (source : String) : Except SyntaxError (List Token) :=
  (LexState.start.steps source.toList).bind LexState.finish

end PromptWeave.Script
