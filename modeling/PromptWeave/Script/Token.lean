import PromptWeave.Script.Value

/-!
# Tokens of a script

The kinds of tokens, the words and marks among them, and the phrases that messages use for them.
-/
namespace PromptWeave.Script

/-- The words with a meaning of their own. -/
inductive Keyword where
  | ifWord
  | elifWord
  | elseWord
  | forWord
  | inWord
  | whileWord
  | breakWord
  | continueWord
  | andWord
  | orWord
  | notWord
  | trueWord
  | falseWord
  | noneWord
  deriving Repr, DecidableEq

/-- The marks of punctuation and the operators. -/
inductive Mark where
  | leftParen
  | rightParen
  | leftBracket
  | rightBracket
  | leftBrace
  | rightBrace
  | comma
  | dot
  | colon
  | assign
  | plusAssign
  | minusAssign
  | plus
  | minus
  | star
  | slash
  | percent
  | equal
  | notEqual
  | less
  | lessEqual
  | greater
  | greaterEqual
  deriving Repr, DecidableEq

/-- What a token is. -/
inductive TokenKind where
  | name (letters : String)
  | str (text : String)
  | int (n : Int64)
  | float (x : Float)
  | keyword (k : Keyword)
  | mark (m : Mark)
  /-- The end of a statement: a line break outside brackets, or a semicolon. -/
  | newline
  | eof
  deriving Repr, BEq

/-- A token and the line on which it was read. -/
structure Token where
  line : Nat
  kind : TokenKind
  deriving Repr, BEq

/-- The keyword that a word is, if it is one. -/
def Keyword.ofWord? : String → Option Keyword
  | "if" => some ifWord
  | "elif" => some elifWord
  | "else" => some elseWord
  | "for" => some forWord
  | "in" => some inWord
  | "while" => some whileWord
  | "break" => some breakWord
  | "continue" => some continueWord
  | "and" => some andWord
  | "or" => some orWord
  | "not" => some notWord
  | "true" => some trueWord
  | "True" => some trueWord
  | "false" => some falseWord
  | "False" => some falseWord
  | "none" => some noneWord
  | "None" => some noneWord
  | _ => none

/-- The token of a word. -/
def TokenKind.ofWord (word : String) : TokenKind :=
  match Keyword.ofWord? word with
  | some k => .keyword k
  | none => .name word

/-- How messages call a keyword. -/
def Keyword.describe : Keyword → String
  | ifWord => "if"
  | elifWord => "elif"
  | elseWord => "else"
  | forWord => "for"
  | inWord => "in"
  | whileWord => "while"
  | breakWord => "break"
  | continueWord => "continue"
  | andWord => "and"
  | orWord => "or"
  | notWord => "not"
  | trueWord => "true"
  | falseWord => "false"
  | noneWord => "none"

/-- How messages call a mark. -/
def Mark.describe : Mark → String
  | leftParen => "lparen"
  | rightParen => "rparen"
  | leftBracket => "lbracket"
  | rightBracket => "rbracket"
  | leftBrace => "lbrace"
  | rightBrace => "rbrace"
  | comma => "comma"
  | dot => "dot"
  | colon => "colon"
  | assign => "assign"
  | plusAssign => "plusassign"
  | minusAssign => "minusassign"
  | plus => "plus"
  | minus => "minus"
  | star => "star"
  | slash => "slash"
  | percent => "percent"
  | equal => "eq"
  | notEqual => "noteq"
  | less => "lt"
  | lessEqual => "lteq"
  | greater => "gt"
  | greaterEqual => "gteq"

/-- How messages call a token. -/
def TokenKind.describe : TokenKind → String
  | name letters => "name '" ++ letters ++ "'"
  | str _ => "string"
  | int _ => "number"
  | float _ => "number"
  | keyword k => k.describe
  | mark m => m.describe
  | newline => "end of line"
  | eof => "end of script"

/-- Why a text is no script. -/
inductive SyntaxFault where
  | unterminatedString
  | integerOutOfRange (digits : String)
  | strayBang
  | unexpectedCharacter (c : Char)
  | nestedTooDeeply
  | expected (what : String) (found : TokenKind)
  | missingBrace
  | outsideLoop (found : TokenKind)
  | badTarget
  | emptyIndex
  | unexpected (found : TokenKind)
  deriving Repr, BEq

/-- The wording of a fault. -/
def SyntaxFault.message : SyntaxFault → String
  | unterminatedString => "unterminated string"
  | integerOutOfRange digits => "integer out of range '" ++ digits ++ "'"
  | strayBang => "unexpected '!', use 'not'"
  | unexpectedCharacter c => "unexpected character '" ++ c.toString ++ "'"
  | nestedTooDeeply => "script is nested too deeply"
  | expected what found => "expected " ++ what ++ ", found " ++ found.describe
  | missingBrace => "missing '\x7d'"
  | outsideLoop found => found.describe ++ " outside of a loop"
  | badTarget => "can only assign to a variable or an index"
  | emptyIndex => "empty index"
  | unexpected found => "unexpected " ++ found.describe

/-- A fault and the line on which it is reported. -/
structure SyntaxError where
  line : Nat
  fault : SyntaxFault
  deriving Repr, BEq

end PromptWeave.Script
