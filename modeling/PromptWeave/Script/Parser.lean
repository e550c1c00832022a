import PromptWeave.Script.Lexer
import PromptWeave.Script.Syntax

/-!
# From tokens to a tree

    statement   := if | for | while | "break" | "continue" | simple
    simple      := expression [("=" | "+=" | "-=") expression]
    block       := "{" statement* "}"
    expression  := conjunction ("or" conjunction)*
    conjunction := negation ("and" negation)*
    negation    := "not" negation | sum [comparison sum]
    sum         := product (("+" | "-") product)*
    product     := sign (("*" | "/" | "%") sign)*
    sign        := "-" sign | primary ("(" arguments ")" | "[" index "]" | "." name)*

A script may be nested to a depth of 64. Every bracket, block, sign, operator and call counts as one
level, and a chain of operators as one level for each operator. The readers of one level are built
from those of the level inside it, so the recursion is on the number of levels that are left.
-/
namespace PromptWeave.Script

/-- The tokens that have not been read. There is always a current one. -/
structure Cursor where
  current : Token
  later : List Token

/-- A reader takes tokens from the front and builds something of them. -/
abbrev Reader := StateT Cursor (Except SyntaxError)

namespace Reader

/-- The kind of the current token. -/
def peek : Reader TokenKind := fun c => .ok (c.current.kind, c)

/-- The line of the current token. -/
def line : Reader Nat := fun c => .ok (c.current.line, c)

/-- Fails on the line of the current token. -/
def fail {α : Type} (fault : SyntaxFault) : Reader α := fun c => .error ⟨c.current.line, fault⟩

/-- Passes over the current token and returns its kind. The last token stays current. -/
def advance : Reader TokenKind := fun c =>
  match c.later with
  | [] => .ok (c.current.kind, c)
  | next :: later => .ok (c.current.kind, ⟨next, later⟩)

/-- The number of tokens after the current one. -/
def left : Reader Nat := fun c => .ok (c.later.length, c)

/-- Passes over the current token if it is of the given kind, and says whether it was. -/
def accept (kind : TokenKind) : Reader Bool := do
  if (← peek) == kind then
    let _ ← advance
    return true
  return false

/-- Passes over a token of the given kind; `what` names it in the message if there is another. -/
def expect (kind : TokenKind) (what : String) : Reader Unit := do
  unless ← accept kind do
    fail (.expected what (← peek))

/-- Passes over ends of lines. -/
def skipNewlines : Reader Unit := fun c =>
  go c.later c.current
where
  /-- Passes over ends of lines from the token `current` on. -/
  go : List Token → Token → Except SyntaxError (Unit × Cursor)
    | [], current => .ok ((), ⟨current, []⟩)
    | next :: later, current =>
        if current.kind == .newline then go later next else .ok ((), ⟨current, next :: later⟩)

/-- Reads a name. -/
def identifier : Reader String := do
  match ← advance with
  | .name letters => return letters
  | found => fail (.expected "a name" found)

/-- Reads the token that ends a statement. A brace or the end of the script ends it as well and is
left for the block or the script. -/
def endOfStatement : Reader Unit := do
  match ← peek with
  | .newline => let _ ← advance
  | .mark .rightBrace => return
  | .eof => return
  | found => fail (.expected "end of statement" found)

/-- Whether the token after the current one is the word `in`. -/
def inFollows : Reader Bool := fun c =>
  .ok ((c.later.head?.map (·.kind == .keyword .inWord)).getD false, c)

end Reader

/-- The chains of operators that group to the left, from the loosest to the tightest. -/
inductive Rank where
  | disjunction
  | conjunction
  | sum
  | product
  deriving Repr, DecidableEq

/-- The tree that an operator of a chain builds, if the token is such an operator. -/
def Rank.join? : Rank → TokenKind → Option (Expr → Expr → Expr)
  | disjunction, .keyword .orWord => some .or
  | conjunction, .keyword .andWord => some .and
  | sum, .mark .plus => some (.binary .add)
  | sum, .mark .minus => some (.binary .sub)
  | product, .mark .star => some (.binary .mul)
  | product, .mark .slash => some (.binary .div)
  | product, .mark .percent => some (.binary .mod)
  | _, _ => none

/-- The comparison that a token stands for. The word `not` counts only before `in`. -/
def comparison? (beforeIn : Bool) : TokenKind → Option BinaryOp
  | .mark .equal => some .equal
  | .mark .notEqual => some .notEqual
  | .mark .less => some .less
  | .mark .lessEqual => some .lessEqual
  | .mark .greater => some .greater
  | .mark .greaterEqual => some .greaterEqual
  | .keyword .inWord => some .isIn
  | .keyword .notWord => if beforeIn then some .isNotIn else none
  | _ => none

/-- Whether a token begins a call, an index or an attribute of what stands before it. -/
def opensPostfix : TokenKind → Bool
  | .mark .leftParen => true
  | .mark .leftBracket => true
  | .mark .dot => true
  | _ => false

/-- The readers that may be used once a level has been entered. -/
structure Level where
  /-- One operand of a chain. -/
  operand : Rank → Reader Expr
  /-- The operators of a chain and the operands after them, given what stands before them. -/
  links : Rank → Expr → Reader Expr
  /-- One call, index or attribute. -/
  postfixed : Expr → Reader Expr
  /-- All calls, indexes and attributes that follow. -/
  postfixes : Expr → Reader Expr
  /-- The statements in braces; the flag tells whether a loop is around them. -/
  braced : Bool → Reader (List Stmt)

namespace Level

open Reader

/-- No further level may be entered. -/
def shut : Level where
  operand _ := fail .nestedTooDeeply
  links _ _ := fail .nestedTooDeeply
  postfixed _ := fail .nestedTooDeeply
  postfixes _ := fail .nestedTooDeeply
  braced _ := fail .nestedTooDeeply

variable (inner : Level)

/-- An expression, which is one level further in. -/
def expression : Reader Expr := do
  inner.links .disjunction (← inner.operand .disjunction)

/-- A block of statements, which is one level further in. -/
def block (inLoop : Bool) : Reader (List Stmt) := inner.braced inLoop

/-- Expressions with commas between them up to the token `close`, which is read as well; a comma may
stand before it. At least one expression is expected. `room` bounds their number. -/
def items (close : Mark) (what : String) : (room : Nat) → Reader (List Expr)
  | 0 => do fail (.unexpected (← peek))
  | room + 1 => do
      let first ← inner.expression
      if ← accept (.mark close) then
        return [first]
      expect (.mark .comma) what
      if ← accept (.mark close) then
        return [first]
      return first :: (← items close what room)

/-- The arguments of a call after its parenthesis. -/
def arguments : Reader (List Expr) := do
  if ← accept (.mark .rightParen) then
    return []
  inner.items .rightParen "',' or ')'" ((← left) + 1)

/-- An expression, unless the current token is `close`. -/
def bound (close : Mark) : Reader (Option Expr) := do
  if (← peek) == .mark close then
    return none
  return some (← inner.expression)

/-- An index or a slice after its bracket. -/
def indexOrSlice (target : Expr) : Reader Expr := do
  let start ← inner.bound .colon
  if ← accept (.mark .colon) then
    let stop ← inner.bound .rightBracket
    expect (.mark .rightBracket) "']'"
    return .slice target start stop
  expect (.mark .rightBracket) "']'"
  match start with
  | some i => return .index target i
  | none => fail .emptyIndex

/-- A list after its bracket: none, some or a rule for its items. -/
def listDisplay : Reader Expr := do
  if ← accept (.mark .rightBracket) then
    return .list []
  let first ← inner.expression
  if ← accept (.keyword .forWord) then
    let name ← identifier
    expect (.keyword .inWord) "'in'"
    let source ← inner.expression
    let condition ← if ← accept (.keyword .ifWord) then some <$> inner.expression else pure none
    expect (.mark .rightBracket) "']'"
    return .comprehension first name source condition
  if ← accept (.mark .rightBracket) then
    return .list [first]
  expect (.mark .comma) "',' or ']'"
  if ← accept (.mark .rightBracket) then
    return .list [first]
  return .list (first :: (← inner.items .rightBracket "',' or ']'" ((← left) + 1)))

/-- A literal, a name, a list or an expression in parentheses. -/
def primary : Reader Expr := do
  match ← advance with
  | .int n => return .int n
  | .float x => return .float x
  | .str text => return .str text
  | .keyword .trueWord => return .bool true
  | .keyword .falseWord => return .bool false
  | .keyword .noneWord => return .absent
  | .name letters => return .var letters
  | .mark .leftParen => do
      let e ← inner.expression
      expect (.mark .rightParen) "')'"
      return e
  | .mark .leftBracket => inner.listDisplay
  | found => fail (.unexpected found)

/-- One call, index or attribute at the current token. -/
def readPostfixed (target : Expr) : Reader Expr := do
  match ← advance with
  | .mark .leftParen => return .call target (← inner.arguments)
  | .mark .leftBracket => inner.indexOrSlice target
  | _ => return .attribute target (← identifier)

/-- All calls, indexes and attributes at the current token; each is one level further in. -/
def readPostfixes (target : Expr) : Reader Expr := do
  if opensPostfix (← peek) then
    inner.postfixes (← inner.postfixed target)
  else
    return target

/-- A sign and its operand, one level further in, or a primary expression with what follows it. -/
def sign : Reader Expr := do
  if ← accept (.mark .minus) then
    return .neg (← inner.operand .product)
  inner.readPostfixes (← inner.primary)

/-- The operators of a chain and the operands after them. Each operator is one level further in. -/
def readLinks (rank : Rank) (before : Expr) : Reader Expr := do
  match rank.join? (← peek) with
  | some join =>
      let _ ← advance
      let after ← inner.operand rank
      inner.links rank (join before after)
  | none => return before

/-- A product. -/
def product : Reader Expr := do inner.readLinks .product (← inner.sign)

/-- A sum. -/
def sum : Reader Expr := do inner.readLinks .sum (← inner.product)

/-- A sum, or the comparison of two. -/
def comparison : Reader Expr := do
  let before ← inner.sum
  match comparison? (← inFollows) (← peek) with
  | some op =>
      let _ ← advance
      if op == .isNotIn then
        let _ ← advance
      return .binary op before (← inner.sum)
  | none => return before

/-- A negation and its operand, one level further in, or a comparison. -/
def negation : Reader Expr := do
  if ← accept (.keyword .notWord) then
    return .not (← inner.operand .conjunction)
  inner.comparison

/-- A conjunction. -/
def conjunction : Reader Expr := do inner.readLinks .conjunction (← inner.negation)

/-- One operand of a chain. -/
def readOperand : Rank → Reader Expr
  | .disjunction => inner.conjunction
  | .conjunction => inner.negation
  | .sum => inner.product
  | .product => inner.sign

/-- A condition and the block that it guards. -/
def guarded (inLoop : Bool) : Reader (Expr × List Stmt) := do
  let condition ← inner.expression
  return (condition, ← inner.block inLoop)

/-- The arms of a choice after its first. Ends of lines may stand before `elif` and `else`; before
anything else they are left. `room` bounds the number of arms. -/
def moreArms (inLoop : Bool) : (room : Nat) → Reader Arms
  | 0 => do fail (.unexpected (← peek))
  | room + 1 => do
      let before ← get
      skipNewlines
      if ← accept (.keyword .elifWord) then
        let (condition, body) ← inner.guarded inLoop
        return .when condition body (← moreArms inLoop room)
      if ← accept (.keyword .elseWord) then
        if ← accept (.keyword .ifWord) then
          let (condition, body) ← inner.guarded inLoop
          return .when condition body (← moreArms inLoop room)
        return .otherwise (← inner.block inLoop)
      set before
      return .done

/-- A choice after the word `if`. -/
def choice (inLoop : Bool) : Reader Act := do
  let (condition, body) ← inner.guarded inLoop
  return .choose (.when condition body (← inner.moreArms inLoop ((← left) + 1)))

/-- An expression, or an assignment to one. -/
def simpleStatement : Reader Act := do
  let target ← inner.expression
  let act : Expr → Act ← match ← peek with
    | .mark .assign => pure (.assign target)
    | .mark .plusAssign => pure (.update target .add)
    | .mark .minusAssign => pure (.update target .sub)
    | _ => return .eval target
  let _ ← advance
  unless target.isPlace do
    fail .badTarget
  return act (← inner.expression)

/-- What a statement does. -/
def act (inLoop : Bool) : Reader Act := do
  match ← peek with
  | .keyword .ifWord =>
      let _ ← advance
      inner.choice inLoop
  | .keyword .forWord =>
      let _ ← advance
      let name ← identifier
      expect (.keyword .inWord) "'in'"
      let source ← inner.expression
      return .forEach name source (← inner.block true)
  | .keyword .whileWord =>
      let _ ← advance
      let condition ← inner.expression
      return .whileTrue condition (← inner.block true)
  | .keyword .breakWord => jump .breakWord .breakLoop
  | .keyword .continueWord => jump .continueWord .continueLoop
  | _ => inner.simpleStatement
where
  /-- A statement of one word that is allowed only in a loop. -/
  jump (word : Keyword) (act : Act) : Reader Act := do
    unless inLoop do
      fail (.outsideLoop (.keyword word))
    let _ ← advance
    return act

/-- A statement. -/
def statement (inLoop : Bool) : Reader Stmt := do
  let line ← line
  return .mk line (← inner.act inLoop)

/-- A statement and its end. -/
def endedStatement (inLoop : Bool) : Reader Stmt := do
  let s ← inner.statement inLoop
  endOfStatement
  skipNewlines
  return s

/-- Statements up to a brace that closes their block; it is read as well. `room` bounds their
number. -/
def statements (inLoop : Bool) : (room : Nat) → Reader (List Stmt)
  | 0 => fail .missingBrace
  | room + 1 => do
      match ← peek with
      | .mark .rightBrace =>
          let _ ← advance
          return []
      | .eof => fail .missingBrace
      | _ =>
          let first ← inner.endedStatement inLoop
          return first :: (← statements inLoop room)

/-- A block in its braces. -/
def readBraced (inLoop : Bool) : Reader (List Stmt) := do
  expect (.mark .leftBrace) "'\x7b'"
  skipNewlines
  inner.statements inLoop ((← left) + 1)

/-- Statements up to the end of the script. `room` bounds their number. -/
def script : (room : Nat) → Reader (List Stmt)
  | 0 => return []
  | room + 1 => do
      match ← peek with
      | .eof => return []
      | _ =>
          let first ← inner.endedStatement false
          return first :: (← script room)

/-- The readers of the level around `inner`. -/
def around : Level where
  operand := inner.readOperand
  links := inner.readLinks
  postfixed := inner.readPostfixed
  postfixes := inner.readPostfixes
  braced := inner.readBraced

/-- The readers that may be used when `n` more levels may be entered, the current one among them. -/
def within : Nat → Level
  | 0 => shut
  | n + 1 => (within n).around

end Level

/-- How deep a script may be nested. -/
def maxNesting : Nat := 64

/-- The statements that tokens stand for. -/
def parseTokens : List Token → Except SyntaxError (List Stmt)
  | [] => .ok []
  | first :: later => (readScript ⟨first, later⟩).map (·.1)
where
  /-- Reads a whole script. -/
  readScript : Reader (List Stmt) := do
    Reader.skipNewlines
    (Level.within maxNesting).script ((← Reader.left) + 1)

/-- The statements of a script. -/
def parse (source : String) : Except SyntaxError (List Stmt) := (tokenize source).bind parseTokens

end PromptWeave.Script
