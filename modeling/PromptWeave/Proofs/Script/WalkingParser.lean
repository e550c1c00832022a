import Mathlib.Data.PFun
import PromptWeave.Script.Parser

/-!
# A parser that walks over its tokens

The readers of the parser are given the tokens that are left, and their loops are told how often they may
go round. A parser may note instead at which place among all tokens it stands, and have loops that
nothing bounds. It is a partial function: where a loop never ends the parser comes to nothing. It keeps a
record of its moves, one token ahead or back to a place that it noted before.

What it recurses on are the levels that it may enter. A chain of operators is a loop that enters one of
them for each operator.
-/
namespace PromptWeave.Script

/-- Tokens of which the last is the end of the script. Others may stand before it that are of its kind. -/
structure Tape where
  before : List Token
  lastLine : Nat

namespace Tape

/-- All the tokens. -/
def tokens (tape : Tape) : List Token := tape.before ++ [⟨tape.lastLine, .eof⟩]

/-- The token at a place, and behind the last place the last token. -/
def token (tape : Tape) (place : Nat) : Token := tape.before.getD place ⟨tape.lastLine, .eof⟩

/-- Whether the token after a place is the word `in`. -/
def beforeIn (tape : Tape) (place : Nat) : Bool :=
  (tape.tokens[place + 1]?.map (·.kind == .keyword .inWord)).getD false

end Tape

/-- A change of the place at which a parser stands. -/
inductive Move where
  | ahead
  | back (place : Nat)
  deriving Repr, DecidableEq

/-- The place at which a parser stands, and the moves that it has made. -/
structure Walker where
  place : Nat
  moves : List Move

/-- Something that a walking parser does. It comes to nothing where it never ends. -/
abbrev Walk := ExceptT SyntaxError (StateT Walker Part)

namespace Walk

/-! ### Loops -/

section Loops

variable {α σ : Type}

/-- Whether a round of a loop was the last: what the loop gives, or what the next round begins with. A
round that fails is the last as well. -/
def afterRound : Except SyntaxError (α ⊕ σ) × Walker → (Except SyntaxError α × Walker) ⊕ (σ × Walker)
  | (.ok (.inl a), w) => .inl (.ok a, w)
  | (.ok (.inr s), w) => .inr (s, w)
  | (.error e, w) => .inl (.error e, w)

/-- One round after another. -/
def rounds (round : σ → Walk (α ⊕ σ)) : σ × Walker →. (Except SyntaxError α × Walker) ⊕ (σ × Walker) :=
  fun p => (round p.1 p.2).map afterRound

/-- Goes round until a round is the last. Nothing bounds the number of rounds. -/
def loop (round : σ → Walk (α ⊕ σ)) (s : σ) : Walk α := fun w => (rounds round).fix (s, w)

end Loops

/-! ### Moves -/

variable (tape : Tape)

/-- The kind of the current token. -/
def peek : Walk TokenKind := fun w => .some (.ok (tape.token w.place).kind, w)

/-- The line of the current token. -/
def line : Walk Nat := fun w => .some (.ok (tape.token w.place).line, w)

/-- Fails on the line of the current token. -/
def fail {α : Type} (fault : SyntaxFault) : Walk α := fun w =>
  .some (.error ⟨(tape.token w.place).line, fault⟩, w)

/-- Passes over the current token and returns its kind. The last token is not passed. -/
def advance : Walk TokenKind := fun w =>
  let kind := (tape.token w.place).kind
  if w.place < tape.before.length then .some (.ok kind, ⟨w.place + 1, w.moves ++ [.ahead]⟩)
  else .some (.ok kind, w)

/-- The place at which the parser stands. -/
def here : Walk Nat := fun w => .some (.ok w.place, w)

/-- Goes back to a place. -/
def goBack (place : Nat) : Walk Unit := fun w => .some (.ok (), ⟨place, w.moves ++ [.back place]⟩)

/-- Whether the token after the current one is the word `in`. -/
def inFollows : Walk Bool := fun w => .some (.ok (tape.beforeIn w.place), w)

/-- Passes over the current token if it is of the given kind, and says whether it was. -/
def accept (kind : TokenKind) : Walk Bool := do
  if (← peek tape) == kind then
    let _ ← advance tape
    return true
  return false

/-- Passes over a token of the given kind; `what` names it in the message if there is another. -/
def expect (kind : TokenKind) (what : String) : Walk Unit := do
  unless ← accept tape kind do
    fail tape (.expected what (← peek tape))

/-- Passes over ends of lines. -/
def skipNewlines : Walk Unit := loop (fun _ => do
  if ← accept tape .newline then return .inr ()
  return .inl ()) ()

/-- Reads a name. -/
def identifier : Walk String := do
  match ← advance tape with
  | .name letters => return letters
  | found => fail tape (.expected "a name" found)

/-- Reads the token that ends a statement, unless it is a brace or the end of the script. -/
def endOfStatement : Walk Unit := do
  match ← peek tape with
  | .newline => let _ ← advance tape
  | .mark .rightBrace => return
  | .eof => return
  | found => fail tape (.expected "end of statement" found)

/-! ### Levels -/

/-- The parts of the parser that may be used once a level has been entered. -/
structure Rung where
  operand : Rank → Walk Expr
  postfixed : Expr → Walk Expr
  braced : Bool → Walk (List Stmt)

variable (inner : List Rung)

/-- One operand of a chain, one level further in. -/
def operand (rank : Rank) : Walk Expr :=
  match inner with
  | [] => fail tape .nestedTooDeeply
  | level :: _ => level.operand rank

/-- One call, index or attribute, one level further in. -/
def postfixed (target : Expr) : Walk Expr :=
  match inner with
  | [] => fail tape .nestedTooDeeply
  | level :: _ => level.postfixed target

/-- A block of statements, one level further in. -/
def block (inLoop : Bool) : Walk (List Stmt) :=
  match inner with
  | [] => fail tape .nestedTooDeeply
  | level :: _ => level.braced inLoop

/-! ### Expressions -/

/-- The operators of a chain and the operands after them. Each operator enters a level. -/
def links (rank : Rank) (before : Expr) : Walk Expr := loop (fun (inner, before) => do
  match rank.join? (← peek tape) with
  | some join => do
      let _ ← advance tape
      let after ← operand tape inner rank
      return .inr (inner.tail, join before after)
  | none => return .inl before) (inner, before)

/-- All calls, indexes and attributes at the current token. Each of them enters a level. -/
def postfixes (target : Expr) : Walk Expr := loop (fun (inner, target) => do
  if opensPostfix (← peek tape) then
    let target ← postfixed tape inner target
    return .inr (inner.tail, target)
  return .inl target) (inner, target)

/-- An expression, which is one level further in. -/
def expression : Walk Expr := do
  let first ← operand tape inner .disjunction
  links tape inner.tail .disjunction first

/-- Expressions with commas between them up to the token `close`, which is read as well, behind those that
were read before. -/
def items (close : Mark) (what : String) (read : List Expr) : Walk (List Expr) := loop (fun read => do
  let next ← expression tape inner
  if ← accept tape (.mark close) then return .inl (read ++ [next])
  expect tape (.mark .comma) what
  if ← accept tape (.mark close) then return .inl (read ++ [next])
  return .inr (read ++ [next])) read

/-- The arguments of a call after its parenthesis. -/
def arguments : Walk (List Expr) := do
  if ← accept tape (.mark .rightParen) then
    return []
  items tape inner .rightParen "',' or ')'" []

/-- An expression, unless the current token is `close`. -/
def bound (close : Mark) : Walk (Option Expr) := do
  if (← peek tape) == .mark close then
    return none
  return some (← expression tape inner)

/-- An index or a slice after its bracket. -/
def indexOrSlice (target : Expr) : Walk Expr := do
  let start ← bound tape inner .colon
  if ← accept tape (.mark .colon) then
    let stop ← bound tape inner .rightBracket
    expect tape (.mark .rightBracket) "']'"
    return .slice target start stop
  expect tape (.mark .rightBracket) "']'"
  match start with
  | some i => return .index target i
  | none => fail tape .emptyIndex

/-- A list after its bracket: none, some or a rule for its items. -/
def listDisplay : Walk Expr := do
  if ← accept tape (.mark .rightBracket) then
    return .list []
  let first ← expression tape inner
  if ← accept tape (.keyword .forWord) then
    let name ← identifier tape
    expect tape (.keyword .inWord) "'in'"
    let source ← expression tape inner
    let condition ← if ← accept tape (.keyword .ifWord) then some <$> expression tape inner else pure none
    expect tape (.mark .rightBracket) "']'"
    return .comprehension first name source condition
  if ← accept tape (.mark .rightBracket) then
    return .list [first]
  expect tape (.mark .comma) "',' or ']'"
  if ← accept tape (.mark .rightBracket) then
    return .list [first]
  return .list (← items tape inner .rightBracket "',' or ']'" [first])

/-- A literal, a name, a list or an expression in parentheses. -/
def primary : Walk Expr := do
  match ← advance tape with
  | .int n => return .int n
  | .float x => return .float x
  | .str text => return .str text
  | .keyword .trueWord => return .bool true
  | .keyword .falseWord => return .bool false
  | .keyword .noneWord => return .absent
  | .name letters => return .var letters
  | .mark .leftParen => do
      let e ← expression tape inner
      expect tape (.mark .rightParen) "')'"
      return e
  | .mark .leftBracket => listDisplay tape inner
  | found => fail tape (.unexpected found)

/-- One call, index or attribute at the current token. -/
def readPostfixed (target : Expr) : Walk Expr := do
  match ← advance tape with
  | .mark .leftParen => return .call target (← arguments tape inner)
  | .mark .leftBracket => indexOrSlice tape inner target
  | _ => return .attribute target (← identifier tape)

/-- A sign and its operand, one level further in, or a primary expression with what follows it. -/
def sign : Walk Expr := do
  if ← accept tape (.mark .minus) then
    return .neg (← operand tape inner .product)
  postfixes tape inner (← primary tape inner)

/-- A product. -/
def product : Walk Expr := do links tape inner .product (← sign tape inner)

/-- A sum. -/
def sum : Walk Expr := do links tape inner .sum (← product tape inner)

/-- A sum, or the comparison of two. -/
def comparison : Walk Expr := do
  let before ← sum tape inner
  match comparison? (← inFollows tape) (← peek tape) with
  | some op =>
      let _ ← advance tape
      if op == .isNotIn then
        let _ ← advance tape
      return .binary op before (← sum tape inner)
  | none => return before

/-- A negation and its operand, one level further in, or a comparison. -/
def negation : Walk Expr := do
  if ← accept tape (.keyword .notWord) then
    return .not (← operand tape inner .conjunction)
  comparison tape inner

/-- A conjunction. -/
def conjunction : Walk Expr := do links tape inner .conjunction (← negation tape inner)

/-- One operand of a chain. -/
def readOperand : Rank → Walk Expr
  | .disjunction => conjunction tape inner
  | .conjunction => negation tape inner
  | .sum => product tape inner
  | .product => sign tape inner

/-! ### Statements -/

/-- A condition and the block that it guards. -/
def guarded (inLoop : Bool) : Walk (Expr × List Stmt) := do
  let condition ← expression tape inner
  return (condition, ← block tape inner inLoop)

/-- The arms of a choice that begins with some arms that were read. -/
def armsBefore (read : List (Expr × List Stmt)) (rest : Arms) : Arms :=
  read.foldr (fun arm rest => .when arm.1 arm.2 rest) rest

/-- The arms of a choice behind those that were read before. The parser looks for `elif` and `else` behind
ends of lines, and goes back if there is neither. -/
def moreArms (inLoop : Bool) (read : List (Expr × List Stmt)) : Walk Arms := loop (fun read => do
  let start ← here
  skipNewlines tape
  if ← accept tape (.keyword .elifWord) then
    return .inr (read ++ [← guarded tape inner inLoop])
  if ← accept tape (.keyword .elseWord) then
    if ← accept tape (.keyword .ifWord) then
      return .inr (read ++ [← guarded tape inner inLoop])
    return .inl (armsBefore read (.otherwise (← block tape inner inLoop)))
  goBack start
  return .inl (armsBefore read .done)) read

/-- A choice after the word `if`. -/
def choice (inLoop : Bool) : Walk Act := do
  let first ← guarded tape inner inLoop
  return .choose (← moreArms tape inner inLoop [first])

/-- An expression, or an assignment to one. -/
def simpleStatement : Walk Act := do
  let target ← expression tape inner
  let act : Expr → Act ← match ← peek tape with
    | .mark .assign => pure (.assign target)
    | .mark .plusAssign => pure (.update target .add)
    | .mark .minusAssign => pure (.update target .sub)
    | _ => return .eval target
  let _ ← advance tape
  unless target.isPlace do
    fail tape .badTarget
  return act (← expression tape inner)

/-- A statement of one word that is allowed only in a loop. -/
def jump (inLoop : Bool) (word : Keyword) (act : Act) : Walk Act := do
  unless inLoop do
    fail tape (.outsideLoop (.keyword word))
  let _ ← advance tape
  return act

/-- What a statement does. -/
def act (inLoop : Bool) : Walk Act := do
  match ← peek tape with
  | .keyword .ifWord =>
      let _ ← advance tape
      choice tape inner inLoop
  | .keyword .forWord =>
      let _ ← advance tape
      let name ← identifier tape
      expect tape (.keyword .inWord) "'in'"
      let source ← expression tape inner
      return .forEach name source (← block tape inner true)
  | .keyword .whileWord =>
      let _ ← advance tape
      let condition ← expression tape inner
      return .whileTrue condition (← block tape inner true)
  | .keyword .breakWord => jump tape inLoop .breakWord .breakLoop
  | .keyword .continueWord => jump tape inLoop .continueWord .continueLoop
  | _ => simpleStatement tape inner

/-- A statement. -/
def statement (inLoop : Bool) : Walk Stmt := do
  let line ← line tape
  return .mk line (← act tape inner inLoop)

/-- A statement and its end. -/
def endedStatement (inLoop : Bool) : Walk Stmt := do
  let s ← statement tape inner inLoop
  endOfStatement tape
  skipNewlines tape
  return s

/-- Statements up to a brace that closes their block, behind those that were read before; the brace is
read as well. -/
def statements (inLoop : Bool) (read : List Stmt) : Walk (List Stmt) := loop (fun read => do
  match ← peek tape with
  | .mark .rightBrace =>
      let _ ← advance tape
      return .inl read
  | .eof => fail tape .missingBrace
  | _ => return .inr (read ++ [← endedStatement tape inner inLoop])) read

/-- A block in its braces. -/
def readBraced (inLoop : Bool) : Walk (List Stmt) := do
  expect tape (.mark .leftBrace) "'\x7b'"
  skipNewlines tape
  statements tape inner inLoop []

/-- Statements up to the end of the script, behind those that were read before. -/
def script (read : List Stmt) : Walk (List Stmt) := loop (fun read => do
  match ← peek tape with
  | .eof => return .inl read
  | _ => return .inr (read ++ [← endedStatement tape inner false])) read

/-! ### Scripts -/

/-- The levels that may be entered where there are `n` of them, from the outermost to the innermost. -/
def ladder : Nat → List Rung
  | 0 => []
  | n + 1 =>
      { operand := readOperand tape (ladder n)
        postfixed := readPostfixed tape (ladder n)
        braced := readBraced tape (ladder n) } :: ladder n

/-- A whole script. -/
def program : Walk (List Stmt) := do
  skipNewlines tape
  script tape (ladder tape maxNesting) []

end Walk

end PromptWeave.Script
