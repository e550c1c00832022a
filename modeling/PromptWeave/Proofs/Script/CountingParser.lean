import PromptWeave.Script.Parser

/-!
# A parser that counts

The readers of the parser are told how many levels they may enter and whether a loop is around them. A
parser may keep two counters instead: it adds to them where a level or a loop is entered and takes off
where it is left, and a chain of operators is left all at once, with one level for each operator. The
recursion is on how deep scripts may be nested; the loops over operators end with the levels.
-/
namespace PromptWeave.Script

open Reader

/-! ### Counters -/

/-- The tokens that have not been read, the levels that have been entered and the loops around. -/
structure CountedState where
  cursor : Cursor
  nesting : Nat
  loops : Nat

/-- Why a parser with counters stops. -/
inductive Halt where
  | fault (e : SyntaxError)
  /-- More is taken off a counter than it holds. -/
  | underflow

/-- Something that a parser with counters does. It changes the counters also when it fails. -/
def Counting (α : Type) := CountedState → Except Halt α × CountedState

namespace Counting

variable {α β : Type}

instance : Monad Counting where
  pure a := fun s => (.ok a, s)
  bind x f := fun s =>
    match x s with
    | (.ok a, s) => f a s
    | (.error e, s) => (.error e, s)

/-- Reads tokens. -/
def reading (r : Reader α) : Counting α := fun s =>
  match r s.cursor with
  | .ok (a, c) => (.ok a, { s with cursor := c })
  | .error e => (.error (.fault e), s)

/-- Enters a level. -/
def enter : Counting Unit := fun s =>
  let s := { s with nesting := s.nesting + 1 }
  if maxNesting < s.nesting then (.error (.fault ⟨s.cursor.current.line, .nestedTooDeeply⟩), s)
  else (.ok (), s)

/-- Leaves levels. -/
def leave (levels : Nat) : Counting Unit := fun s =>
  if s.nesting < levels then (.error .underflow, s)
  else (.ok (), { s with nesting := s.nesting - levels })

/-- Enters a loop. -/
def enterLoop : Counting Unit := fun s => (.ok (), { s with loops := s.loops + 1 })

/-- Leaves a loop. -/
def leaveLoop : Counting Unit := fun s =>
  if s.loops < 1 then (.error .underflow, s) else (.ok (), { s with loops := s.loops - 1 })

/-- Whether a loop is around. -/
def inLoop : Counting Bool := fun s => (.ok (decide (0 < s.loops)), s)

/-- Does something and then something else, also after a failure. -/
def thenAlways (x : Counting α) (last : Counting Unit) : Counting α := fun s =>
  match x s with
  | (result, s) =>
      match last s with
      | (.ok (), s) => (result, s)
      | (.error e, s) => (.error e, s)

/-- Does something inside one more level, which is left also after a failure. -/
def inside (x : Counting α) : Counting α := do
  enter
  x.thenAlways (leave 1)

end Counting

open Counting

/-- The parts of the parser that enter a level. -/
structure Nest where
  expression : Counting Expr
  /-- What stands behind the word `not`. -/
  negation : Counting Expr
  /-- What stands behind a sign. -/
  sign : Counting Expr
  block : Counting (List Stmt)

namespace Nest

/-- No further level may be entered. -/
def shut : Nest where
  expression := reading (fail .nestedTooDeeply)
  negation := reading (fail .nestedTooDeeply)
  sign := reading (fail .nestedTooDeeply)
  block := reading (fail .nestedTooDeeply)

variable (inner : Nest)

/-- Expressions with commas between them up to the token `close`. -/
def items (close : Mark) (what : String) : (room : Nat) → Counting (List Expr)
  | 0 => reading (do fail (.unexpected (← peek)))
  | room + 1 => do
      let first ← inner.expression
      if ← reading (accept (.mark close)) then
        return [first]
      reading (expect (.mark .comma) what)
      if ← reading (accept (.mark close)) then
        return [first]
      return first :: (← items close what room)

/-- The arguments of a call after its parenthesis. -/
def arguments : Counting (List Expr) := do
  if ← reading (accept (.mark .rightParen)) then
    return []
  inner.items .rightParen "',' or ')'" ((← reading left) + 1)

/-- An expression, unless the current token is `close`. -/
def bound (close : Mark) : Counting (Option Expr) := do
  if (← reading peek) == .mark close then
    return none
  return some (← inner.expression)

/-- An index or a slice after its bracket. -/
def indexOrSlice (target : Expr) : Counting Expr := do
  let start ← inner.bound .colon
  if ← reading (accept (.mark .colon)) then
    let stop ← inner.bound .rightBracket
    reading (expect (.mark .rightBracket) "']'")
    return .slice target start stop
  reading (expect (.mark .rightBracket) "']'")
  match start with
  | some i => return .index target i
  | none => reading (fail .emptyIndex)

/-- A list after its bracket. -/
def listDisplay : Counting Expr := do
  if ← reading (accept (.mark .rightBracket)) then
    return .list []
  let first ← inner.expression
  if ← reading (accept (.keyword .forWord)) then
    let name ← reading identifier
    reading (expect (.keyword .inWord) "'in'")
    let source ← inner.expression
    let condition ← if ← reading (accept (.keyword .ifWord)) then do
        let e ← inner.expression
        pure (some e)
      else pure none
    reading (expect (.mark .rightBracket) "']'")
    return .comprehension first name source condition
  if ← reading (accept (.mark .rightBracket)) then
    return .list [first]
  reading (expect (.mark .comma) "',' or ']'")
  if ← reading (accept (.mark .rightBracket)) then
    return .list [first]
  return .list (first :: (← inner.items .rightBracket "',' or ']'" ((← reading left) + 1)))

/-- A literal, a name, a list or an expression in parentheses. -/
def primary : Counting Expr := do
  match ← reading advance with
  | .int n => return .int n
  | .float x => return .float x
  | .str text => return .str text
  | .keyword .trueWord => return .bool true
  | .keyword .falseWord => return .bool false
  | .keyword .noneWord => return .absent
  | .name letters => return .var letters
  | .mark .leftParen => do
      let e ← inner.expression
      reading (expect (.mark .rightParen) "')'")
      return e
  | .mark .leftBracket => inner.listDisplay
  | found => reading (fail (.unexpected found))

/-- One call, index or attribute at the current token. -/
def postfixed (target : Expr) : Counting Expr := do
  match ← reading advance with
  | .mark .leftParen => return .call target (← inner.arguments)
  | .mark .leftBracket => inner.indexOrSlice target
  | _ => return .attribute target (← reading identifier)

/-- All calls, indexes and attributes that follow. Each enters a level, and at last all of them are
left; `levels` have been entered. No more can follow than there are levels. -/
def postfixes : (room levels : Nat) → Expr → Counting Expr
  | 0, _, _ => reading (fail .nestedTooDeeply)
  | room + 1, levels, target => do
      if opensPostfix (← reading peek) then
        enter
        postfixes room (levels + 1) (← inner.postfixed target)
      else
        leave levels
        return target

/-- A sign and its operand, or a primary expression with what follows it. -/
def readSign : Counting Expr := do
  if ← reading (accept (.mark .minus)) then
    return .neg (← inner.sign)
  inner.postfixes (maxNesting + 1) 0 (← inner.primary)

/-- The operators of a chain and the operands after them. Each operator enters a level, and at last all
of them are left; `levels` have been entered. -/
def links (rank : Rank) (operand : Counting Expr) : (room levels : Nat) → Expr → Counting Expr
  | 0, _, _ => reading (fail .nestedTooDeeply)
  | room + 1, levels, before => do
      match rank.join? (← reading peek) with
      | some join =>
          let _ ← reading advance
          enter
          let after ← operand
          links rank operand room (levels + 1) (join before after)
      | none =>
          leave levels
          return before

/-- A chain of operators. -/
def chain (rank : Rank) (operand : Counting Expr) : Counting Expr := do
  links rank operand (maxNesting + 1) 0 (← operand)

/-- A sum. -/
def sum : Counting Expr := chain .sum (chain .product inner.readSign)

/-- A sum, or the comparison of two. -/
def comparison : Counting Expr := do
  let before ← inner.sum
  match comparison? (← reading inFollows) (← reading peek) with
  | some op =>
      let _ ← reading advance
      if op == .isNotIn then
        let _ ← reading advance
      return .binary op before (← inner.sum)
  | none => return before

/-- A negation and its operand, or a comparison. -/
def readNegation : Counting Expr := do
  if ← reading (accept (.keyword .notWord)) then
    return .not (← inner.negation)
  inner.comparison

/-- An expression inside its level. -/
def disjunction : Counting Expr := chain .disjunction (chain .conjunction inner.readNegation)

/-- A condition and the block that it guards. -/
def guarded : Counting (Expr × List Stmt) := do
  let condition ← inner.expression
  return (condition, ← inner.block)

/-- The arms of a choice after its first. -/
def moreArms : (room : Nat) → Counting Arms
  | 0 => reading (do fail (.unexpected (← peek)))
  | room + 1 => do
      let before ← reading get
      reading skipNewlines
      if ← reading (accept (.keyword .elifWord)) then
        let (condition, body) ← inner.guarded
        return .when condition body (← moreArms room)
      if ← reading (accept (.keyword .elseWord)) then
        if ← reading (accept (.keyword .ifWord)) then
          let (condition, body) ← inner.guarded
          return .when condition body (← moreArms room)
        return .otherwise (← inner.block)
      reading (set before)
      return .done

/-- A choice after the word `if`. -/
def choice : Counting Act := do
  let (condition, body) ← inner.guarded
  return .choose (.when condition body (← inner.moreArms ((← reading left) + 1)))

/-- The body of a loop. -/
def loopBody : Counting (List Stmt) := do
  enterLoop
  inner.block.thenAlways leaveLoop

/-- An expression, or an assignment to one. -/
def simpleStatement : Counting Act := do
  let target ← inner.expression
  let act : Expr → Act ← match ← reading peek with
    | .mark .assign => pure (.assign target)
    | .mark .plusAssign => pure (.update target .add)
    | .mark .minusAssign => pure (.update target .sub)
    | _ => return .eval target
  let _ ← reading advance
  unless target.isPlace do
    reading (fail .badTarget)
  return act (← inner.expression)

/-- A statement of one word that is allowed only in a loop. -/
def jump (word : Keyword) (act : Act) : Counting Act := do
  unless ← inLoop do
    reading (fail (.outsideLoop (.keyword word)))
  let _ ← reading advance
  return act

/-- What a statement does. -/
def act : Counting Act := do
  match ← reading peek with
  | .keyword .ifWord =>
      let _ ← reading advance
      inner.choice
  | .keyword .forWord =>
      let _ ← reading advance
      let name ← reading identifier
      reading (expect (.keyword .inWord) "'in'")
      let source ← inner.expression
      return .forEach name source (← inner.loopBody)
  | .keyword .whileWord =>
      let _ ← reading advance
      let condition ← inner.expression
      return .whileTrue condition (← inner.loopBody)
  | .keyword .breakWord => jump .breakWord .breakLoop
  | .keyword .continueWord => jump .continueWord .continueLoop
  | _ => inner.simpleStatement

/-- A statement and its end. -/
def endedStatement : Counting Stmt := do
  let line ← reading line
  let act ← inner.act
  reading endOfStatement
  reading skipNewlines
  return .mk line act

/-- Statements up to a brace that closes their block. -/
def statements : (room : Nat) → Counting (List Stmt)
  | 0 => reading (fail .missingBrace)
  | room + 1 => do
      match ← reading peek with
      | .mark .rightBrace =>
          let _ ← reading advance
          return []
      | .eof => reading (fail .missingBrace)
      | _ =>
          let first ← inner.endedStatement
          return first :: (← statements room)

/-- A block in its braces. -/
def readBraced : Counting (List Stmt) := do
  reading (expect (.mark .leftBrace) "'\x7b'")
  reading skipNewlines
  inner.statements ((← reading left) + 1)

/-- A block, which is a level that is left behind its brace. -/
def readBlock : Counting (List Stmt) := do
  enter
  let body ← inner.readBraced
  leave 1
  return body

/-- Statements up to the end of the script. -/
def script : (room : Nat) → Counting (List Stmt)
  | 0 => return []
  | room + 1 => do
      match ← reading peek with
      | .eof => return []
      | _ =>
          let first ← inner.endedStatement
          return first :: (← script room)

/-- The parts that enter the level around `inner`. -/
def around : Nest where
  expression := inside inner.disjunction
  negation := inside inner.readNegation
  sign := inside inner.readSign
  block := inner.readBlock

/-- The parts of the parser for a script that is nested up to a depth. -/
def ofDepth : Nat → Nest
  | 0 => shut
  | n + 1 => (ofDepth n).around

/-- A whole script. -/
def program : Counting (List Stmt) := do
  reading skipNewlines
  (ofDepth maxNesting).script ((← reading left) + 1)

end Nest

end PromptWeave.Script
