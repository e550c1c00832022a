import PromptWeave.Script.Token

/-!
# The tree of a script

Expressions, statements, and the expressions that can be assigned to.
-/
namespace PromptWeave.Script

/-- The operators between two values that are both evaluated. -/
inductive BinaryOp where
  | add
  | sub
  | mul
  | div
  | mod
  | equal
  | notEqual
  | less
  | lessEqual
  | greater
  | greaterEqual
  | isIn
  | isNotIn
  deriving Repr, DecidableEq

/-- An operator as it is written. -/
def BinaryOp.symbol : BinaryOp → String
  | add => "+"
  | sub => "-"
  | mul => "*"
  | div => "/"
  | mod => "%"
  | equal => "=="
  | notEqual => "!="
  | less => "<"
  | lessEqual => "<="
  | greater => ">"
  | greaterEqual => ">="
  | isIn => "in"
  | isNotIn => "not in"

/-- An expression. -/
inductive Expr where
  | absent
  | bool (b : Bool)
  | int (n : Int64)
  | float (x : Float)
  | str (text : String)
  | list (items : List Expr)
  | var (name : String)
  | neg (operand : Expr)
  | not (operand : Expr)
  | binary (op : BinaryOp) (left right : Expr)
  | and (left right : Expr)
  | or (left right : Expr)
  | index (target index : Expr)
  | slice (target : Expr) (start stop : Option Expr)
  /-- A name after a point, without a call. -/
  | attribute (target : Expr) (name : String)
  | call (callee : Expr) (args : List Expr)
  /-- The list of `element` for each `name` among the items, as far as the condition holds. -/
  | comprehension (element : Expr) (name : String) (items : Expr) (condition : Option Expr)
  deriving Inhabited

/-- Whether an expression can be assigned to: a variable, or a chain of indexes on one. -/
def Expr.isPlace : Expr → Bool
  | var _ => true
  | index target _ => target.isPlace
  | _ => false

mutual

/-- A statement and the line on which it begins. -/
inductive Stmt where
  | mk (line : Nat) (act : Act)

/-- What a statement does. -/
inductive Act where
  | eval (e : Expr)
  | assign (target value : Expr)
  /-- Combines the value of the target with another and assigns the outcome to the target. -/
  | update (target : Expr) (op : BinaryOp) (value : Expr)
  | choose (arms : Arms)
  | forEach (name : String) (items : Expr) (body : List Stmt)
  | whileTrue (condition : Expr) (body : List Stmt)
  | breakLoop
  | continueLoop

/-- The arms of a choice, of which the first with a true condition is run. -/
inductive Arms where
  | when (condition : Expr) (body : List Stmt) (rest : Arms)
  | otherwise (body : List Stmt)
  | done

end

/-- The line on which a statement begins. -/
def Stmt.line : Stmt → Nat
  | mk line _ => line

/-- What a statement does. -/
def Stmt.act : Stmt → Act
  | mk _ act => act

end PromptWeave.Script
