import PromptWeave.Script.Token
import PromptWeave.Script.Value

/-!
# What can go wrong in a script

The causes for which an evaluation fails, the errors of a script as a whole, and their wording.
-/
namespace PromptWeave.Script

/-- The most items that a list may have. -/
def maxItems : Nat := 100000

/-- The most bytes that a text may have. -/
def maxTextBytes : Nat := 1024 * 1024

/-- The most room that the items of a list may take. -/
def maxListBytes : Nat := 16 * 1024 * 1024

/-- What an argument has to be. -/
inductive Wanted where
  | text
  | integer
  | number
  | list
  deriving Repr, DecidableEq

/-- How messages call what an argument has to be. -/
def Wanted.describe : Wanted → String
  | text => "a string"
  | integer => "an integer"
  | number => "a number"
  | list => "a list"

/-- Why an evaluation fails. -/
inductive Fault where
  | tooManyItems (count : Nat)
  | tooManyBytes (bytes : Nat)
  /-- The sum of two texts is too long. -/
  | textTooLong (bytes : Nat)
  /-- A repetition or a replacement is too long. -/
  | textTooLarge
  | undefinedName (name : String)
  | uncalledBuiltin (name : String)
  | valueNotCallable (found : Kind)
  | expressionNotCallable
  | badTarget
  | notAssignable (found : Kind)
  | notIterable (found : Kind)
  | notSubscriptable (found : Kind)
  | notSliceable (found : Kind)
  | badIndex (found : Kind)
  | badSliceBound (found : Kind)
  | indexOutOfRange (index : Int)
  | noAttribute (found : Kind) (name : String)
  | noLibraryAttribute (library : Library) (name : String)
  | noMethod (found : Kind) (name : String)
  | noFunction (library : Library) (name : String)
  | integerOverflow
  | divisionByZero
  | moduloByZero
  | badNegation (found : Kind)
  | badOperands (symbol : String) (left right : Kind)
  | incomparable (left right : Kind)
  | badNeedle (found : Kind)
  | noMembership (found : Kind)
  /-- A call with the wrong number of arguments. -/
  | wrongArity (name : String) (least most given : Nat)
  | wrongArgument (name : String) (wanted : Wanted) (found : Kind)
  | unsortable
  | noInteger (x : Float)
  | badLiteral (name text : String)
  | inconvertible (name : String) (found : Kind)
  | noLength (found : Kind)
  | zeroStep
  | emptySequence (name : String)
  | popFromEmpty
  /-- A value, in its quoted form, that a list does not hold. -/
  | notInList (quoted : String)
  | emptyNeedle
  | emptySeparator
  | badPattern (pattern : String)
  | domainError
  | emptyRange (low high : Int)
  | emptyChoice
  | badSampleSize

/-- The wording of a cause. -/
def Fault.message : Fault → String
  | tooManyItems n =>
      "collection too large (" ++ toString n ++ " items, limit " ++ toString maxItems ++ ")"
  | tooManyBytes n =>
      "collection too large (" ++ toString n ++ " bytes, limit " ++ toString maxListBytes ++ ")"
  | textTooLong n => "string too large (" ++ toString n ++ " bytes)"
  | textTooLarge => "string too large"
  | undefinedName name => "name '" ++ name ++ "' is not defined"
  | uncalledBuiltin name => "built-in '" ++ name ++ "' must be called"
  | valueNotCallable found => "'" ++ found.name ++ "' object is not callable"
  | expressionNotCallable => "expression is not callable"
  | badTarget => "invalid assignment target"
  | notAssignable found => "'" ++ found.name ++ "' does not support item assignment"
  | notIterable found => "'" ++ found.name ++ "' is not iterable"
  | notSubscriptable found => "'" ++ found.name ++ "' is not subscriptable"
  | notSliceable found => "'" ++ found.name ++ "' is not sliceable"
  | badIndex found => "indices must be integers, not " ++ found.name
  | badSliceBound found => "slice indices must be integers, not " ++ found.name
  | indexOutOfRange index => "index " ++ toString index ++ " out of range"
  | noAttribute found name => "'" ++ found.name ++ "' has no attribute '" ++ name ++ "'"
  | noLibraryAttribute l name => "module '" ++ l.name ++ "' has no attribute '" ++ name ++ "'"
  | noMethod found name => "'" ++ found.name ++ "' has no method '" ++ name ++ "'"
  | noFunction l name => "module '" ++ l.name ++ "' has no function '" ++ name ++ "'"
  | integerOverflow => "integer overflow"
  | divisionByZero => "division by zero"
  | moduloByZero => "modulo by zero"
  | badNegation found => "bad operand type for unary -: '" ++ found.name ++ "'"
  | badOperands symbol left right =>
      "unsupported operand types for " ++ symbol ++ ": '" ++ left.name ++ "' and '" ++ right.name
        ++ "'"
  | incomparable left right => "cannot compare '" ++ left.name ++ "' with '" ++ right.name ++ "'"
  | badNeedle found => "'in <str>' requires a string, not " ++ found.name
  | noMembership found => "'" ++ found.name ++ "' does not support 'in'"
  | wrongArity name least most given =>
      let expected := if least = most then toString least
        else toString least ++ " to " ++ toString most
      name ++ "() takes " ++ expected ++ " argument(s), got " ++ toString given
  | wrongArgument name wanted found =>
      name ++ "() expects " ++ wanted.describe ++ ", got " ++ found.name
  | unsortable => "can only sort a list of strings or a list of numbers"
  | noInteger x => "cannot convert " ++ Decimal.displayShortest x ++ " to an integer"
  | badLiteral name text => "invalid literal for " ++ name ++ "(): '" ++ text ++ "'"
  | inconvertible name found => name ++ "() cannot convert " ++ found.name
  | noLength found => "'" ++ found.name ++ "' has no len()"
  | zeroStep => "range() step must not be zero"
  | emptySequence name => name ++ "() of an empty sequence"
  | popFromEmpty => "pop from empty list"
  | notInList quoted => quoted ++ " is not in list"
  | emptyNeedle => "replace() pattern must not be empty"
  | emptySeparator => "split() separator must not be empty"
  | badPattern pattern => "invalid pattern '" ++ pattern ++ "'"
  | domainError => "math domain error"
  | emptyRange low high =>
      "empty range for randint(" ++ toString low ++ ", " ++ toString high ++ ")"
  | emptyChoice => "cannot choose from an empty list"
  | badSampleSize => "sample larger than population or negative"

/-- Why a run ends before its script does. -/
inductive Stop where
  /-- The statement on a line failed. -/
  | fault (line : Nat) (cause : Fault)
  /-- The run took more steps than it was allowed to. -/
  | stepLimit (limit : Nat)

/-- Why a script yields nothing. -/
inductive ScriptError where
  /-- A word stands in the script that scripts must not hold. -/
  | denied (word : String)
  | malformed (cause : SyntaxError)
  | stopped (cause : Stop)
  /-- A variable for tags holds neither a list nor a text at the end. -/
  | invalidVariable (name : String) (found : Kind)

/-- The wording of a syntax error. -/
def SyntaxError.message (e : SyntaxError) : String :=
  "Syntax error on line " ++ toString e.line ++ ": " ++ e.fault.message

/-- The wording of an early end. -/
def Stop.message : Stop → String
  | fault line cause => "Runtime error on line " ++ toString line ++ ": " ++ cause.message
  | stepLimit limit => "Script exceeded the step limit of " ++ toString limit

/-- The wording of an error. -/
def ScriptError.message : ScriptError → String
  | denied word => "Script rejected: forbidden keyword '" ++ word ++ "'"
  | malformed cause => cause.message
  | stopped cause => cause.message
  | invalidVariable name found =>
      "Variable '" ++ name ++ "' must be a list of tags, got " ++ found.name

end PromptWeave.Script
