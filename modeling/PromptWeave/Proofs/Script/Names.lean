import PromptWeave.Script.Evaluation

/-!
# What expressions name

The variables that an expression reads, calls or binds are the ones that stand in it. It changes variables
in two ways only. A call of a changing method writes to the variable that its receiver belongs to, and a
comprehension binds its name, whose binding it gives back.
-/
namespace PromptWeave.Script

/-- Whether all names are allowed. -/
def Grants (Allowed : String → Prop) (names : List String) : Prop := ∀ name ∈ names, Allowed name

theorem grants_append {Allowed : String → Prop} {names more : List String} :
    Grants Allowed (names ++ more) ↔ Grants Allowed names ∧ Grants Allowed more :=
  List.forall_mem_append

theorem grants_cons {Allowed : String → Prop} {name : String} {names : List String} :
    Grants Allowed (name :: names) ↔ Allowed name ∧ Grants Allowed names :=
  List.forall_mem_cons

mutual

/-- The variables that stand in an expression, those that it calls and those that it binds among them.
The names of methods and constants are none. -/
def Expr.names : Expr → List String
  | .list items => namesOfAll items
  | .var name => [name]
  | .neg operand => operand.names
  | .not operand => operand.names
  | .binary _ left right => left.names ++ right.names
  | .and left right => left.names ++ right.names
  | .or left right => left.names ++ right.names
  | .index target index => target.names ++ index.names
  | .slice target start stop => target.names ++ (namesOfOptional start ++ namesOfOptional stop)
  | .attribute target _ => target.names
  | .call callee args => callee.names ++ namesOfAll args
  | .comprehension element name source condition =>
      name :: (source.names ++ (element.names ++ namesOfOptional condition))
  | _ => []

/-- The variables that stand in expressions. -/
def namesOfAll : List Expr → List String
  | [] => []
  | e :: rest => e.names ++ namesOfAll rest

/-- The variables that stand in an expression that may be missing. -/
def namesOfOptional : Option Expr → List String
  | none => []
  | some e => e.names

end

/-! ### Receivers -/

/-- The variable that a place belongs to. -/
def Expr.root? : Expr → Option String
  | .var name => some name
  | .index target _ => target.root?
  | _ => none

/-- The variable that a call writes to, given what is called: that of the receiver of a changing
method. -/
def Expr.written? : Expr → Option String
  | .attribute target name => if (Mutator.ofName? name).isSome then target.root? else none
  | _ => none

mutual

/-- The variables that an expression may change. What a comprehension does to its own name is not
counted, since the name is given back its binding. -/
def Expr.receivers : Expr → List String
  | .list items => receiversOfAll items
  | .neg operand => operand.receivers
  | .not operand => operand.receivers
  | .binary _ left right => left.receivers ++ right.receivers
  | .and left right => left.receivers ++ right.receivers
  | .or left right => left.receivers ++ right.receivers
  | .index target index => target.receivers ++ index.receivers
  | .slice target start stop =>
      target.receivers ++ (receiversOfOptional start ++ receiversOfOptional stop)
  | .attribute target _ => target.receivers
  | .call callee args => callee.written?.toList ++ (callee.receivers ++ receiversOfAll args)
  | .comprehension element name source condition =>
      source.receivers ++ (element.receivers ++ receiversOfOptional condition).filter (· ≠ name)
  | _ => []

/-- The variables that expressions may change. -/
def receiversOfAll : List Expr → List String
  | [] => []
  | e :: rest => e.receivers ++ receiversOfAll rest

/-- The variables that an expression may change that may be missing. -/
def receiversOfOptional : Option Expr → List String
  | none => []
  | some e => e.receivers

end

/-- Names that are allowed but for one are allowed if that one is. -/
theorem Grants.of_filter {Allowed : String → Prop} {name : String} {names : List String}
    (h : Grants Allowed (names.filter (· ≠ name))) (hname : Allowed name) : Grants Allowed names := by
  intro other hother
  by_cases heq : other = name
  · rw [heq]
    exact hname
  · exact h other (List.mem_filter.2 ⟨hother, by simpa using heq⟩)

end PromptWeave.Script
