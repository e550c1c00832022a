import PromptWeave.Script.Parser

/-!
# The grammar of scripts

Which tokens are a script and which tree they stand for, said without a reader. A phrase is put
together of the phrases in it and of the tokens between them, so no token is left out or counted twice.

    script      := newline* body eof
    body        := [statement (newline+ statement)* newline*]
    block       := "{" newline* body "}"
    statement   := "if" expression block arms | "for" name "in" expression block
                 | "while" expression block | "break" | "continue"
                 | expression [("=" | "+=" | "-=") expression]
    arms        := (newline* ("elif" | "else" "if") expression block)* [newline* "else" block]
    expression  := conjunction ("or" conjunction)*
    conjunction := negation ("and" negation)*
    negation    := "not" negation | sum [comparison sum]
    sum         := product (("+" | "-") product)*
    product     := sign (("*" | "/" | "%") sign)*
    sign        := "-" sign | postfixed
    postfixed   := primary ("(" items ")" | "[" index "]" | "." name)*
    index       := expression | [expression] ":" [expression]
    primary     := literal | name | "(" expression ")" | "[" items "]"
                 | "[" expression "for" name "in" expression ["if" expression] "]"
    items       := [expression ["," items]]

Chains group to the left: the tree of a chain has the chain without its last link on the left.
-/
namespace PromptWeave.Script

/-! ### Tokens -/

/-- The tokens before the end of the script that carry nothing with them. -/
inductive TokenKind.Fixed : TokenKind → Prop where
  | keyword (k : Keyword) : Fixed (.keyword k)
  | mark (m : Mark) : Fixed (.mark m)
  | newline : Fixed .newline

/-- The kinds of tokens. -/
def kinds (ts : List Token) : List TokenKind := ts.map Token.kind

@[simp] theorem kinds_nil : kinds [] = [] := rfl

@[simp] theorem kinds_cons (t : Token) (ts : List Token) : kinds (t :: ts) = t.kind :: kinds ts := rfl

@[simp] theorem kinds_append (ts us : List Token) : kinds (ts ++ us) = kinds ts ++ kinds us :=
  List.map_append

@[simp] theorem length_kinds (ts : List Token) : (kinds ts).length = ts.length := List.length_map ..

/-! ### Expressions -/

/-- The forms that phrases of expressions have, from the loosest to the tightest. -/
inductive Form where
  | chain (rank : Rank)
  | negation
  | sign
  | postfixed
  | primary
  deriving DecidableEq

/-- The form of the operands of a chain. -/
def Rank.operand : Rank → Form
  | disjunction => .chain .conjunction
  | conjunction => .negation
  | sum => .chain .product
  | product => .sign

/-- The form of a whole expression. -/
abbrev Form.expression : Form := .chain .disjunction

/-- The operators of chains and what they make of their operands. -/
inductive Joins : Rank → TokenKind → (Expr → Expr → Expr) → Prop where
  | or : Joins .disjunction (.keyword .orWord) .or
  | and : Joins .conjunction (.keyword .andWord) .and
  | add : Joins .sum (.mark .plus) (.binary .add)
  | sub : Joins .sum (.mark .minus) (.binary .sub)
  | mul : Joins .product (.mark .star) (.binary .mul)
  | div : Joins .product (.mark .slash) (.binary .div)
  | mod : Joins .product (.mark .percent) (.binary .mod)

/-- The operators of comparisons. One of them is written with two words. -/
inductive Compares : List TokenKind → BinaryOp → Prop where
  | equal : Compares [.mark .equal] .equal
  | notEqual : Compares [.mark .notEqual] .notEqual
  | less : Compares [.mark .less] .less
  | lessEqual : Compares [.mark .lessEqual] .lessEqual
  | greater : Compares [.mark .greater] .greater
  | greaterEqual : Compares [.mark .greaterEqual] .greaterEqual
  | isIn : Compares [.keyword .inWord] .isIn
  | isNotIn : Compares [.keyword .notWord, .keyword .inWord] .isNotIn

/-- The tokens that stand for an expression on their own. -/
inductive Stands : TokenKind → Expr → Prop where
  | int (n : Int64) : Stands (.int n) (.int n)
  | float (x : Float) : Stands (.float x) (.float x)
  | str (text : String) : Stands (.str text) (.str text)
  | trueWord : Stands (.keyword .trueWord) (.bool true)
  | falseWord : Stands (.keyword .falseWord) (.bool false)
  | noneWord : Stands (.keyword .noneWord) .absent
  | name (letters : String) : Stands (.name letters) (.var letters)

theorem join?_eq_some_iff {rank : Rank} {k : TokenKind} {join : Expr → Expr → Expr} :
    rank.join? k = some join ↔ Joins rank k join := by
  constructor
  · intro h
    unfold Rank.join? at h
    split at h <;> cases h <;> constructor
  · rintro ⟨⟩ <;> rfl

/-- A token that compares does so alone, unless it is the word `not` before the word `in`. -/
theorem comparison?_eq_some_iff {beforeIn : Bool} {k : TokenKind} {op : BinaryOp} :
    comparison? beforeIn k = some op ↔
      op ≠ .isNotIn ∧ Compares [k] op ∨ op = .isNotIn ∧ k = .keyword .notWord ∧ beforeIn = true := by
  constructor
  · intro h
    unfold comparison? at h
    split at h
    case h_8 =>
      split at h
      case isTrue hin =>
        cases h
        exact .inr ⟨rfl, rfl, hin⟩
      case isFalse => cases h
    case h_9 => cases h
    all_goals
      cases h
      exact .inl ⟨nofun, by constructor⟩
  · rintro (⟨hop, ⟨⟩⟩ | ⟨rfl, rfl, rfl⟩) <;> rfl

mutual

/-- The tokens of a phrase and the expression that they stand for. -/
inductive Phrase : Form → List TokenKind → Expr → Prop where
  | operand {rank : Rank} {ts : List TokenKind} {e : Expr} :
      Phrase rank.operand ts e → Phrase (.chain rank) ts e
  | link {rank : Rank} {ts us : List TokenKind} {op : TokenKind} {join : Expr → Expr → Expr}
      {left right : Expr} : Phrase (.chain rank) ts left → Joins rank op join →
      Phrase rank.operand us right → Phrase (.chain rank) (ts ++ op :: us) (join left right)
  | not {ts : List TokenKind} {e : Expr} : Phrase .negation ts e →
      Phrase .negation (.keyword .notWord :: ts) (.not e)
  | uncompared {ts : List TokenKind} {e : Expr} : Phrase (.chain .sum) ts e → Phrase .negation ts e
  | compared {ts ops us : List TokenKind} {op : BinaryOp} {left right : Expr} :
      Phrase (.chain .sum) ts left → Compares ops op → Phrase (.chain .sum) us right →
      Phrase .negation (ts ++ (ops ++ us)) (.binary op left right)
  | neg {ts : List TokenKind} {e : Expr} : Phrase .sign ts e →
      Phrase .sign (.mark .minus :: ts) (.neg e)
  | unsigned {ts : List TokenKind} {e : Expr} : Phrase .postfixed ts e → Phrase .sign ts e
  | bare {ts : List TokenKind} {e : Expr} : Phrase .primary ts e → Phrase .postfixed ts e
  | call {ts us : List TokenKind} {callee : Expr} {args : List Expr} : Phrase .postfixed ts callee →
      Items us args →
      Phrase .postfixed (ts ++ .mark .leftParen :: (us ++ [.mark .rightParen])) (.call callee args)
  | index {ts us : List TokenKind} {target index : Expr} : Phrase .postfixed ts target →
      Phrase .expression us index →
      Phrase .postfixed (ts ++ .mark .leftBracket :: (us ++ [.mark .rightBracket]))
        (.index target index)
  | slice {ts us vs : List TokenKind} {target : Expr} {start stop : Option Expr} :
      Phrase .postfixed ts target → Bound us start → Bound vs stop →
      Phrase .postfixed
        (ts ++ .mark .leftBracket :: (us ++ .mark .colon :: (vs ++ [.mark .rightBracket])))
        (.slice target start stop)
  | attribute {ts : List TokenKind} {target : Expr} {name : String} : Phrase .postfixed ts target →
      Phrase .postfixed (ts ++ [.mark .dot, .name name]) (.attribute target name)
  | token {k : TokenKind} {e : Expr} : Stands k e → Phrase .primary [k] e
  | parens {ts : List TokenKind} {e : Expr} : Phrase .expression ts e →
      Phrase .primary (.mark .leftParen :: (ts ++ [.mark .rightParen])) e
  | list {ts : List TokenKind} {items : List Expr} : Items ts items →
      Phrase .primary (.mark .leftBracket :: (ts ++ [.mark .rightBracket])) (.list items)
  | comprehension {ts us vs : List TokenKind} {element items : Expr} {name : String}
      {condition : Option Expr} : Phrase .expression ts element → Phrase .expression us items →
      Condition vs condition →
      Phrase .primary
        (.mark .leftBracket :: (ts ++ .keyword .forWord :: .name name :: .keyword .inWord ::
          (us ++ (vs ++ [.mark .rightBracket]))))
        (.comprehension element name items condition)

/-- Expressions with commas between them; a comma may stand after the last. -/
inductive Items : List TokenKind → List Expr → Prop where
  | none : Items [] []
  | last {ts : List TokenKind} {e : Expr} : Phrase .expression ts e → Items ts [e]
  | more {ts us : List TokenKind} {e : Expr} {rest : List Expr} : Phrase .expression ts e →
      Items us rest → Items (ts ++ .mark .comma :: us) (e :: rest)

/-- An end of a slice, which may be missing. -/
inductive Bound : List TokenKind → Option Expr → Prop where
  | none : Bound [] none
  | some {ts : List TokenKind} {e : Expr} : Phrase .expression ts e → Bound ts (some e)

/-- The condition of a comprehension, which may be missing. -/
inductive Condition : List TokenKind → Option Expr → Prop where
  | none : Condition [] none
  | some {ts : List TokenKind} {e : Expr} : Phrase .expression ts e →
      Condition (.keyword .ifWord :: ts) (some e)

end

/-- An end of a slice that is there is an expression. -/
theorem Bound.phrase {ts : List TokenKind} {e : Expr} :
    Bound ts (Option.some e) → Phrase .expression ts e
  | .some h => h

/-! ### Statements -/

/-- The expressions that can be assigned to: a variable, and an index on one that can be. -/
inductive Place : Expr → Prop where
  | var (name : String) : Place (.var name)
  | index {target : Expr} (i : Expr) : Place target → Place (.index target i)

theorem isPlace_iff {e : Expr} : e.isPlace = true ↔ Place e := by
  constructor
  · intro h
    fun_induction Expr.isPlace e with
    | case1 name => exact .var name
    | case2 target i ih => exact .index i (ih h)
    | case3 => cases h
  · intro h
    induction h with
    | var name => rfl
    | index i _ ih => exact ih

/-- The marks that combine the value of a place with another. -/
inductive Updates : Mark → BinaryOp → Prop where
  | add : Updates .plusAssign .add
  | sub : Updates .minusAssign .sub

/-- Ends of lines and nothing else. -/
def Newlines (gap : List Token) : Prop := ∀ t ∈ gap, t.kind = .newline

theorem newlines_nil : Newlines [] := nofun

@[simp] theorem newlines_cons {t : Token} {gap : List Token} :
    Newlines (t :: gap) ↔ t.kind = .newline ∧ Newlines gap := List.forall_mem_cons

mutual

/-- The tokens of a statement and what it does; the flag tells whether a loop is around it. -/
inductive Sentence : Bool → List Token → Act → Prop where
  | eval {inLoop : Bool} {ts : List Token} {e : Expr} : Phrase .expression (kinds ts) e →
      Sentence inLoop ts (.eval e)
  | assign {inLoop : Bool} {ts us : List Token} {line : Nat} {target value : Expr} :
      Phrase .expression (kinds ts) target → Place target → Phrase .expression (kinds us) value →
      Sentence inLoop (ts ++ ⟨line, .mark .assign⟩ :: us) (.assign target value)
  | update {inLoop : Bool} {ts us : List Token} {line : Nat} {mark : Mark} {op : BinaryOp}
      {target value : Expr} : Phrase .expression (kinds ts) target → Place target →
      Updates mark op → Phrase .expression (kinds us) value →
      Sentence inLoop (ts ++ ⟨line, .mark mark⟩ :: us) (.update target op value)
  | choose {inLoop : Bool} {ts us : List Token} {line : Nat} {arm : Expr × List Stmt} {more : Arms} :
      Guarded inLoop ts arm → MoreArms inLoop us more →
      Sentence inLoop (⟨line, .keyword .ifWord⟩ :: (ts ++ us)) (.choose (.when arm.1 arm.2 more))
  | forEach {inLoop : Bool} {ts : List Token} {line nameLine inLine : Nat} {name : String}
      {loop : Expr × List Stmt} : Guarded true ts loop →
      Sentence inLoop (⟨line, .keyword .forWord⟩ :: ⟨nameLine, .name name⟩ ::
        ⟨inLine, .keyword .inWord⟩ :: ts) (.forEach name loop.1 loop.2)
  | whileTrue {inLoop : Bool} {ts : List Token} {line : Nat} {loop : Expr × List Stmt} :
      Guarded true ts loop →
      Sentence inLoop (⟨line, .keyword .whileWord⟩ :: ts) (.whileTrue loop.1 loop.2)
  | breakLoop {line : Nat} : Sentence true [⟨line, .keyword .breakWord⟩] .breakLoop
  | continueLoop {line : Nat} : Sentence true [⟨line, .keyword .continueWord⟩] .continueLoop

/-- An expression and a block. -/
inductive Guarded : Bool → List Token → Expr × List Stmt → Prop where
  | mk {inLoop : Bool} {ts us : List Token} {e : Expr} {body : List Stmt} :
      Phrase .expression (kinds ts) e → Block inLoop us body → Guarded inLoop (ts ++ us) (e, body)

/-- The arms of a choice after its first. Each may stand on lines of its own. -/
inductive MoreArms : Bool → List Token → Arms → Prop where
  | done {inLoop : Bool} : MoreArms inLoop [] .done
  | elif {inLoop : Bool} {gap ts us : List Token} {line : Nat} {arm : Expr × List Stmt} {more : Arms} :
      Newlines gap → Guarded inLoop ts arm → MoreArms inLoop us more →
      MoreArms inLoop (gap ++ ⟨line, .keyword .elifWord⟩ :: (ts ++ us)) (.when arm.1 arm.2 more)
  | elseIf {inLoop : Bool} {gap ts us : List Token} {line ifLine : Nat} {arm : Expr × List Stmt}
      {more : Arms} : Newlines gap → Guarded inLoop ts arm → MoreArms inLoop us more →
      MoreArms inLoop (gap ++ ⟨line, .keyword .elseWord⟩ :: ⟨ifLine, .keyword .ifWord⟩ :: (ts ++ us))
        (.when arm.1 arm.2 more)
  | otherwise {inLoop : Bool} {gap ts : List Token} {line : Nat} {body : List Stmt} :
      Newlines gap → Block inLoop ts body →
      MoreArms inLoop (gap ++ ⟨line, .keyword .elseWord⟩ :: ts) (.otherwise body)

/-- Statements in braces. -/
inductive Block : Bool → List Token → List Stmt → Prop where
  | mk {inLoop : Bool} {gap ts : List Token} {line endLine : Nat} {body : List Stmt} :
      Newlines gap → Body inLoop ts body →
      Block inLoop (⟨line, .mark .leftBrace⟩ :: (gap ++ (ts ++ [⟨endLine, .mark .rightBrace⟩]))) body

/-- Statements with ends of lines between them, which may stand after the last as well. A statement
has the line of its first token. -/
inductive Body : Bool → List Token → List Stmt → Prop where
  | none {inLoop : Bool} : Body inLoop [] []
  | last {inLoop : Bool} {t : Token} {ts : List Token} {act : Act} : Sentence inLoop (t :: ts) act →
      Body inLoop (t :: ts) [.mk t.line act]
  | more {inLoop : Bool} {t : Token} {ts gap us : List Token} {line : Nat} {act : Act}
      {rest : List Stmt} : Sentence inLoop (t :: ts) act → Newlines gap → Body inLoop us rest →
      Body inLoop (t :: (ts ++ ⟨line, .newline⟩ :: (gap ++ us))) (.mk t.line act :: rest)

end

/-- The tokens of a script and its statements. -/
inductive IsScript : List Token → List Stmt → Prop where
  | mk {gap ts : List Token} {line : Nat} {body : List Stmt} : Newlines gap → Body false ts body →
      IsScript (gap ++ (ts ++ [⟨line, .eof⟩])) body

end PromptWeave.Script
