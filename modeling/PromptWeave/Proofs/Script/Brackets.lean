import Mathlib.Data.List.Induction
import PromptWeave.Proofs.Script.Precedence
import PromptWeave.Proofs.Script.Tokens

/-!
# Brackets in scripts

In the tokens of a script each bracket that is closed has been opened, and brackets are closed before a
statement or a block begins or ends. So the number of open brackets that is kept while a text is read
is never taken below zero, and it is zero wherever a statement ends.
-/
namespace PromptWeave.Script

/-- The number of open brackets behind a token, if the token may stand where `n` are open: a bracket is
closed only where one is open, and statements and blocks begin and end where none is. -/
def TokenKind.follow (n : Nat) : TokenKind → Option Nat
  | mark .leftParen => some (n + 1)
  | mark .leftBracket => some (n + 1)
  | mark .rightParen => if n = 0 then none else some (n - 1)
  | mark .rightBracket => if n = 0 then none else some (n - 1)
  | mark .leftBrace => if n = 0 then some n else none
  | mark .rightBrace => if n = 0 then some n else none
  | newline => if n = 0 then some n else none
  | eof => if n = 0 then some n else none
  | _ => some n

/-- The number of open brackets behind tokens, if each of them may stand where it does. -/
def follow (n : Nat) (ks : List TokenKind) : Option Nat := ks.foldlM TokenKind.follow n

@[simp] theorem follow_nil (n : Nat) : follow n [] = some n := rfl

@[simp] theorem follow_cons (n : Nat) (k : TokenKind) (ks : List TokenKind) :
    follow n (k :: ks) = (k.follow n).bind (follow · ks) := rfl

@[simp] theorem follow_append (n : Nat) (ks ls : List TokenKind) :
    follow n (ks ++ ls) = (follow n ks).bind (follow · ls) := List.foldlM_append

theorem TokenKind.follow_eq_some {n m : Nat} {k : TokenKind} (h : k.follow n = some m) :
    k.openBehind n = m := by
  unfold follow at h
  split at h
  all_goals simp_all [openBehind]

/-! ### Phrases -/

theorem Stands.follow_eq {k : TokenKind} {e : Expr} (h : Stands k e) (n : Nat) :
    k.follow n = some n := by
  cases h <;> rfl

theorem Joins.follow_eq {rank : Rank} {k : TokenKind} {join : Expr → Expr → Expr}
    (h : Joins rank k join) (n : Nat) : k.follow n = some n := by
  cases h <;> rfl

theorem Compares.follow_eq {ops : List TokenKind} {op : BinaryOp} (h : Compares ops op) (n : Nat) :
    follow n ops = some n := by
  cases h <;> rfl

mutual

/-- All brackets that are opened in a phrase are closed in it. -/
theorem Phrase.follow_eq {form : Form} {ks : List TokenKind} {e : Expr} :
    Phrase form ks e → ∀ n, follow n ks = some n
  | .operand h, n => h.follow_eq n
  | @Phrase.link _ _ _ _ _ _ _ h hop h', n => by simp [h.follow_eq, hop.follow_eq, h'.follow_eq]
  | .not h, n => by simp [TokenKind.follow, h.follow_eq]
  | .uncompared h, n => h.follow_eq n
  | .compared h hops h', n => by simp [h.follow_eq, hops.follow_eq, h'.follow_eq]
  | .neg h, n => by simp [TokenKind.follow, h.follow_eq]
  | .unsigned h, n => h.follow_eq n
  | .bare h, n => h.follow_eq n
  | .call h hargs, n => by simp [TokenKind.follow, h.follow_eq, hargs.follow_eq]
  | .index h hi, n => by simp [TokenKind.follow, h.follow_eq, hi.follow_eq]
  | .slice h hstart hstop, n => by
      simp [TokenKind.follow, h.follow_eq, hstart.follow_eq, hstop.follow_eq]
  | .attribute h, n => by simp [TokenKind.follow, h.follow_eq]
  | .token h, n => by simp [h.follow_eq]
  | .parens h, n => by simp [TokenKind.follow, h.follow_eq]
  | .list h, n => by simp [TokenKind.follow, h.follow_eq]
  | .comprehension h h' hcondition, n => by
      simp [TokenKind.follow, h.follow_eq, h'.follow_eq, hcondition.follow_eq]

theorem Items.follow_eq {ks : List TokenKind} {es : List Expr} :
    Items ks es → ∀ n, follow n ks = some n
  | .none, _ => rfl
  | .last h, n => h.follow_eq n
  | .more h h', n => by simp [TokenKind.follow, h.follow_eq, h'.follow_eq]

theorem Bound.follow_eq {ks : List TokenKind} {e : Option Expr} :
    Bound ks e → ∀ n, follow n ks = some n
  | .none, _ => rfl
  | .some h, n => h.follow_eq n

theorem Condition.follow_eq {ks : List TokenKind} {e : Option Expr} :
    Condition ks e → ∀ n, follow n ks = some n
  | .none, _ => rfl
  | .some h, n => by simp [TokenKind.follow, h.follow_eq]

end

/-! ### Statements -/

/-- Ends of lines may stand where no bracket is open. -/
theorem Newlines.follow_eq {gap : List Token} (h : Newlines gap) : follow 0 (kinds gap) = some 0 := by
  induction gap with
  | nil => rfl
  | cons t gap ih =>
      obtain ⟨ht, hgap⟩ := newlines_cons.1 h
      simp [ht, TokenKind.follow, ih hgap]

mutual

/-- Where no bracket is open a statement may begin, and behind it none is open. -/
theorem Sentence.follow_eq {inLoop : Bool} {ts : List Token} {act : Act} :
    Sentence inLoop ts act → follow 0 (kinds ts) = some 0
  | .eval h => h.follow_eq 0
  | .assign h _ h' => by simp [TokenKind.follow, h.follow_eq, h'.follow_eq]
  | .update h _ hop h' => by
      cases hop <;> simp [TokenKind.follow, h.follow_eq, h'.follow_eq]
  | .choose h h' => by simp [TokenKind.follow, h.follow_eq, h'.follow_eq]
  | .forEach h => by simp [TokenKind.follow, h.follow_eq]
  | .whileTrue h => by simp [TokenKind.follow, h.follow_eq]
  | .breakLoop => rfl
  | .continueLoop => rfl

theorem Guarded.follow_eq {inLoop : Bool} {ts : List Token} {arm : Expr × List Stmt} :
    Guarded inLoop ts arm → follow 0 (kinds ts) = some 0
  | .mk h hbody => by simp [h.follow_eq, hbody.follow_eq]

theorem MoreArms.follow_eq {inLoop : Bool} {ts : List Token} {more : Arms} :
    MoreArms inLoop ts more → follow 0 (kinds ts) = some 0
  | .done => rfl
  | .elif hgap h h' => by simp [TokenKind.follow, hgap.follow_eq, h.follow_eq, h'.follow_eq]
  | .elseIf hgap h h' => by simp [TokenKind.follow, hgap.follow_eq, h.follow_eq, h'.follow_eq]
  | .otherwise hgap hbody => by simp [TokenKind.follow, hgap.follow_eq, hbody.follow_eq]

theorem Block.follow_eq {inLoop : Bool} {ts : List Token} {body : List Stmt} :
    Block inLoop ts body → follow 0 (kinds ts) = some 0
  | .mk hgap hbody => by simp [TokenKind.follow, hgap.follow_eq, hbody.follow_eq]

theorem Body.follow_eq {inLoop : Bool} {ts : List Token} {body : List Stmt} :
    Body inLoop ts body → follow 0 (kinds ts) = some 0
  | .none => rfl
  | .last h => h.follow_eq
  | .more h hgap hrest => by
      have hfirst := h.follow_eq
      rw [kinds_cons] at hfirst
      rw [kinds_cons, kinds_append, ← List.cons_append, follow_append, hfirst]
      simp [TokenKind.follow, hgap.follow_eq, hrest.follow_eq]

end

theorem IsScript.follow_eq {ts : List Token} {program : List Stmt} :
    IsScript ts program → follow 0 (kinds ts) = some 0
  | .mk hgap hbody => by simp [TokenKind.follow, hgap.follow_eq, hbody.follow_eq]

/-! ### Open brackets along a script -/

section Along

variable {ts us vs : List Token} {t : Token} {program : List Stmt}

theorem openBehind_of_follow {n : Nat} (h : follow 0 (kinds ts) = some n) : openBehind ts = n := by
  induction ts using List.reverseRecOn generalizing n with
  | nil => simpa using h
  | append_singleton ts t ih =>
      rw [kinds_append, follow_append, Option.bind_eq_some_iff] at h
      obtain ⟨m, hm, ht⟩ := h
      rw [openBehind_concat, ih hm]
      refine TokenKind.follow_eq_some ?_
      simpa using ht

/-- Each token of a script stands where it may. -/
theorem IsScript.follow_token (h : IsScript (us ++ t :: vs) program) :
    ∃ m, t.kind.follow (openBehind us) = some m := by
  have hall := h.follow_eq
  rw [kinds_append, follow_append, Option.bind_eq_some_iff] at hall
  obtain ⟨n, hn, hrest⟩ := hall
  rw [kinds_cons, follow_cons, Option.bind_eq_some_iff] at hrest
  obtain ⟨m, hm, -⟩ := hrest
  rw [openBehind_of_follow hn]
  exact ⟨m, hm⟩

theorem openBehind_append_newlines {gap : List Token} (h : Newlines gap) :
    openBehind (ts ++ gap) = openBehind ts := by
  induction gap using List.reverseRecOn with
  | nil => rw [List.append_nil]
  | append_singleton gap t ih =>
      have ht : t.kind = .newline := h t (by simp)
      have hgap : Newlines gap := fun u hu => h u (List.mem_append_left _ hu)
      rw [← List.append_assoc, openBehind_concat, ht, ← ih hgap]
      rfl

/-- No bracket is open where a statement or a block begins or ends. -/
theorem IsScript.openBehind_eq_zero (h : IsScript (us ++ t :: vs) program)
    (ht : t.kind = .newline ∨ t.kind = .mark .leftBrace ∨ t.kind = .mark .rightBrace ∨
      t.kind = .eof) : openBehind us = 0 := by
  obtain ⟨m, hm⟩ := h.follow_token
  by_contra hopen
  rcases ht with ht | ht | ht | ht <;> simp [ht, TokenKind.follow, hopen] at hm

/-- A bracket is closed only where one is open. -/
theorem IsScript.openBehind_pos (h : IsScript (us ++ t :: vs) program)
    (ht : t.kind = .mark .rightParen ∨ t.kind = .mark .rightBracket) : 0 < openBehind us := by
  obtain ⟨m, hm⟩ := h.follow_token
  by_contra hopen
  rcases ht with ht | ht <;> simp [ht, TokenKind.follow, Nat.eq_zero_of_not_pos hopen] at hm

end Along

end PromptWeave.Script
