import PromptWeave.Proofs.Decimal.Digits
import PromptWeave.Proofs.Script.Lines
import PromptWeave.Proofs.Script.Tokens

/-!
# The quoted form of values as tokens

The quoted form of a value is the text of an expression. It is read as the tokens of that expression,
whatever stands before it, up to the end of the text, a comma or a closing bracket.
-/
namespace PromptWeave.Script

open PromptWeave.Decimal (digitsValue_toDigits exists_digits)
open PromptWeave.Text

/-! ### Values and the expressions that their quoted forms are -/

/-- The values whose quoted form a script can read, with lists nested to a depth. The least integer
would be read as a sign and a number that is too great, and a text in a script ends with its line. -/
inductive Shown : Nat → Value → Prop where
  | absent {depth : Nat} : Shown depth .absent
  | bool {depth : Nat} (b : Bool) : Shown depth (.bool b)
  | int {depth : Nat} {n : Int64} : n.toInt ≠ leastInt64 → Shown depth (.int n)
  | str {depth : Nat} {s : String} : '\n' ∉ s.toList → Shown depth (.str s)
  | list {depth : Nat} {items : List Value} : (∀ v ∈ items, Shown depth v) →
      Shown (depth + 1) (.list items)

mutual

/-- The expression that the quoted form of a value is. -/
def Value.literal : Value → Expr
  | .absent => .absent
  | .bool b => .bool b
  | .int n => if n.toInt < 0 then .neg (.int (-n)) else .int n
  | .float x => .float x.value
  | .str s => .str s
  | .list items => .list (literals items)
  | .library l => .var l.name

/-- The expressions that the quoted forms of values are. -/
def literals : List Value → List Expr
  | [] => []
  | v :: rest => v.literal :: literals rest

end

mutual

/-- The kinds of the tokens of a value's quoted form. -/
def Value.literalKinds : Value → List TokenKind
  | .absent => [.keyword .noneWord]
  | .bool b => [.keyword (if b then .trueWord else .falseWord)]
  | .int n => if n.toInt < 0 then [.mark .minus, .int (-n)] else [.int n]
  | .float x => [.float x.value]
  | .str s => [.str s]
  | .list [] => [.mark .leftBracket, .mark .rightBracket]
  | .list (v :: rest) =>
      .mark .leftBracket :: (v.literalKinds ++ furtherKinds rest ++ [.mark .rightBracket])
  | .library l => [.name l.name]

/-- The kinds of the tokens of quoted forms with a comma before each. -/
def furtherKinds : List Value → List TokenKind
  | [] => []
  | v :: rest => .mark .comma :: (v.literalKinds ++ furtherKinds rest)

end

/-! ### The characters of a quoted form -/

/-- The characters of quoted forms with a comma and a space before each. -/
def furtherChars (items : List Value) : List Char :=
  items.flatMap fun v => ',' :: ' ' :: v.repr.toList

theorem toList_writeItems (items : List Value) (written : String) :
    (Value.writeItems items false written).toList = written.toList ++ furtherChars items := by
  induction items generalizing written with
  | nil => simp [Value.writeItems, furtherChars]
  | cons v rest ih => simp [Value.writeItems, ih, furtherChars]

theorem toList_repr_list (v : Value) (rest : List Value) : (Value.list (v :: rest)).repr.toList =
    '[' :: (v.repr.toList ++ furtherChars rest ++ [']']) := by
  simp [Value.repr, Value.writeItems, toList_writeItems]

/-- A negative integer is written with a sign and its digits, any other with its digits. -/
theorem toList_repr_int (n : Int64) : (Value.int n).repr.toList =
    if n.toInt < 0 then '-' :: Nat.toDigits 10 (-n.toInt).toNat
    else Nat.toDigits 10 n.toInt.toNat := by
  have hrepr : (Value.int n).repr = n.toInt.repr := by
    rw [Value.repr]
    rfl
  rw [hrepr, Int.repr_eq_if]
  by_cases hn : n.toInt < 0
  · simp [hn, Nat.repr_eq_ofList_toDigits, Int.not_le.2 hn]
  · simp [hn, Nat.repr_eq_ofList_toDigits, Int.not_lt.1 hn]

/-! ### Reading characters as tokens -/

namespace LexState

variable {s t : LexState} {cs ds : List Char} {ks : List TokenKind}

/-- Finishes tokens one after the other. -/
def puts (s : LexState) (ks : List TokenKind) : LexState := ks.foldl put s

@[simp] theorem puts_nil (s : LexState) : s.puts [] = s := rfl

@[simp] theorem puts_cons (s : LexState) (k : TokenKind) (ks : List TokenKind) :
    s.puts (k :: ks) = (s.put k).puts ks := rfl

@[simp] theorem puts_append (s : LexState) (ks ls : List TokenKind) :
    s.puts (ks ++ ls) = (s.puts ks).puts ls := List.foldl_append

theorem mode_puts (h : s.mode = .plain) (ks : List TokenKind) : (s.puts ks).mode = .plain := by
  induction ks generalizing s with
  | nil => exact h
  | cons k ks ih => exact ih rfl

/-- The tokens are on the line on which they are read. -/
theorem puts_eq (s : LexState) (ks : List TokenKind) : (s.puts ks).line = s.line ∧
    (s.puts ks).tokens = (ks.map fun k => ⟨s.line, k⟩).reverse ++ s.tokens := by
  induction ks generalizing s with
  | nil => simp
  | cons k ks ih => simp [ih, put, push]

theorem steps_of_ok (h : s.steps cs = .ok t) (ds : List Char) : s.steps (cs ++ ds) = t.steps ds := by
  rw [steps_append, h]
  rfl

theorem steps_of_step {c : Char} (h : s.step c = .ok t) (cs : List Char) :
    s.steps (c :: cs) = t.steps cs := by
  rw [steps_cons, h]
  rfl

/-- Whether the token at hand is finished as in `t`, at the end of the text and before a comma or a
closing bracket. -/
def ComesTo (s t : LexState) : Prop :=
  s.close = .ok t ∧ ∀ c, c = ',' ∨ c = ']' → s.step c = t.enter c

theorem comesTo_self (h : s.mode = .plain) : s.ComesTo s := by
  refine ⟨?_, fun c _ => ?_⟩
  · rw [close, h]
  · rw [step, h]

/-- A token that neither a comma nor a closing bracket goes on with. -/
theorem comesTo_of_close (hclose : s.close = .ok t)
    (hstep : ∀ c, c = ',' ∨ c = ']' → s.step c = s.closeThenEnter c) : s.ComesTo t := by
  refine ⟨hclose, fun c hc => ?_⟩
  rw [hstep c hc, closeThenEnter, hclose]
  rfl

end LexState

open LexState

/-- Whether characters are read as tokens of the kinds `ks` where a token begins, and the last one is
finished with the last character. -/
def Reads (cs : List Char) (ks : List TokenKind) : Prop :=
  ∀ s : LexState, s.mode = .plain → s.steps cs = .ok (s.puts ks)

/-- Whether characters are read as tokens of the kinds `ks` where a token begins, if the text ends
behind them, or a comma or a closing bracket is next. -/
def Spells (cs : List Char) (ks : List TokenKind) : Prop :=
  ∀ s : LexState, s.mode = .plain → ∃ t, s.steps cs = .ok t ∧ t.ComesTo (s.puts ks)

section

variable {cs ds : List Char} {ks ls : List TokenKind}

theorem reads_bracket : Reads ['['] [.mark .leftBracket] := by
  rintro ⟨line, nesting, tokens, _⟩ rfl
  rfl

theorem Reads.append (h : Reads cs ks) (h' : Reads ds ls) : Reads (cs ++ ds) (ks ++ ls) := by
  intro s hs
  rw [steps_of_ok (h s hs), h' _ (mode_puts hs ks), puts_append]

theorem Reads.spells_append (h : Reads cs ks) (h' : Spells ds ls) :
    Spells (cs ++ ds) (ks ++ ls) := by
  intro s hs
  rw [steps_of_ok (h s hs), puts_append]
  exact h' _ (mode_puts hs ks)

theorem Reads.spells (h : Reads cs ks) : Spells cs ks :=
  fun s hs => ⟨s.puts ks, h s hs, comesTo_self (mode_puts hs ks)⟩

/-- Before a closing bracket the last token is finished. -/
theorem Spells.bracket (h : Spells cs ks) : Reads (cs ++ [']']) (ks ++ [.mark .rightBracket]) := by
  intro s hs
  obtain ⟨t, hsteps, -, hstep⟩ := h s hs
  rw [steps_of_ok hsteps, steps_cons, hstep ']' (.inr rfl), puts_append]
  rfl

/-- Before a comma the last token is finished, and a space is passed over. -/
theorem Spells.comma (h : Spells cs ks) : Reads (cs ++ [',', ' ']) (ks ++ [.mark .comma]) := by
  intro s hs
  obtain ⟨t, hsteps, -, hstep⟩ := h s hs
  rw [steps_of_ok hsteps, steps_cons, hstep ',' (.inl rfl), puts_append]
  rfl

/-! ### Words -/

theorem spells_keyword {k : Keyword} (hword : TokenKind.ofWord (String.ofList cs) = .keyword k)
    (hsteps : ∀ line nesting tokens, LexState.steps ⟨line, nesting, tokens, .plain⟩ cs =
      .ok ⟨line, nesting, tokens, .word cs.reverse⟩) : Spells cs [.keyword k] := by
  rintro ⟨line, nesting, tokens, _⟩ rfl
  refine ⟨_, hsteps line nesting tokens, comesTo_of_close ?_ ?_⟩
  · simp [close, hword, put, push, TokenKind.openBehind]
  · rintro c (rfl | rfl) <;> rfl

/-! ### Integers -/

theorem isBlank_of_isDigit {c : Char} (h : c.isDigit = true) : isBlank c = false := by
  simp only [Char.isDigit, Bool.and_eq_true, decide_eq_true_eq, UInt32.le_iff_toNat_le] at h
  obtain ⟨hlow, hhigh⟩ : 48 ≤ c.toNat ∧ c.toNat ≤ 57 := h
  simp [isBlank]
  omega

theorem enter_digit {s : LexState} {c : Char} (h : c.isDigit = true) :
    s.enter c = .ok { s with mode := .digits [c] } := by
  have hne (d : Char) (hd : d.isDigit = false) : (c == d) = false := by
    simp only [beq_eq_false_iff_ne]
    rintro rfl
    simp [h] at hd
  simp [enter, hne, h, isBlank_of_isDigit h]

theorem steps_digits {line nesting : Nat} {tokens : List Token} (read : List Char)
    (h : ∀ c ∈ cs, c.isDigit = true) : LexState.steps ⟨line, nesting, tokens, .digits read⟩ cs =
      .ok ⟨line, nesting, tokens, .digits (cs.reverse ++ read)⟩ := by
  induction cs generalizing read with
  | nil => rfl
  | cons c cs ih =>
      have hstep : LexState.step ⟨line, nesting, tokens, .digits read⟩ c =
          .ok ⟨line, nesting, tokens, .digits (c :: read)⟩ := by
        simp [step, h c List.mem_cons_self]
      rw [steps_of_step hstep, ih (c :: read) fun d hd => h d (List.mem_cons_of_mem c hd)]
      simp

theorem spells_digits {n : Nat} (hn : (n : Int) ≤ greatestInt64) :
    Spells (Nat.toDigits 10 n) [.int (.ofNat n)] := by
  rintro ⟨line, nesting, tokens, _⟩ rfl
  have hvalue := digitsValue_toDigits n
  obtain ⟨d, ds, hcs, hd, hds⟩ := exists_digits n
  have hfirst : LexState.step ⟨line, nesting, tokens, .plain⟩ d =
    .ok ⟨line, nesting, tokens, .digits [d]⟩ := enter_digit hd
  rw [hcs] at hvalue ⊢
  rw [steps_of_step hfirst, steps_digits [d] hds]
  refine ⟨_, rfl, comesTo_of_close ?_ ?_⟩
  · simp [close, pushInt, hvalue, hn, put, push, TokenKind.openBehind]
  · rintro c (rfl | rfl) <;> rfl

/-- A minus before a digit is a token of its own. -/
theorem Spells.minus (h : Spells cs ks) (hdigit : ∃ d ds, cs = d :: ds ∧ d.isDigit = true) :
    Spells ('-' :: cs) (.mark .minus :: ks) := by
  rintro ⟨line, nesting, tokens, _⟩ rfl
  obtain ⟨d, ds, rfl, hd⟩ := hdigit
  have hne : (d == '=') = false := by
    simp only [beq_eq_false_iff_ne]
    rintro rfl
    cases hd
  have hstep : LexState.step ⟨line, nesting, tokens, .extensible '-'⟩ d =
      (LexState.put ⟨line, nesting, tokens, .plain⟩ (.mark .minus)).enter d := by
    simp only [step, hne]
    rfl
  have hsteps : LexState.steps ⟨line, nesting, tokens, .plain⟩ ('-' :: d :: ds) =
      (LexState.put ⟨line, nesting, tokens, .plain⟩ (.mark .minus)).steps (d :: ds) := by
    have hminus : LexState.step ⟨line, nesting, tokens, .plain⟩ '-' =
      .ok ⟨line, nesting, tokens, .extensible '-'⟩ := rfl
    rw [steps_of_step hminus, steps_cons, hstep]
    rfl
  rw [hsteps]
  exact h _ rfl

theorem spells_int {n : Int64} (hn : n.toInt ≠ leastInt64) :
    Spells (Value.int n).repr.toList (Value.int n).literalKinds := by
  have hleast : leastInt64 ≤ n.toInt := Int64.le_toInt n
  have hgreatest : n.toInt ≤ greatestInt64 := Int.le_of_lt_add_one (Int64.toInt_lt n)
  have hrange : -leastInt64 = greatestInt64 + 1 := rfl
  rw [toList_repr_int, Value.literalKinds]
  by_cases hneg : n.toInt < 0
  · have hvalue : Int64.ofNat (-n.toInt).toNat = -n := by
      rw [← Int64.ofInt_eq_ofNat, Int.toNat_of_nonneg (by omega), Int64.ofInt_neg, Int64.ofInt_toInt]
    have hdigits := spells_digits (n := (-n.toInt).toNat) (by omega)
    obtain ⟨d, ds, hcs, hd, -⟩ := exists_digits (-n.toInt).toNat
    rw [if_pos hneg, if_pos hneg, ← hvalue]
    exact hdigits.minus ⟨d, ds, hcs, hd⟩
  · have hvalue : Int64.ofNat n.toInt.toNat = n := by
      rw [← Int64.ofInt_eq_ofNat, Int.toNat_of_nonneg (by omega), Int64.ofInt_toInt]
    have hdigits := spells_digits (n := n.toInt.toNat) (by omega)
    rw [if_neg hneg, if_neg hneg]
    rwa [hvalue] at hdigits

/-! ### Texts -/

/-- A character in its quoted form. -/
def escaped (c : Char) : List Char := if c == '\\' || c == '\'' then ['\\', c] else [c]

theorem toList_quoted (s : String) :
    (quoted s).toList = '\'' :: (s.toList.flatMap escaped ++ ['\'']) := by
  have hquoted : quoted s = "'" ++ String.ofList (s.toList.flatMap escaped) ++ "'" := rfl
  simp [hquoted]

theorem steps_escaped {line nesting : Nat} {tokens : List Token} (read : List Char) {c : Char}
    (hc : c ≠ '\n') : LexState.steps ⟨line, nesting, tokens, .str '\'' read⟩ (escaped c) =
      .ok ⟨line, nesting, tokens, .str '\'' (c :: read)⟩ := by
  by_cases hbackslash : c = '\\'
  · subst c
    rfl
  · by_cases hquote : c = '\''
    · subst c
      rfl
    · simp [escaped, hbackslash, hquote, steps, step, hc]

theorem steps_flatMap_escaped {line nesting : Nat} {tokens : List Token} (read : List Char)
    (h : '\n' ∉ cs) : LexState.steps ⟨line, nesting, tokens, .str '\'' read⟩ (cs.flatMap escaped) =
      .ok ⟨line, nesting, tokens, .str '\'' (cs.reverse ++ read)⟩ := by
  induction cs generalizing read with
  | nil => rfl
  | cons c cs ih =>
      obtain ⟨hc, hcs⟩ : '\n' ≠ c ∧ '\n' ∉ cs := by simpa using h
      rw [List.flatMap_cons, steps_of_ok (steps_escaped read (Ne.symm hc)), ih (c :: read) hcs]
      simp

theorem reads_quoted {s : String} (hs : '\n' ∉ s.toList) : Reads (quoted s).toList [.str s] := by
  rintro ⟨line, nesting, tokens, _⟩ rfl
  have hopen : LexState.step ⟨line, nesting, tokens, .plain⟩ '\'' =
    .ok ⟨line, nesting, tokens, .str '\'' []⟩ := rfl
  rw [toList_quoted, steps_of_step hopen, steps_of_ok (steps_flatMap_escaped [] hs)]
  simp [steps, step, put, push, TokenKind.openBehind]

/-! ### Lists -/

theorem Spells.further {items : List Value} (h : Spells cs ks)
    (hitems : ∀ v ∈ items, Spells v.repr.toList v.literalKinds) :
    Spells (cs ++ furtherChars items) (ks ++ furtherKinds items) := by
  induction items generalizing cs ks with
  | nil => simpa [furtherChars, furtherKinds] using h
  | cons v rest ih =>
      have hv := h.comma.spells_append (hitems v List.mem_cons_self)
      have hrest := ih hv fun w hw => hitems w (List.mem_cons_of_mem v hw)
      simpa [furtherChars, furtherKinds] using hrest

theorem spells_list {items : List Value}
    (hitems : ∀ v ∈ items, Spells v.repr.toList v.literalKinds) :
    Spells (Value.list items).repr.toList (Value.list items).literalKinds := by
  cases items with
  | nil =>
      have hempty := reads_bracket.spells.bracket
      simpa [Value.repr, Value.writeItems, Value.literalKinds] using hempty.spells
  | cons v rest =>
      have hfirst := hitems v List.mem_cons_self
      have hall := hfirst.further fun w hw => hitems w (List.mem_cons_of_mem v hw)
      rw [toList_repr_list, Value.literalKinds]
      exact (reads_bracket.append hall.bracket).spells

end

/-- The quoted form of a value is read as the tokens of its expression. -/
theorem Shown.spells {depth : Nat} {v : Value} (h : Shown depth v) :
    Spells v.repr.toList v.literalKinds := by
  induction h with
  | absent => exact spells_keyword rfl fun _ _ _ => rfl
  | bool b =>
      cases b with
      | true => exact spells_keyword rfl fun _ _ _ => rfl
      | false => exact spells_keyword rfl fun _ _ _ => rfl
  | int hn => exact spells_int hn
  | str hs => exact (reads_quoted hs).spells
  | list _ ih => exact spells_list ih

end PromptWeave.Script
