import PromptWeave.Proofs.Script.Grammar

/-!
# How tightly tokens bind

The forms of phrases are numbered from the loosest to the tightest. An operator has the number of the
tightest form that it may stand behind, and a token with which phrases begin is tighter than exactly
the forms that it may begin. So one comparison of numbers tells whether a phrase ends before a token,
and another which form it has.
-/
namespace PromptWeave.Script

/-- The number of a form. -/
def Form.tightness : Form → Nat
  | chain .disjunction => 0
  | chain .conjunction => 1
  | negation => 2
  | chain .sum => 3
  | chain .product => 4
  | sign => 5
  | postfixed => 6
  | primary => 7

/-- The form of what a phrase begins with, if operators may follow that. -/
def Form.part : Form → Form
  | chain rank => rank.operand
  | postfixed => primary
  | form => form

/-- The number of the tightest form that ends before the token. Where no operator begins, all do. -/
def TokenKind.tightness : TokenKind → Nat
  | keyword .orWord => 1
  | keyword .andWord => 2
  | mark .equal => 3
  | mark .notEqual => 3
  | mark .less => 3
  | mark .lessEqual => 3
  | mark .greater => 3
  | mark .greaterEqual => 3
  | keyword .inWord => 3
  | keyword .notWord => 3
  | mark .plus => 4
  | mark .minus => 4
  | mark .star => 5
  | mark .slash => 5
  | mark .percent => 5
  | mark .leftParen => 7
  | mark .leftBracket => 7
  | mark .dot => 7
  | _ => 0

/-- A number above those of exactly the forms that the token may begin. -/
def TokenKind.reach : TokenKind → Nat
  | name _ => 8
  | str _ => 8
  | int _ => 8
  | float _ => 8
  | keyword .trueWord => 8
  | keyword .falseWord => 8
  | keyword .noneWord => 8
  | mark .leftParen => 8
  | mark .leftBracket => 8
  | mark .minus => 6
  | keyword .notWord => 3
  | _ => 0

/-! ### Operators -/

theorem Rank.tightness_lt_operand (rank : Rank) :
    (Form.chain rank).tightness < rank.operand.tightness := by
  cases rank <;> decide

theorem Form.tightness_le_part (form : Form) : form.tightness ≤ form.part.tightness := by
  cases form with
  | chain rank => exact Nat.le_of_lt rank.tightness_lt_operand
  | _ => decide

/-- The operators of a chain are those that may stand behind an operand and not behind the chain. -/
theorem Joins.tightness_eq {rank : Rank} {k : TokenKind} {join : Expr → Expr → Expr} :
    Joins rank k join → k.tightness = rank.operand.tightness := by
  rintro ⟨⟩ <;> rfl

theorem Joins.fixed {rank : Rank} {k : TokenKind} {join : Expr → Expr → Expr} :
    Joins rank k join → k.Fixed := by
  rintro ⟨⟩ <;> constructor

theorem tightness_of_comparison? {beforeIn : Bool} {k : TokenKind} {op : BinaryOp}
    (h : comparison? beforeIn k = some op) : k.tightness = 3 := by
  rcases comparison?_eq_some_iff.1 h with ⟨_, hops⟩ | ⟨_, rfl, _⟩
  · cases hops <;> rfl
  · rfl

theorem Compares.fixed {ops : List TokenKind} {op : BinaryOp} (h : Compares ops op) :
    ∀ k ∈ ops, k.Fixed := by
  cases h <;> simp [TokenKind.Fixed.mark, TokenKind.Fixed.keyword]

theorem tightness_of_opensPostfix {k : TokenKind} (h : opensPostfix k = true) : k.tightness = 7 := by
  unfold opensPostfix at h
  split at h
  case h_4 => cases h
  all_goals rfl

theorem Stands.reach_eq {k : TokenKind} {e : Expr} : Stands k e → k.reach = 8 := by
  rintro ⟨⟩ <;> rfl

/-! ### First tokens -/

/-- Whether tokens begin with one that may begin forms up to the number `n`. -/
def Begins (n : Nat) (ts : List TokenKind) : Prop := ∃ k us, ts = k :: us ∧ n < k.reach

theorem Begins.append {n : Nat} {ts : List TokenKind} (h : Begins n ts) (us : List TokenKind) :
    Begins n (ts ++ us) := by
  obtain ⟨k, vs, rfl, hk⟩ := h
  exact ⟨k, vs ++ us, rfl, hk⟩

theorem Begins.mono {m n : Nat} {ts : List TokenKind} (h : Begins n ts) (hm : m ≤ n) : Begins m ts := by
  obtain ⟨k, us, rfl, hk⟩ := h
  exact ⟨k, us, rfl, Nat.lt_of_le_of_lt hm hk⟩

theorem Begins.length_pos {n : Nat} {ts : List TokenKind} (h : Begins n ts) : 0 < ts.length := by
  obtain ⟨k, us, rfl, _⟩ := h
  exact Nat.succ_pos us.length

/-- A phrase begins with a token that may begin its form. -/
theorem Phrase.begins {form : Form} {ts : List TokenKind} {e : Expr} :
    Phrase form ts e → Begins form.tightness ts
  | .operand h => h.begins.mono (Nat.le_of_lt (Rank.tightness_lt_operand _))
  | @Phrase.link _ _ _ _ _ _ _ h _ _ => h.begins.append _
  | .not _ => ⟨_, _, rfl, by decide⟩
  | .uncompared h => h.begins.mono (by decide)
  | .compared h _ _ => (h.begins.mono (by decide)).append _
  | .neg _ => ⟨_, _, rfl, by decide⟩
  | .unsigned h => h.begins.mono (by decide)
  | .bare h => h.begins.mono (by decide)
  | .call h _ => h.begins.append _
  | .index h _ => h.begins.append _
  | .slice h _ _ => h.begins.append _
  | .attribute h => h.begins.append _
  | .token h => ⟨_, _, rfl, by rw [h.reach_eq]; decide⟩
  | .parens _ => ⟨_, _, rfl, by decide⟩
  | .list _ => ⟨_, _, rfl, by decide⟩
  | .comprehension _ _ _ => ⟨_, _, rfl, by decide⟩

theorem Items.begins {ts : List TokenKind} {es : List Expr} :
    Items ts es → ts = [] ∧ es = [] ∨ Begins 0 ts
  | .none => .inl ⟨rfl, rfl⟩
  | .last h => .inr h.begins
  | .more h _ => .inr (h.begins.append _)

/-- Whether no statement begins with the token. Such a token ends statements or goes on with one. -/
def TokenKind.trails : TokenKind → Bool
  | newline => true
  | eof => true
  | mark .rightBrace => true
  | keyword .elifWord => true
  | keyword .elseWord => true
  | _ => false

theorem TokenKind.trails_of_reach_pos {k : TokenKind} (h : 0 < k.reach) : k.trails = false := by
  unfold trails
  split
  case h_6 => rfl
  all_goals cases h

theorem Sentence.first {inLoop : Bool} {ts : List Token} {act : Act} (h : Sentence inLoop ts act) :
    ∃ t us, ts = t :: us ∧ t.kind.trails = false := by
  have hexpression {ts : List Token} {e : Expr} (he : Phrase .expression (kinds ts) e) :
      ∃ t us, ts = t :: us ∧ t.kind.trails = false := by
    obtain ⟨k, us, hts, hk⟩ := he.begins
    obtain ⟨t, vs, rfl, rfl, -⟩ := List.map_eq_cons_iff.1 hts
    exact ⟨t, vs, rfl, TokenKind.trails_of_reach_pos hk⟩
  cases h with
  | eval he => exact hexpression he
  | assign he _ _ =>
      obtain ⟨t, us, rfl, ht⟩ := hexpression he
      exact ⟨t, _, rfl, ht⟩
  | update he _ _ _ =>
      obtain ⟨t, us, rfl, ht⟩ := hexpression he
      exact ⟨t, _, rfl, ht⟩
  | _ => exact ⟨_, _, rfl, rfl⟩

theorem Body.first {inLoop : Bool} {t : Token} {ts : List Token} {body : List Stmt} :
    Body inLoop (t :: ts) body → t.kind.trails = false := by
  rintro (_ | h | ⟨h, _, _⟩) <;>
  · obtain ⟨t, us, hts, ht⟩ := h.first
    obtain ⟨rfl, rfl⟩ := List.cons.inj hts
    exact ht

end PromptWeave.Script
