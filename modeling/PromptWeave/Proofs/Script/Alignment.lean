import PromptWeave.Proofs.Script.Lines
import PromptWeave.Proofs.Script.StatementCompleteness

/-!
# Two runs of the parser side by side

A reader looks at the tokens that it passes over and at the one behind them, and at nothing else; only
for the arms of a choice it looks past ends of lines. So two runs over the same tokens do the same,
whatever the lines and whatever comes behind. This is shown once for all readers of two runs that stand
side by side, from the elementary readers upwards, for whatever keeps runs side by side.
-/
namespace PromptWeave.Script

open Reader

/-! ### Runs side by side -/

/-- Behind an end of a line the same is skipped to as at it. -/
theorem Reader.skipNewlines_behind {c : Cursor} (h : c.current.kind = .newline) :
    skipNewlines c.behind = skipNewlines c := by
  cases c with
  | mk current later =>
      cases later with
      | nil => rfl
      | cons next later =>
          exact (if_pos (TokenKind.Fixed.newline.beq_iff_eq.2 h)).symm

/-- Whether a statement may end before the current token. -/
def Cursor.Ends (c : Cursor) : Prop := c.current.kind = .newline ∨ c.Stops

/-- Passing the end of a statement comes to the same as skipping ends of lines. -/
theorem Cursor.Ends.ending_apply {α : Type} {c : Cursor} (h : c.Ends) (r : Unit → Reader α) :
    (do endOfStatement; let x ← skipNewlines; r x) c = (skipNewlines >>= r) c := by
  rcases h with hline | hstops
  · have hend : endOfStatement c = .ok ((), c.behind) := by
      rw [endOfStatement, peek_bind, hline]
      exact bind_of_ok (advance_eq c)
    rw [bind_of_ok hend, Reader.bind_apply, Reader.bind_apply, skipNewlines_behind hline]
  · rw [bind_of_ok hstops.endOfStatement]

theorem Reader.endOfStatement_fails {c : Cursor} (h : ¬ c.Ends) :
    endOfStatement c = .error ⟨c.current.line, .expected "end of statement" c.current.kind⟩ := by
  rw [endOfStatement, peek_bind]
  rw [Cursor.Ends, Cursor.Stops] at h
  generalize c.current.kind = k at h ⊢
  split
  case h_4 => rfl
  all_goals simp at h

/-- Behind the current token the word `in` is found where it is the next. -/
theorem Cursor.kind_behind {c : Cursor} (h : c.beforeIn = true) :
    c.behind.current.kind = .keyword .inWord := by
  cases c with
  | mk current later =>
      cases later with
      | nil => cases h
      | cons next later => exact (TokenKind.Fixed.keyword .inWord).beq_iff_eq.1 h

/-- What keeps two runs side by side, of which the second is some lines further down. -/
structure Alignment where
  lines : Nat
  /-- Whether the runs stay side by side to the end, so that the second also fails as the first. -/
  total : Prop
  /-- Whether the runs stand before the same tokens. -/
  Beside : Cursor → Cursor → Prop
  /-- Whether the first run has come to the end of its script, while the second may go on. -/
  Parted : Cursor → Cursor → Prop
  current_eq {c c' : Cursor} : Beside c c' → c'.current = c.current.down lines
  behind {c c' : Cursor} : Beside c c' → total ∨ c.current.kind ≠ .newline →
    Beside c.behind c'.behind
  beforeIn_eq {c c' : Cursor} : Beside c c' → total ∨ c.current.kind ≠ .newline →
    c'.beforeIn = c.beforeIn
  length_le {c c' : Cursor} : Beside c c' → c.later.length ≤ c'.later.length
  length_eq {c c' : Cursor} : Beside c c' → total → c.later.length = c'.later.length
  skip {c c' : Cursor} : Beside c c' → ∃ d d', skipNewlines c = .ok ((), d) ∧
    skipNewlines c' = .ok ((), d') ∧ (Beside d d' ∨ Parted d d')
  parted {c c' : Cursor} : Parted c c' → ¬ total ∧ c.current.kind = .eof ∧
    c'.current.kind ≠ .keyword .elifWord ∧ c'.current.kind ≠ .keyword .elseWord

namespace Alignment

variable {α β γ δ : Type} (A : Alignment)

/-- Whether the runs may stand behind ends of lines. -/
def Onward (c c' : Cursor) : Prop := A.Beside c c' ∨ A.Parted c c'

/-- Whether what the first run comes to is what the second comes to. Where the first fails, the second
need not unless the runs stay side by side to the end. -/
def Tally (After : Cursor → Cursor → Prop) (f : α → β) :
    Except SyntaxError (α × Cursor) → Except SyntaxError (β × Cursor) → Prop
  | .ok (a, d), x => ∃ d', x = .ok (f a, d') ∧ After d d'
  | .error e, x => A.total → x = .error (e.down A.lines)

/-- Whether two readers do the same in runs side by side. -/
def Agree (f : α → β) (r : Reader α) (r' : Reader β) : Prop :=
  ∀ c c', A.Beside c c' → A.Tally A.Beside f (r c) (r' c')

/-- The same of readers that are used only at tokens of the kind `k`. -/
def AgreeAt (k : TokenKind) (f : α → β) (r : Reader α) (r' : Reader β) : Prop :=
  ∀ c c', A.Beside c c' → c.current.kind = k → A.Tally A.Beside f (r c) (r' c')

/-- Whether bounds on the number of rounds of a loop have come from runs side by side. -/
def Rooms (room room' : Nat) : Prop := room ≤ room' ∧ (A.total → room = room')

variable {A} {f : α → β} {k : TokenKind}

theorem Rooms.succ {n n' : Nat} (h : A.Rooms n n') : A.Rooms (n + 1) (n' + 1) :=
  ⟨Nat.succ_le_succ h.1, fun htotal => congrArg Nat.succ (h.2 htotal)⟩

theorem Rooms.of_succ {n n' : Nat} (h : A.Rooms (n + 1) (n' + 1)) : A.Rooms n n' :=
  ⟨Nat.le_of_succ_le_succ h.1, fun htotal => Nat.succ.inj (h.2 htotal)⟩

theorem Beside.kind_eq {c c' : Cursor} (h : A.Beside c c') : c'.current.kind = c.current.kind := by
  rw [A.current_eq h]
  rfl

theorem Beside.line_eq {c c' : Cursor} (h : A.Beside c c') :
    c'.current.line = c.current.line + A.lines := by
  rw [A.current_eq h]
  rfl

/-! ### Rules for the elementary readers -/

theorem Tally.bind {P Q : Cursor → Cursor → Prop} {g : γ → δ} {r : Reader α} {r' : Reader β}
    {s : α → Reader γ} {s' : β → Reader δ} {c c' : Cursor} (h : A.Tally P f (r c) (r' c'))
    (hs : ∀ a d d', P d d' → A.Tally Q g (s a d) (s' (f a) d')) :
    A.Tally Q g ((r >>= s) c) ((r' >>= s') c') := by
  rw [Reader.bind_apply, Reader.bind_apply]
  cases hr : r c with
  | ok x =>
      rw [hr] at h
      obtain ⟨d', hr', hd⟩ := h
      rw [hr']
      exact hs x.1 x.2 d' hd
  | error e =>
      rw [hr] at h
      intro htotal
      rw [h htotal]
      rfl

theorem AgreeAt.bind {g : γ → δ} {r : Reader α} {r' : Reader β} {s : α → Reader γ}
    {s' : β → Reader δ} (h : A.AgreeAt k f r r') (hs : ∀ a, A.Agree g (s a) (s' (f a))) :
    A.AgreeAt k g (r >>= s) (r' >>= s') :=
  fun c c' hc hk => (h c c' hc hk).bind fun a => hs a

theorem Agree.bind {g : γ → δ} {r : Reader α} {r' : Reader β} {s : α → Reader γ}
    {s' : β → Reader δ} (h : A.Agree f r r') (hs : ∀ a, A.Agree g (s a) (s' (f a))) :
    A.Agree g (r >>= s) (r' >>= s') :=
  fun c c' hc => (h c c' hc).bind fun a => hs a

/-- The rule for readers whose values are the same in both runs. -/
theorem Agree.andThen {r r' : Reader α} {s : α → Reader γ} {s' : α → Reader δ} {g : γ → δ}
    (h : A.Agree id r r') (hs : ∀ a, A.Agree g (s a) (s' a)) : A.Agree g (r >>= s) (r' >>= s') :=
  h.bind hs

theorem Agree.at {r : Reader α} {r' : Reader β} (h : A.Agree f r r') : A.AgreeAt k f r r' :=
  fun c c' hc _ => h c c' hc

theorem agree_pure {a : α} : A.Agree f (pure a) (pure (f a)) := fun _ c' hc => ⟨c', rfl, hc⟩

/-- The rule for values without statements inside. -/
theorem agree_pure_of_eq {a : α} {b : β} (h : f a = b) : A.Agree f (pure a) (pure b) := by
  rw [← h]
  exact agree_pure

theorem agree_fail {fault : SyntaxFault} : A.Agree f (fail fault) (fail fault) := by
  intro c c' hc _
  rw [Reader.fail, hc.line_eq]
  rfl

theorem agree_fail_bind {s : γ → Reader α} {s' : γ → Reader β} {fault : SyntaxFault} :
    A.Agree f (fail fault >>= s) (fail fault >>= s') := by
  intro c c' hc
  exact agree_fail (f := f) c c' hc

theorem agree_peek {s : TokenKind → Reader α} {s' : TokenKind → Reader β}
    (h : ∀ k, A.AgreeAt k f (s k) (s' k)) : A.Agree f (peek >>= s) (peek >>= s') := by
  intro c c' hc
  rw [peek_bind, peek_bind, hc.kind_eq]
  exact h _ c c' hc rfl

theorem agree_left {s : Nat → Reader α} {s' : Nat → Reader β}
    (h : ∀ n n', A.Rooms n n' → A.Agree f (s n) (s' n')) :
    A.Agree f (left >>= s) (left >>= s') :=
  fun c c' hc => h _ _ ⟨A.length_le hc, A.length_eq hc⟩ c c' hc

theorem agree_line {s : Nat → Reader α} {s' : Nat → Reader β}
    (h : ∀ n, A.Agree f (s n) (s' (n + A.lines))) :
    A.Agree f (line >>= s) (line >>= s') := by
  intro c c' hc
  have hrest := h c.current.line c c' hc
  rwa [← hc.line_eq] at hrest

theorem agreeAt_advance {s : TokenKind → Reader α} {s' : TokenKind → Reader β} (hk : k ≠ .newline)
    (h : A.Agree f (s k) (s' k)) : A.AgreeAt k f (advance >>= s) (advance >>= s') := by
  rintro c c' hc rfl
  rw [bind_of_ok (advance_eq c), bind_of_ok (advance_eq c'), hc.kind_eq]
  exact h _ _ (A.behind hc (.inr hk))

/-- A reader that fails at the end of a line does so in both runs, wherever they go on. -/
theorem agree_advance {s : TokenKind → Reader α} {s' : TokenKind → Reader β}
    (hline : ∀ c, ∃ e, s .newline c = .error e) (h : ∀ k, A.Agree f (s k) (s' k)) :
    A.Agree f (advance >>= s) (advance >>= s') := by
  intro c c' hc
  by_cases hk : c.current.kind = .newline
  · by_cases htotal : A.total
    · rw [bind_of_ok (advance_eq c), bind_of_ok (advance_eq c'), hc.kind_eq]
      exact h _ _ _ (A.behind hc (.inl htotal))
    · obtain ⟨e, he⟩ := hline c.behind
      rw [bind_of_ok (advance_eq c), hk, he]
      exact fun h => absurd h htotal
  · exact agreeAt_advance hk (h _) c c' hc rfl

theorem agree_accept {yes no : Reader α} {yes' no' : Reader β} (hk : k.Fixed) (hline : k ≠ .newline)
    (hyes : A.Agree f yes yes') (hno : A.Agree f no no') :
    A.Agree f (accept k >>= fun b => if b = true then yes else no)
      (accept k >>= fun b => if b = true then yes' else no') := by
  intro c c' hc
  by_cases hcurrent : c.current.kind = k
  · have haccept (c : Cursor) (h : c.current.kind = k) : accept k c = .ok (true, c.behind) := by
      rw [accept, peek_bind, if_pos (hk.beq_iff_eq.2 h), bind_of_ok (advance_eq c)]
      rfl
    rw [bind_of_ok (haccept c hcurrent), bind_of_ok (haccept c' (hc.kind_eq.trans hcurrent))]
    exact hyes _ _ (A.behind hc (.inr (by rwa [hcurrent])))
  · have hcurrent' : c'.current.kind ≠ k := by rwa [hc.kind_eq]
    rw [bind_of_ok (accept_apply_of_ne hk hcurrent), bind_of_ok (accept_apply_of_ne hk hcurrent')]
    exact hno c c' hc

theorem agree_expect {s : Unit → Reader α} {s' : Unit → Reader β} {what : String} (hk : k.Fixed)
    (hline : k ≠ .newline) (h : A.Agree f (s ()) (s' ())) :
    A.Agree f (expect k what >>= s) (expect k what >>= s') := by
  rw [expect, bind_assoc, bind_assoc]
  simp only [apply_ite (· >>= s), apply_ite (· >>= s'), pure_bind, bind_assoc]
  exact agree_accept hk hline h (agree_peek fun _ => agree_fail_bind.at)

theorem agree_identifier {s : String → Reader α} {s' : String → Reader β}
    (h : ∀ name, A.Agree f (s name) (s' name)) :
    A.Agree f (identifier >>= s) (identifier >>= s') := by
  rw [identifier, bind_assoc, bind_assoc]
  refine agree_advance (fun c => ⟨_, rfl⟩) fun k => ?_
  cases k with
  | name letters => exact h letters
  | _ => exact agree_fail_bind

end Alignment

/-! ### Expressions -/

namespace Level

/-- Whether the readers of a level do the same in runs side by side. -/
structure Agrees (A : Alignment) (inner : Level) : Prop where
  operand (rank : Rank) : A.Agree id (inner.operand rank) (inner.operand rank)
  links (rank : Rank) (before : Expr) : A.Agree id (inner.links rank before) (inner.links rank before)
  postfixed (target : Expr) {k : TokenKind} : opensPostfix k = true →
    A.AgreeAt k id (inner.postfixed target) (inner.postfixed target)
  postfixes (target : Expr) : A.Agree id (inner.postfixes target) (inner.postfixes target)
  braced (inLoop : Bool) : A.Agree (downAll A.lines) (inner.braced inLoop) (inner.braced inLoop)

namespace Agrees

open Alignment

variable {A : Alignment}

theorem shut : shut.Agrees A where
  operand _ := agree_fail
  links _ _ := agree_fail
  postfixed _ _ _ := agree_fail.at
  postfixes _ := agree_fail
  braced _ := agree_fail

variable {inner : Level} (hinner : inner.Agrees A)

include hinner

theorem expression : A.Agree id inner.expression inner.expression :=
  (hinner.operand .disjunction).andThen fun e => hinner.links .disjunction e

theorem items (close : Mark) (what : String) {room room' : Nat} (hroom : A.Rooms room room') :
    A.Agree id (inner.items close what room) (inner.items close what room') := by
  induction room generalizing room' with
  | zero =>
      intro c c' hc htotal
      obtain rfl := hroom.2 htotal
      exact agree_peek (f := id) (fun _ => agree_fail.at) c c' hc htotal
  | succ room ih =>
      obtain _ | room' := room'
      · cases hroom.1
      rw [Level.items, Level.items]
      have hclose : TokenKind.mark close ≠ .newline := by simp
      refine hinner.expression.andThen fun first => agree_accept (.mark close) hclose agree_pure ?_
      refine agree_expect (.mark .comma) (by simp) ?_
      refine agree_accept (.mark close) hclose agree_pure ?_
      exact (ih hroom.of_succ).andThen fun _ => agree_pure

theorem arguments : A.Agree id inner.arguments inner.arguments := by
  refine agree_accept (.mark .rightParen) nofun agree_pure (agree_left fun n n' h => ?_)
  exact hinner.items _ _ h.succ

theorem bound (close : Mark) : A.Agree id (inner.bound close) (inner.bound close) := by
  refine agree_peek fun k => Agree.at ?_
  by_cases hk : (k == .mark close) = true
  · rw [if_pos hk]
    exact agree_pure
  · rw [if_neg hk]
    exact hinner.expression.andThen fun _ => agree_pure

theorem indexOrSlice (target : Expr) :
    A.Agree id (inner.indexOrSlice target) (inner.indexOrSlice target) := by
  refine (hinner.bound .colon).andThen fun start => agree_accept (.mark .colon) nofun ?_ ?_
  · exact (hinner.bound .rightBracket).andThen fun stop =>
      agree_expect (.mark .rightBracket) nofun agree_pure
  · refine agree_expect (.mark .rightBracket) nofun ?_
    cases start with
    | none => exact agree_fail
    | some i => exact agree_pure

theorem listDisplay : A.Agree id inner.listDisplay inner.listDisplay := by
  refine agree_accept (.mark .rightBracket) nofun agree_pure ?_
  refine hinner.expression.andThen fun first => agree_accept (.keyword .forWord) nofun ?_ ?_
  · refine agree_identifier fun name => agree_expect (.keyword .inWord) nofun ?_
    refine hinner.expression.andThen fun source => ?_
    dsimp only
    refine agree_accept (.keyword .ifWord) nofun ?_ ?_
    · simp only [← bind_pure_comp, bind_assoc, pure_bind]
      refine hinner.expression.andThen fun condition => ?_
      exact agree_expect (.mark .rightBracket) nofun agree_pure
    · rw [pure_bind]
      exact agree_expect (.mark .rightBracket) nofun agree_pure
  refine agree_accept (.mark .rightBracket) nofun agree_pure ?_
  refine agree_expect (.mark .comma) nofun (agree_accept (.mark .rightBracket) nofun agree_pure ?_)
  refine agree_left fun n n' h => (hinner.items _ _ h.succ).andThen fun items => ?_
  exact agree_pure

theorem primary : A.Agree id inner.primary inner.primary := by
  refine agree_advance (fun c => ⟨_, rfl⟩) fun k => ?_
  split
  case h_8 =>
    exact hinner.expression.andThen fun e => agree_expect (.mark .rightParen) nofun agree_pure
  case h_9 => exact hinner.listDisplay
  case h_10 => exact agree_fail
  all_goals exact agree_pure

theorem readPostfixed (target : Expr) {k : TokenKind} (hk : opensPostfix k = true) :
    A.AgreeAt k id (inner.readPostfixed target) (inner.readPostfixed target) := by
  unfold opensPostfix at hk
  split at hk
  · exact agreeAt_advance nofun (hinner.arguments.andThen fun _ => agree_pure)
  · exact agreeAt_advance nofun (hinner.indexOrSlice target)
  · exact agreeAt_advance nofun (agree_identifier fun _ => agree_pure)
  · cases hk

theorem readPostfixes (target : Expr) :
    A.Agree id (inner.readPostfixes target) (inner.readPostfixes target) := by
  refine agree_peek fun k => ?_
  by_cases hk : opensPostfix k = true
  · rw [if_pos hk]
    exact (hinner.postfixed target hk).bind fun e => hinner.postfixes e
  · rw [if_neg hk]
    exact agree_pure.at

theorem sign : A.Agree id inner.sign inner.sign := by
  refine agree_accept (.mark .minus) nofun ?_ ?_
  · exact (hinner.operand .product).andThen fun _ => agree_pure
  · exact hinner.primary.andThen fun e => hinner.readPostfixes e

theorem readLinks (rank : Rank) (before : Expr) :
    A.Agree id (inner.readLinks rank before) (inner.readLinks rank before) := by
  refine agree_peek fun k => ?_
  cases hjoin : rank.join? k with
  | none => exact agree_pure.at
  | some join =>
      have hk : k ≠ .newline := by
        rintro rfl
        cases rank <;> cases hjoin
      refine agreeAt_advance hk ((hinner.operand rank).andThen fun after => ?_)
      exact hinner.links rank (join before after)

theorem product : A.Agree id inner.product inner.product :=
  hinner.sign.andThen fun e => hinner.readLinks .product e

theorem sum : A.Agree id inner.sum inner.sum := hinner.product.andThen fun e => hinner.readLinks .sum e

theorem comparison : A.Agree id inner.comparison inner.comparison := by
  refine hinner.sum.andThen fun left => ?_
  have hright (op : BinaryOp) : A.Agree id (do return Expr.binary op left (← inner.sum))
      (do return Expr.binary op left (← inner.sum)) := hinner.sum.andThen fun _ => agree_pure
  intro c c' hc
  -- Whether the word `in` follows matters only at the word `not`.
  have hop : comparison? c'.beforeIn c.current.kind = comparison? c.beforeIn c.current.kind := by
    by_cases hk : c.current.kind = .newline
    · rw [hk]
      rfl
    · rw [A.beforeIn_eq hc (.inr hk)]
  rw [bind_of_ok (inFollows_apply c), bind_of_ok (inFollows_apply c'), peek_bind, peek_bind,
    hc.kind_eq, hop]
  cases hcompares : comparison? c.beforeIn c.current.kind with
  | none => exact agree_pure (f := id) c c' hc
  | some op =>
      have hk : c.current.kind ≠ .newline := by
        intro hk
        rw [hk] at hcompares
        cases hcompares
      rcases comparison?_eq_some_iff.1 hcompares with ⟨hne, -⟩ | ⟨rfl, -, hbefore⟩
      · have honly : (op == .isNotIn) = false := by simpa using hne
        simp only [honly, Bool.false_eq_true, if_false]
        exact agreeAt_advance hk (hright op) c c' hc rfl
      · have hin : c.behind.current.kind = .keyword .inWord := c.kind_behind hbefore
        dsimp only
        rw [bind_of_ok (advance_eq c), bind_of_ok (advance_eq c')]
        simp only [beq_self_eq_true, if_true]
        refine agreeAt_advance ?_ (hright _) _ _ (A.behind hc (.inr hk)) hin
        nofun

theorem negation : A.Agree id inner.negation inner.negation := by
  refine agree_accept (.keyword .notWord) nofun ?_ hinner.comparison
  exact (hinner.operand .conjunction).andThen fun _ => agree_pure

theorem conjunction : A.Agree id inner.conjunction inner.conjunction :=
  hinner.negation.andThen fun e => hinner.readLinks .conjunction e

theorem readOperand (rank : Rank) : A.Agree id (inner.readOperand rank) (inner.readOperand rank) := by
  cases rank with
  | disjunction => exact hinner.conjunction
  | conjunction => exact hinner.negation
  | sum => exact hinner.product
  | product => exact hinner.sign

/-! ### Statements -/

/-- Where statements stand further down, so do the arms with them. -/
def armDown (lines : Nat) (arm : Expr × List Stmt) : Expr × List Stmt := (arm.1, downAll lines arm.2)

theorem guarded (inLoop : Bool) :
    A.Agree (armDown A.lines) (inner.guarded inLoop) (inner.guarded inLoop) :=
  hinner.expression.andThen fun _ => (hinner.braced inLoop).bind fun _ => agree_pure

theorem moreArms (inLoop : Bool) {room room' : Nat} (hroom : A.Rooms room room') :
    A.Agree (Arms.down A.lines) (inner.moreArms inLoop room) (inner.moreArms inLoop room') := by
  induction room generalizing room' with
  | zero =>
      intro c c' hc htotal
      obtain rfl := hroom.2 htotal
      exact agree_peek (f := Arms.down A.lines) (fun _ => agree_fail.at) c c' hc htotal
  | succ room ih =>
      obtain _ | room' := room'
      · cases hroom.1
      have hmore := ih hroom.of_succ
      have harm : A.Agree (Arms.down A.lines)
          (do
            let arm ← inner.guarded inLoop
            return .when arm.1 arm.2 (← inner.moreArms inLoop room))
          (do
            let arm ← inner.guarded inLoop
            return .when arm.1 arm.2 (← inner.moreArms inLoop room')) :=
        (hinner.guarded inLoop).bind fun _ => hmore.bind fun _ => agree_pure
      have hlast : A.Agree (Arms.down A.lines) (do return .otherwise (← inner.block inLoop))
          (do return .otherwise (← inner.block inLoop)) :=
        (hinner.braced inLoop).bind fun _ => agree_pure
      intro c c' hc
      obtain ⟨d, d', hd, hd', honward⟩ := A.skip hc
      -- Where no arm follows, both runs go back to where they stood side by side.
      have hback : A.Agree (Arms.down A.lines) (do set c; return .done) (do set c'; return .done) :=
        fun _ _ _ => ⟨c', rfl, hc⟩
      rw [Level.moreArms, Level.moreArms, bind_of_ok (a := c) rfl, bind_of_ok (a := c') rfl,
        bind_of_ok hd, bind_of_ok hd']
      rcases honward with hbeside | hparted
      · have hword (word : Keyword) : TokenKind.keyword word ≠ .newline := by simp
        refine agree_accept (.keyword .elifWord) (hword _) harm ?_ d d' hbeside
        refine agree_accept (.keyword .elseWord) (hword _) ?_ hback
        exact agree_accept (.keyword .ifWord) (hword _) harm hlast
      · obtain ⟨-, heof, helif, helse⟩ := A.parted hparted
        rw [bind_of_ok (accept_apply_of_ne (.keyword .elifWord) (by simp [heof])),
          bind_of_ok (accept_apply_of_ne (.keyword .elifWord) helif)]
        simp only [Bool.false_eq_true, if_false]
        rw [bind_of_ok (accept_apply_of_ne (.keyword .elseWord) (by simp [heof])),
          bind_of_ok (accept_apply_of_ne (.keyword .elseWord) helse)]
        exact ⟨c', rfl, hc⟩

/-- A choice after the word `if`. -/
theorem choice (inLoop : Bool) :
    A.Agree (Act.down A.lines) (inner.choice inLoop) (inner.choice inLoop) := by
  refine (hinner.guarded inLoop).bind fun arm => agree_left fun n n' h => ?_
  exact (hinner.moreArms inLoop h.succ).bind fun _ => agree_pure

theorem simpleStatement :
    A.Agree (Act.down A.lines) inner.simpleStatement inner.simpleStatement := by
  have hassigned {k : TokenKind} (hk : k ≠ .newline) (target : Expr) (act : Expr → Act)
      (hact : ∀ e, (act e).down A.lines = act e) : A.AgreeAt k (Act.down A.lines)
        (do
          let _ ← advance
          unless target.isPlace do
            fail .badTarget
          return act (← inner.expression))
        (do
          let _ ← advance
          unless target.isPlace do
            fail .badTarget
          return act (← inner.expression)) := by
    refine agreeAt_advance hk ?_
    by_cases hplace : target.isPlace = true
    · rw [if_pos hplace]
      exact hinner.expression.andThen fun value => agree_pure_of_eq (hact value)
    · rw [if_neg hplace]
      exact agree_fail_bind
  refine hinner.expression.andThen fun target => agree_peek fun k => ?_
  dsimp only
  split
  · exact hassigned (k := .mark .assign) nofun target (.assign target) fun _ => rfl
  · exact hassigned (k := .mark .plusAssign) nofun target (.update target .add) fun _ => rfl
  · exact hassigned (k := .mark .minusAssign) nofun target (.update target .sub) fun _ => rfl
  · exact (agree_pure_of_eq rfl).at

omit hinner in
theorem jump (inLoop : Bool) (word : Keyword) {act : Act} (hact : act.down A.lines = act) :
    A.AgreeAt (.keyword word) (Act.down A.lines) (Level.act.jump inLoop word act)
      (Level.act.jump inLoop word act) := by
  cases inLoop with
  | false => exact agree_fail_bind.at
  | true =>
      exact agreeAt_advance nofun (agree_pure_of_eq hact)

theorem act (inLoop : Bool) :
    A.Agree (Act.down A.lines) (inner.act inLoop) (inner.act inLoop) := by
  refine agree_peek fun k => ?_
  split
  · exact agreeAt_advance nofun (hinner.choice inLoop)
  · refine agreeAt_advance nofun (agree_identifier fun name => ?_)
    refine agree_expect (.keyword .inWord) nofun (hinner.expression.andThen fun source => ?_)
    exact (hinner.braced true).bind fun _ => agree_pure
  · refine agreeAt_advance nofun (hinner.expression.andThen fun condition => ?_)
    exact (hinner.braced true).bind fun _ => agree_pure
  · exact jump inLoop .breakWord rfl
  · exact jump inLoop .continueWord rfl
  · exact hinner.simpleStatement.at

theorem statement (inLoop : Bool) :
    A.Agree (Stmt.down A.lines) (inner.statement inLoop) (inner.statement inLoop) :=
  agree_line fun _ => (hinner.act inLoop).bind fun _ => agree_pure

/-- A statement with its end and the ends of lines behind it. -/
theorem endedStatement (inLoop : Bool) {c c' : Cursor} (hc : A.Beside c c') :
    A.Tally A.Onward (Stmt.down A.lines) (inner.endedStatement inLoop c)
      (inner.endedStatement inLoop c') := by
  refine (hinner.statement inLoop c c' hc).bind fun s d d' hd => ?_
  obtain ⟨e, e', he, he', honward⟩ := A.skip hd
  have hkind : d'.Ends ↔ d.Ends := by simp only [Cursor.Ends, Cursor.Stops, hd.kind_eq]
  by_cases hends : d.Ends
  · have hends' := hkind.2 hends
    rw [hends.ending_apply, hends'.ending_apply, bind_of_ok he, bind_of_ok he']
    exact ⟨e', rfl, honward⟩
  · have hends' := mt hkind.1 hends
    rw [bind_apply, bind_apply, endOfStatement_fails hends, endOfStatement_fails hends', hd.kind_eq,
      hd.line_eq]
    exact fun _ => rfl

omit hinner in
/-- Behind the end of its script the first run finds no brace. -/
theorem statements_parted (inLoop : Bool) (room room' : Nat) {c c' : Cursor} (h : A.Parted c c') :
    A.Tally A.Beside (downAll A.lines) (inner.statements inLoop room c)
      (inner.statements inLoop room' c') := by
  obtain ⟨htotal, heof, -⟩ := A.parted h
  have hfails : ∃ e, inner.statements inLoop room c = .error e := by
    cases room with
    | zero => exact ⟨_, rfl⟩
    | succ room =>
        rw [Level.statements, peek_bind, heof]
        exact ⟨_, rfl⟩
  obtain ⟨e, he⟩ := hfails
  rw [he]
  exact fun h => absurd h htotal

theorem statements (inLoop : Bool) {room room' : Nat} (hroom : A.Rooms room room') {c c' : Cursor}
    (hc : A.Onward c c') : A.Tally A.Beside (downAll A.lines) (inner.statements inLoop room c)
      (inner.statements inLoop room' c') := by
  induction room generalizing room' c c' with
  | zero =>
      rcases hc with hc | hparted
      · intro htotal
        obtain rfl := hroom.2 htotal
        exact agree_fail (f := downAll A.lines) c c' hc htotal
      · exact statements_parted inLoop 0 room' hparted
  | succ room ih =>
      rcases hc with hc | hparted
      case inr => exact statements_parted inLoop (room + 1) room' hparted
      obtain _ | room' := room'
      · cases hroom.1
      rw [Level.statements, Level.statements, peek_bind, peek_bind, hc.kind_eq]
      generalize hk : c.current.kind = k
      split
      · have hnone : A.Agree (downAll A.lines) (pure []) (pure []) :=
          agree_pure_of_eq (downAll_nil A.lines)
        exact agreeAt_advance (k := .mark .rightBrace) (by simp) hnone c c' hc hk
      · exact agree_fail (f := downAll A.lines) c c' hc
      · refine (hinner.endedStatement inLoop hc).bind fun s d d' hd => ?_
        refine (ih hroom.of_succ hd).bind fun rest => ?_
        exact agree_pure_of_eq (downAll_cons A.lines s rest)

theorem readBraced (inLoop : Bool) :
    A.Agree (downAll A.lines) (inner.readBraced inLoop) (inner.readBraced inLoop) := by
  refine agree_expect (.mark .leftBrace) nofun fun c c' hc => ?_
  obtain ⟨d, d', hd, hd', honward⟩ := A.skip hc
  rw [bind_of_ok hd, bind_of_ok hd', bind_of_ok (left_apply d), bind_of_ok (left_apply d')]
  rcases honward with hbeside | hparted
  · have hroom : A.Rooms d.later.length d'.later.length := ⟨A.length_le hbeside, A.length_eq hbeside⟩
    exact hinner.statements inLoop hroom.succ (.inl hbeside)
  · exact statements_parted inLoop _ _ hparted

/-- The readers of a level do the same if those of the level inside it do. -/
theorem around : inner.around.Agrees A where
  operand := hinner.readOperand
  links := hinner.readLinks
  postfixed target _ := hinner.readPostfixed target
  postfixes := hinner.readPostfixes
  braced := hinner.readBraced

end Agrees

theorem agrees_within (A : Alignment) (n : Nat) : (within n).Agrees A := by
  induction n with
  | zero => exact .shut
  | succ n ih => exact ih.around

end Level
end PromptWeave.Script
