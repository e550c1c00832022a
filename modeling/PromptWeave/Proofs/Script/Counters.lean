import PromptWeave.Proofs.Script.CountingParser
import PromptWeave.Proofs.Script.Cursor

/-!
# Counters and levels

The parser with counters does the same as the readers that are told how many levels they may enter. Each
part of it leaves the counters as it has found them, and what is taken off has been added before, also
where the parser fails.
-/
namespace PromptWeave.Script

open Reader Counting

namespace Counting

variable {α β : Type} {n k k' l : Nat} {c d : Cursor}

/-- Whether what comes of a parser with counters is what comes of a reader, with the counters `k` and
`l` behind it. Where it fails the levels inside may not have been left. -/
def Meets (k l : Nat) : Except SyntaxError (α × Cursor) → Except Halt α × CountedState → Prop
  | .ok (a, d), y => y = (.ok a, ⟨d, k, l⟩)
  | .error e, y => ∃ d j, y = (.error (.fault e), ⟨d, j, l⟩) ∧ k ≤ j

/-- Whether a part of a parser with counters does the same as a reader where `n` more levels may be
entered and `l` loops are around, and leaves the counters as they are. -/
def Counts (n l : Nat) (x : Counting α) (r : Reader α) : Prop :=
  ∀ c k, k + n = maxNesting → Meets k l (r c) (x ⟨c, k, l⟩)

theorem bind_apply (x : Counting α) (f : α → Counting β) (s : CountedState) :
    (x >>= f) s =
      match x s with
      | (.ok a, s) => f a s
      | (.error e, s) => (.error e, s) := rfl

theorem pure_bind_eq (a : α) (f : α → Counting β) : (pure a >>= f) = f a := rfl

theorem reading_of_ok {r : Reader α} {a : α} (h : r c = .ok (a, d)) :
    reading r ⟨c, k, l⟩ = (.ok a, ⟨d, k, l⟩) := by
  rw [reading, h]

theorem reading_bind_of_ok {r : Reader α} {f : α → Counting β} {a : α} (h : r c = .ok (a, d)) :
    (reading r >>= f) ⟨c, k, l⟩ = f a ⟨d, k, l⟩ := by
  rw [bind_apply, reading_of_ok h]

theorem Meets.bind {r : Reader α} {g : α → Reader β} {x : Counting α} {f : α → Counting β}
    {s : CountedState} (h : Meets k l (r c) (x s)) (hk : k' ≤ k)
    (hf : ∀ a d, Meets k' l (g a d) (f a ⟨d, k, l⟩)) :
    Meets k' l ((r >>= g) c) ((x >>= f) s) := by
  rw [Reader.bind_apply, bind_apply]
  cases hr : r c with
  | ok y =>
      rw [hr] at h
      rw [show x s = _ from h]
      exact hf y.1 y.2
  | error e =>
      rw [hr] at h
      obtain ⟨d, j, hx, hj⟩ := h
      rw [hx]
      exact ⟨d, j, rfl, Nat.le_trans hk hj⟩

theorem Counts.bind {r : Reader α} {g : α → Reader β} {x : Counting α} {f : α → Counting β}
    (h : Counts n l x r) (hf : ∀ a, Counts n l (f a) (g a)) : Counts n l (x >>= f) (r >>= g) :=
  fun c k hk => (h c k hk).bind (Nat.le_refl k) fun a d => hf a d k hk

theorem counts_pure {a : α} : Counts n l (pure a) (pure a) := fun _ _ _ => rfl

theorem counts_reading (r : Reader α) : Counts n l (reading r) r := by
  intro c k hk
  cases hr : r c with
  | ok y => exact reading_of_ok hr
  | error e =>
      rw [reading, hr]
      exact ⟨c, k, rfl, Nat.le_refl k⟩

theorem counts_ite {p : Prop} [Decidable p] {x y : Counting α} {r s : Reader α} (hx : Counts n l x r)
    (hy : Counts n l y s) : Counts n l (if p then x else y) (if p then r else s) := by
  split
  · exact hx
  · exact hy

/-- What is read is read by both. -/
theorem counts_bind {r : Reader α} {f : α → Counting β} {g : α → Reader β}
    (h : ∀ a, Counts n l (f a) (g a)) : Counts n l (reading r >>= f) (r >>= g) :=
  (counts_reading r).bind h

theorem enter_of_le (hk : maxNesting ≤ k) :
    enter ⟨c, k, l⟩ = (.error (.fault ⟨c.current.line, .nestedTooDeeply⟩), ⟨c, k + 1, l⟩) :=
  if_pos (Nat.lt_succ_of_le hk)

theorem enter_of_lt (hk : k < maxNesting) : enter ⟨c, k, l⟩ = (.ok (), ⟨c, k + 1, l⟩) :=
  if_neg (Nat.not_lt.2 hk)

theorem leave_of_le {levels : Nat} (h : levels ≤ k) :
    leave levels ⟨c, k, l⟩ = (.ok (), ⟨c, k - levels, l⟩) := if_neg (Nat.not_lt.2 h)

theorem thenAlways_apply {x : Counting α} {last : Counting Unit} {s s' s'' : CountedState}
    {result : Except Halt α} (hx : x s = (result, s')) (hlast : last s' = (.ok (), s'')) :
    x.thenAlways last s = (result, s'') := by
  rw [thenAlways, hx]
  dsimp only
  rw [hlast]

/-- Behind the last level no other can be entered. -/
theorem counts_enter_zero {f : Unit → Counting α} :
    Counts 0 l (enter >>= f) (fail .nestedTooDeeply) := by
  intro c k hk
  rw [bind_apply, enter_of_le (by omega)]
  exact ⟨c, k + 1, rfl, Nat.le_succ k⟩

theorem Counts.inside {x : Counting α} {r : Reader α} (h : Counts n l x r) :
    Counts (n + 1) l (inside x) r := by
  intro c k hk
  rw [Counting.inside, bind_apply, enter_of_lt (by omega)]
  have hx := h c (k + 1) (by omega)
  cases hr : r c with
  | ok y =>
      rw [hr] at hx
      exact thenAlways_apply hx (leave_of_le (Nat.le_add_left 1 k))
  | error e =>
      rw [hr] at hx
      obtain ⟨d, j, hx, hj⟩ := hx
      have hleave : 1 ≤ j := Nat.le_trans (Nat.le_add_left 1 k) hj
      exact ⟨d, j - 1, thenAlways_apply hx (leave_of_le hleave), Nat.le_sub_of_add_le hj⟩

end Counting

/-! ### Expressions -/

namespace Nest

/-- Whether the parts that enter a level do the same as the readers of levels of which `n` may be
entered. -/
structure Agrees (inner : Nest) (n : Nat) : Prop where
  expression (l : Nat) : Counts n l inner.expression (Level.within n).expression
  negation (l : Nat) : Counts n l inner.negation ((Level.within n).operand .conjunction)
  sign (l : Nat) : Counts n l inner.sign ((Level.within n).operand .product)
  block (l : Nat) : Counts n l inner.block ((Level.within n).braced (decide (0 < l)))

namespace Agrees

section Parts

variable {inner : Nest} {n : Nat} (h : inner.Agrees n) (l : Nat)

include h

theorem items (close : Mark) (what : String) (room : Nat) :
    Counts n l (inner.items close what room) ((Level.within n).items close what room) := by
  induction room with
  | zero => exact counts_reading _
  | succ room ih =>
      rw [Nest.items, Level.items]
      refine (h.expression l).bind fun first => counts_bind fun _ => counts_ite counts_pure ?_
      refine counts_bind fun _ => counts_bind fun _ => counts_ite counts_pure ?_
      exact ih.bind fun _ => counts_pure

theorem arguments : Counts n l inner.arguments (Level.within n).arguments := by
  refine counts_bind fun _ => counts_ite counts_pure (counts_bind fun room => ?_)
  exact h.items l _ _ (room + 1)

theorem bound (close : Mark) : Counts n l (inner.bound close) ((Level.within n).bound close) := by
  refine counts_bind fun k => counts_ite counts_pure ?_
  exact (h.expression l).bind fun _ => counts_pure

theorem indexOrSlice (target : Expr) :
    Counts n l (inner.indexOrSlice target) ((Level.within n).indexOrSlice target) := by
  refine (h.bound l .colon).bind fun start => counts_bind fun _ => counts_ite ?_ ?_
  · exact (h.bound l .rightBracket).bind fun stop => counts_bind fun _ => counts_pure
  · refine counts_bind fun _ => ?_
    cases start with
    | none => exact counts_reading _
    | some i => exact counts_pure

theorem listDisplay : Counts n l inner.listDisplay (Level.within n).listDisplay := by
  refine counts_bind fun _ => counts_ite counts_pure ((h.expression l).bind fun first => ?_)
  refine counts_bind fun _ => counts_ite ?_ ?_
  · refine counts_bind fun name => counts_bind fun _ => (h.expression l).bind fun source => ?_
    simp only [← bind_pure_comp, bind_assoc, pure_bind, pure_bind_eq]
    refine counts_bind fun _ => counts_ite ?_ (counts_bind fun _ => counts_pure)
    exact (h.expression l).bind fun condition => counts_bind fun _ => counts_pure
  refine counts_bind fun _ => counts_ite counts_pure (counts_bind fun _ => ?_)
  refine counts_bind fun _ => counts_ite counts_pure (counts_bind fun room => ?_)
  exact (h.items l _ _ (room + 1)).bind fun _ => counts_pure

theorem primary : Counts n l inner.primary (Level.within n).primary := by
  refine counts_bind fun k => ?_
  cases k with
  | keyword word =>
      cases word with
      | trueWord | falseWord | noneWord => exact counts_pure
      | _ => exact counts_reading _
  | mark m =>
      cases m with
      | leftParen => exact (h.expression l).bind fun e => counts_bind fun _ => counts_pure
      | leftBracket => exact h.listDisplay l
      | _ => exact counts_reading _
  | newline | eof => exact counts_reading _
  | _ => exact counts_pure

theorem postfixed (target : Expr) :
    Counts n l (inner.postfixed target) ((Level.within n).readPostfixed target) := by
  refine counts_bind fun k => ?_
  cases k with
  | mark m =>
      cases m with
      | leftParen => exact (h.arguments l).bind fun _ => counts_pure
      | leftBracket => exact h.indexOrSlice l target
      | _ => exact counts_bind fun _ => counts_pure
  | _ => exact counts_bind fun _ => counts_pure

end Parts

section Chains

variable {inner : Nest} {most : Nat} (h : ∀ n ≤ most, inner.Agrees n) (l : Nat)

/-- The rest of a chain enters a level for each operator, as the readers do one after the other. All the
levels are left where the chain ends. -/
theorem links (rank : Rank) {operand : Counting Expr}
    (hoperand : ∀ n ≤ most, Counts n l operand ((Level.within n).readOperand rank))
    {room levels n k : Nat} (before : Expr) (c : Cursor) (hn : n ≤ most) (hroom : n < room)
    (hlevels : levels ≤ k) (hk : k + n = maxNesting) :
    Meets (k - levels) l ((Level.within n).readLinks rank before c)
      (Nest.links rank operand room levels before ⟨c, k, l⟩) := by
  -- On the room for links: each enters one level more, so `levels` and `k` grow with it.
  induction room generalizing levels n k before c with
  | zero => exact absurd hroom (Nat.not_lt_zero n)
  | succ room ih =>
      rw [Nest.links, Level.readLinks, peek_bind, reading_bind_of_ok (peek_apply c)]
      cases rank.join? c.current.kind with
      | none =>
          dsimp only
          rw [Counting.bind_apply, leave_of_le hlevels]
          rfl
      | some join =>
          dsimp only
          rw [bind_of_ok (advance_eq c), reading_bind_of_ok (advance_eq c), Counting.bind_apply]
          cases n with
          | zero =>
              rw [enter_of_le (by omega)]
              exact ⟨c.behind, k + 1, rfl, by omega⟩
          | succ n =>
              rw [enter_of_lt (by omega)]
              refine (hoperand n (Nat.le_of_succ_le hn) c.behind (k + 1) (by omega)).bind (by omega) ?_
              intro after d
              have hrest := @ih (levels + 1) n (k + 1) (join before after) d (by omega) (by omega)
                (by omega) (by omega)
              rwa [Nat.succ_sub_succ] at hrest

theorem chain (rank : Rank) {operand : Counting Expr}
    (hoperand : ∀ n ≤ most, Counts n l operand ((Level.within n).readOperand rank)) {n : Nat}
    (hn : n ≤ most) : Counts n l (Nest.chain rank operand)
      (do (Level.within n).readLinks rank (← (Level.within n).readOperand rank)) := by
  refine (hoperand n hn).bind fun before c k hk => ?_
  exact links l rank hoperand before c hn (by omega) (Nat.zero_le k) hk

include h

theorem postfixes {room levels n k : Nat} (target : Expr) (c : Cursor) (hn : n ≤ most)
    (hroom : n < room) (hlevels : levels ≤ k) (hk : k + n = maxNesting) :
    Meets (k - levels) l ((Level.within n).readPostfixes target c)
      (inner.postfixes room levels target ⟨c, k, l⟩) := by
  induction room generalizing levels n k target c with
  | zero => exact absurd hroom (Nat.not_lt_zero n)
  | succ room ih =>
      rw [Nest.postfixes, Level.readPostfixes, peek_bind, reading_bind_of_ok (peek_apply c)]
      by_cases hopens : opensPostfix c.current.kind = true
      · rw [if_pos hopens, if_pos hopens, Counting.bind_apply]
        cases n with
        | zero =>
            rw [enter_of_le (by omega)]
            exact ⟨c, k + 1, rfl, by omega⟩
        | succ n =>
            rw [enter_of_lt (by omega)]
            have hless : n ≤ most := Nat.le_of_succ_le hn
            refine ((h n hless).postfixed l target c (k + 1) (by omega)).bind (by omega) ?_
            intro e d
            have hrest := @ih (levels + 1) n (k + 1) e d hless (by omega) (by omega) (by omega)
            rwa [Nat.succ_sub_succ] at hrest
      · rw [if_neg hopens, if_neg hopens, Counting.bind_apply, leave_of_le hlevels]
        rfl

theorem readSign {n : Nat} (hn : n ≤ most) : Counts n l inner.readSign (Level.within n).sign := by
  refine counts_bind fun _ => counts_ite ?_ ?_
  · exact ((h n hn).sign l).bind fun _ => counts_pure
  · refine ((h n hn).primary l).bind fun e c k hk => ?_
    exact postfixes h l e c hn (by omega) (Nat.zero_le k) hk

theorem sum {n : Nat} (hn : n ≤ most) : Counts n l inner.sum (Level.within n).sum := by
  have hsign (n : Nat) (hn : n ≤ most) := readSign h l hn
  have hproduct (n : Nat) (hn : n ≤ most) := chain l .product hsign hn
  exact chain l .sum hproduct hn

theorem comparison {n : Nat} (hn : n ≤ most) :
    Counts n l inner.comparison (Level.within n).comparison := by
  refine (sum h l hn).bind fun before => counts_bind fun beforeIn => counts_bind fun k => ?_
  cases comparison? beforeIn k with
  | none => exact counts_pure
  | some op =>
      refine counts_bind fun _ => ?_
      have hright := (sum h l hn).bind fun right => counts_pure (a := Expr.binary op before right)
      exact counts_ite (counts_bind fun _ => hright) hright

theorem readNegation {n : Nat} (hn : n ≤ most) :
    Counts n l inner.readNegation (Level.within n).negation := by
  refine counts_bind fun _ => counts_ite ?_ (comparison h l hn)
  exact ((h n hn).negation l).bind fun _ => counts_pure

theorem disjunction {n : Nat} (hn : n ≤ most) : Counts n l inner.disjunction
    (do (Level.within n).readLinks .disjunction (← (Level.within n).readOperand .disjunction)) := by
  have hnegation (n : Nat) (hn : n ≤ most) := readNegation h l hn
  have hconjunction (n : Nat) (hn : n ≤ most) := chain l .conjunction hnegation hn
  exact chain l .disjunction hconjunction hn

end Chains

/-! ### Statements -/

section Statements

variable {inner : Nest} {n : Nat} (h : inner.Agrees n) (l : Nat)

include h

theorem guarded :
    Counts n l inner.guarded ((Level.within n).guarded (decide (0 < l))) :=
  (h.expression l).bind fun _ => (h.block l).bind fun _ => counts_pure

theorem moreArms (room : Nat) :
    Counts n l (inner.moreArms room) ((Level.within n).moreArms (decide (0 < l)) room) := by
  induction room with
  | zero => exact counts_reading _
  | succ room ih =>
      have harm := (h.guarded l).bind fun arm => ih.bind fun more =>
        counts_pure (a := Arms.when arm.1 arm.2 more)
      rw [Nest.moreArms, Level.moreArms]
      refine counts_bind fun before => counts_bind fun _ => counts_bind fun _ => ?_
      refine counts_ite harm (counts_bind fun _ => counts_ite ?_ (counts_bind fun _ => counts_pure))
      refine counts_bind fun _ => counts_ite harm ?_
      exact (h.block l).bind fun _ => counts_pure

theorem choice : Counts n l inner.choice ((Level.within n).choice (decide (0 < l))) := by
  refine (h.guarded l).bind fun arm => counts_bind fun room => ?_
  exact (h.moreArms l (room + 1)).bind fun _ => counts_pure

/-- Inside the body of a loop one more loop is around, behind it no longer. -/
theorem loopBody : Counts n l inner.loopBody ((Level.within n).block true) := by
  intro c k hk
  have hblock := h.block (l + 1) c k hk
  rw [decide_eq_true (Nat.succ_pos l)] at hblock
  change Meets k l ((Level.within n).braced true c)
    (inner.block.thenAlways leaveLoop ⟨c, k, l + 1⟩)
  cases hr : (Level.within n).braced true c with
  | ok y =>
      rw [hr] at hblock
      exact thenAlways_apply hblock rfl
  | error e =>
      rw [hr] at hblock
      obtain ⟨d, j, hx, hj⟩ := hblock
      exact ⟨d, j, thenAlways_apply hx rfl, hj⟩

theorem simpleStatement : Counts n l inner.simpleStatement (Level.within n).simpleStatement := by
  have hassigned (target : Expr) (act : Expr → Act) : Counts n l
      (do
        let _ ← reading advance
        unless target.isPlace do
          reading (fail .badTarget)
        return act (← inner.expression))
      (do
        let _ ← advance
        unless target.isPlace do
          fail .badTarget
        return act (← (Level.within n).expression)) := by
    have hvalue := (h.expression l).bind fun value => counts_pure (a := act value)
    exact counts_bind fun _ => counts_ite hvalue (counts_bind fun _ => hvalue)
  refine (h.expression l).bind fun target => counts_bind fun k => ?_
  cases k with
  | mark m =>
      cases m with
      | assign => exact hassigned target (.assign target)
      | plusAssign => exact hassigned target (.update target .add)
      | minusAssign => exact hassigned target (.update target .sub)
      | _ => exact counts_pure
  | _ => exact counts_pure

omit h in
theorem jump (word : Keyword) (act : Act) : Counts n l (Nest.jump word act)
    (Level.act.jump (decide (0 < l)) word act) := by
  have hflag (inLoop : Bool) : Counts n l
      (do
        unless inLoop do
          reading (fail (.outsideLoop (.keyword word)))
        let _ ← reading advance
        return act)
      (Level.act.jump inLoop word act) := by
    have hword := counts_bind (n := n) (l := l) (r := advance) fun _ => counts_pure (a := act)
    exact counts_ite hword (counts_bind fun _ => hword)
  exact fun c k hk => hflag (decide (0 < l)) c k hk

theorem act : Counts n l inner.act ((Level.within n).act (decide (0 < l))) := by
  refine counts_bind fun k => ?_
  cases k with
  | keyword word =>
      cases word with
      | ifWord => exact counts_bind fun _ => h.choice l
      | forWord =>
          refine counts_bind fun _ => counts_bind fun name => counts_bind fun _ => ?_
          exact (h.expression l).bind fun source => (h.loopBody l).bind fun _ => counts_pure
      | whileWord =>
          refine counts_bind fun _ => (h.expression l).bind fun condition => ?_
          exact (h.loopBody l).bind fun _ => counts_pure
      | breakWord => exact jump l .breakWord .breakLoop
      | continueWord => exact jump l .continueWord .continueLoop
      | _ => exact h.simpleStatement l
  | _ => exact h.simpleStatement l

theorem endedStatement :
    Counts n l inner.endedStatement ((Level.within n).endedStatement (decide (0 < l))) := by
  have hstatement : Level.endedStatement (Level.within n) (decide (0 < l)) = (do
      let line ← line
      let act ← (Level.within n).act (decide (0 < l))
      endOfStatement
      skipNewlines
      return .mk line act) := by simp [Level.endedStatement, Level.statement]
  rw [hstatement]
  refine counts_bind fun line => (h.act l).bind fun act => ?_
  exact counts_bind fun _ => counts_bind fun _ => counts_pure

theorem statements (room : Nat) :
    Counts n l (inner.statements room) ((Level.within n).statements (decide (0 < l)) room) := by
  induction room with
  | zero => exact counts_reading _
  | succ room ih =>
      rw [Nest.statements, Level.statements]
      refine counts_bind fun k => ?_
      cases k with
      | eof => exact counts_reading _
      | mark m =>
          cases m with
          | rightBrace => exact counts_bind fun _ => counts_pure
          | _ => exact (h.endedStatement l).bind fun s => ih.bind fun _ => counts_pure
      | _ => exact (h.endedStatement l).bind fun s => ih.bind fun _ => counts_pure

theorem readBraced :
    Counts n l inner.readBraced ((Level.within n).readBraced (decide (0 < l))) :=
  counts_bind fun _ => counts_bind fun _ => counts_bind fun room => h.statements l (room + 1)

theorem readBlock :
    Counts (n + 1) l inner.readBlock ((Level.within n).readBraced (decide (0 < l))) := by
  intro c k hk
  have hbody := h.readBraced l c (k + 1) (by omega)
  rw [Nest.readBlock, Counting.bind_apply, enter_of_lt (by omega)]
  dsimp only
  rw [Counting.bind_apply]
  cases hr : (Level.within n).readBraced (decide (0 < l)) c with
  | ok y =>
      rw [hr] at hbody
      rw [show inner.readBraced ⟨c, k + 1, l⟩ = _ from hbody]
      dsimp only
      rw [Counting.bind_apply, leave_of_le (Nat.le_add_left 1 k)]
      rfl
  | error e =>
      rw [hr] at hbody
      obtain ⟨d, j, hx, hj⟩ := hbody
      rw [hx]
      exact ⟨d, j, rfl, Nat.le_of_succ_le hj⟩

theorem script (room : Nat) :
    Counts n 0 (inner.script room) ((Level.within n).script room) := by
  induction room with
  | zero => exact counts_pure
  | succ room ih =>
      rw [Nest.script, Level.script]
      refine counts_bind fun k => ?_
      cases k with
      | eof => exact counts_pure
      | _ => exact (h.endedStatement 0).bind fun s => ih.bind fun _ => counts_pure

end Statements

end Agrees

/-- The parts of the parser for scripts of a depth do the same as the readers of as many levels, and of
fewer. -/
theorem agrees_ofDepth {most n : Nat} (hn : n ≤ most) : (ofDepth most).Agrees n := by
  induction most generalizing n with
  | zero =>
      obtain rfl := Nat.le_zero.1 hn
      exact ⟨fun _ => counts_reading _, fun _ => counts_reading _, fun _ => counts_reading _,
        fun _ => counts_reading _⟩
  | succ most ih =>
      have hinner (n : Nat) (hn : n ≤ most) := ih hn
      cases n with
      | zero =>
          exact ⟨fun _ => counts_enter_zero, fun _ => counts_enter_zero, fun _ => counts_enter_zero,
            fun _ => counts_enter_zero⟩
      | succ n =>
          have hless : n ≤ most := Nat.le_of_succ_le_succ hn
          exact {
            expression := fun l => (Agrees.disjunction hinner l hless).inside
            negation := fun l => (Agrees.readNegation hinner l hless).inside
            sign := fun l => (Agrees.readSign hinner l hless).inside
            block := fun l => (hinner n hless).readBlock l }

/-- A statement leaves the counters as it has found them, and where it fails nothing more has been taken
off a counter than it holds. -/
theorem counters_of_endedStatement {n k l : Nat} (hk : k + n = maxNesting) (c : Cursor) :
    Meets k l ((Level.within n).endedStatement (decide (0 < l)) c)
      ((ofDepth maxNesting).endedStatement ⟨c, k, l⟩) :=
  (agrees_ofDepth (by omega)).endedStatement l c k hk

/-- At the end of a script nothing is left in the counters. -/
theorem counters_of_program (c : Cursor) :
    Meets 0 0 (parseTokens.readScript c) (program ⟨c, 0, 0⟩) := by
  have hscript (room : Nat) : Counts maxNesting 0 ((ofDepth maxNesting).script room)
      ((Level.within maxNesting).script room) := (agrees_ofDepth (Nat.le_refl _)).script room
  have hread : Counts maxNesting 0 program parseTokens.readScript :=
    counts_bind fun _ => counts_bind fun room => hscript (room + 1)
  exact hread c 0 (Nat.zero_add _)

end Nest

end PromptWeave.Script
