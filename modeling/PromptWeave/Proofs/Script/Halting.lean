import PromptWeave.Proofs.Script.Walking

/-!
# The parser comes to an end

Every part of the parser that walks ends on every tape, wherever it begins. The readers of one level are
compared after those of the level inside it; the loops inside a level come to an end as each round
passes over a token or enters a level. Main statement: `parser_ends_on_every_tape`.
-/
namespace PromptWeave.Script

open Level

/-! ### Loops, round by round -/

theorem ite_bind {M : Type → Type} [Monad M] {α β : Type} {p : Prop} [Decidable p] (x y : M α)
    (f : α → M β) : (if p then x else y) >>= f = if p then x >>= f else y >>= f := by
  split <;> rfl

theorem armsBefore_concat (read : List (Expr × List Stmt)) (arm : Expr × List Stmt) (rest : Arms) :
    Walk.armsBefore (read ++ [arm]) rest = Walk.armsBefore read (.when arm.1 arm.2 rest) := by
  rw [Walk.armsBefore, List.foldr_append]
  rfl

namespace Walk

variable (tape : Tape) (inner : List Rung)

theorem links_eq (rank : Rank) (before : Expr) :
    links tape inner rank before = (do
      match rank.join? (← peek tape) with
      | some join =>
          let _ ← advance tape
          let after ← operand tape inner rank
          links tape inner.tail rank (join before after)
      | none => return before) := by
  refine (loop_eq _ (inner, before)).trans ((bind_assoc _ _ _).trans (bind_congr fun kind => ?_))
  cases rank.join? kind with
  | none => exact pure_bind _ _
  | some join =>
      simp only [bind_assoc, pure_bind, Sum.elim_inr]
      rfl

theorem postfixes_eq (target : Expr) :
    postfixes tape inner target = (do
      if opensPostfix (← peek tape) then
        let target ← postfixed tape inner target
        postfixes tape inner.tail target
      else
        return target) := by
  refine (loop_eq _ (inner, target)).trans ?_
  simp only [bind_assoc, ite_bind, pure_bind, Sum.elim_inl, Sum.elim_inr]
  rfl

theorem items_eq (close : Mark) (what : String) (read : List Expr) :
    items tape inner close what read = (do
      let next ← expression tape inner
      if ← accept tape (.mark close) then
        return read ++ [next]
      expect tape (.mark .comma) what
      if ← accept tape (.mark close) then
        return read ++ [next]
      items tape inner close what (read ++ [next])) := by
  refine (loop_eq _ read).trans ?_
  simp only [bind_assoc, ite_bind, pure_bind, Sum.elim_inl, Sum.elim_inr]
  rfl

theorem moreArms_eq (inLoop : Bool) (read : List (Expr × List Stmt)) :
    moreArms tape inner inLoop read = (do
      let start ← here
      skipNewlines tape
      if ← accept tape (.keyword .elifWord) then
        let arm ← guarded tape inner inLoop
        moreArms tape inner inLoop (read ++ [arm])
      else if ← accept tape (.keyword .elseWord) then
        if ← accept tape (.keyword .ifWord) then
          let arm ← guarded tape inner inLoop
          moreArms tape inner inLoop (read ++ [arm])
        else
          return armsBefore read (.otherwise (← block tape inner inLoop))
      else
        goBack start
        return armsBefore read .done) := by
  refine (loop_eq _ read).trans ?_
  simp only [bind_assoc, ite_bind, pure_bind, Sum.elim_inl, Sum.elim_inr]
  rfl

theorem statements_eq (inLoop : Bool) (read : List Stmt) :
    statements tape inner inLoop read = (do
      match ← peek tape with
      | .mark .rightBrace =>
          let _ ← advance tape
          return read
      | .eof => fail tape .missingBrace
      | _ =>
          let next ← endedStatement tape inner inLoop
          statements tape inner inLoop (read ++ [next])) := by
  refine (loop_eq _ read).trans ((bind_assoc _ _ _).trans (bind_congr fun kind => ?_))
  split
  · simp only [bind_assoc, pure_bind, Sum.elim_inl]
  · exact fail_bind ..
  · simp only [bind_assoc, pure_bind, Sum.elim_inr]
    rfl

theorem script_eq (read : List Stmt) :
    script tape inner read = (do
      match ← peek tape with
      | .eof => return read
      | _ =>
          let next ← endedStatement tape inner false
          script tape inner (read ++ [next])) := by
  refine (loop_eq _ read).trans ((bind_assoc _ _ _).trans (bind_congr fun kind => ?_))
  split
  · exact pure_bind _ _
  · simp only [bind_assoc, pure_bind, Sum.elim_inr]
    rfl

end Walk

/-- What a reader of expressions gives behind those that were read before. -/
theorem items_behind (inner : Level) (close : Mark) (what : String) (room : Nat) (read : List Expr) :
    (do return read ++ (← inner.items close what (room + 1))) = (do
      let next ← inner.expression
      if ← Reader.accept (.mark close) then
        return read ++ [next]
      Reader.expect (.mark .comma) what
      if ← Reader.accept (.mark close) then
        return read ++ [next]
      return read ++ [next] ++ (← inner.items close what room)) := by
  simp only [Level.items, bind_assoc, ite_bind, pure_bind, List.append_assoc, List.singleton_append]

theorem moreArms_behind (inner : Level) (inLoop : Bool) (room : Nat)
    (read : List (Expr × List Stmt)) :
    (do return Walk.armsBefore read (← inner.moreArms inLoop (room + 1))) = (do
      let before ← get
      Reader.skipNewlines
      if ← Reader.accept (.keyword .elifWord) then
        let arm ← inner.guarded inLoop
        return Walk.armsBefore (read ++ [arm]) (← inner.moreArms inLoop room)
      if ← Reader.accept (.keyword .elseWord) then
        if ← Reader.accept (.keyword .ifWord) then
          let arm ← inner.guarded inLoop
          return Walk.armsBefore (read ++ [arm]) (← inner.moreArms inLoop room)
        return Walk.armsBefore read (.otherwise (← inner.block inLoop))
      set before
      return Walk.armsBefore read .done) := by
  simp only [Level.moreArms, bind_assoc, ite_bind, pure_bind, armsBefore_concat]

theorem statements_behind (inner : Level) (inLoop : Bool) (room : Nat) (read : List Stmt) :
    (do return read ++ (← inner.statements inLoop (room + 1))) = (do
      match ← Reader.peek with
      | .mark .rightBrace =>
          let _ ← Reader.advance
          return read
      | .eof => Reader.fail .missingBrace
      | _ =>
          let next ← inner.endedStatement inLoop
          return read ++ [next] ++ (← inner.statements inLoop room)) := by
  rw [Level.statements, bind_assoc]
  refine bind_congr fun kind => ?_
  split
  · simp only [bind_assoc, pure_bind, List.append_nil]
  · rfl
  · simp only [bind_assoc, pure_bind, List.append_assoc, List.singleton_append]

theorem script_behind (inner : Level) (room : Nat) (read : List Stmt) :
    (do return read ++ (← inner.script (room + 1))) = (do
      match ← Reader.peek with
      | .eof => return read
      | _ =>
          let next ← inner.endedStatement false
          return read ++ [next] ++ (← inner.script room)) := by
  rw [Level.script, bind_assoc]
  refine bind_congr fun kind => ?_
  split
  · simp only [pure_bind, List.append_nil]
  · simp only [bind_assoc, pure_bind, List.append_assoc, List.singleton_append]

variable {tape : Tape} {looks : Bool} {n : Nat}

/-! ### Expressions -/

open Walk (ladder)

/-- Whether the parts of an expression that enter one of `n` levels do what the readers of these levels
do. -/
structure TracksExpressions (tape : Tape) (looks : Bool) (n : Nat) : Prop where
  operand (rank : Rank) (w : Walker) :
    Tracks tape looks w (Walk.operand tape (ladder tape n) rank) ((within n).operand rank) (w.place + 1)
  postfixed (target : Expr) (w : Walker) :
    Tracks tape looks w (Walk.postfixed tape (ladder tape n) target) ((within n).postfixed target)
      (w.place + 1)
  expression (w : Walker) :
    Tracks tape looks w (Walk.expression tape (ladder tape n)) (within n).expression (w.place + 1)
  links (rank : Rank) (before : Expr) (w : Walker) :
    Tracks tape looks w (Walk.links tape (ladder tape n) rank before)
      ((within n).readLinks rank before) w.place
  postfixes (target : Expr) (w : Walker) :
    Tracks tape looks w (Walk.postfixes tape (ladder tape n) target) ((within n).readPostfixes target)
      w.place

namespace TracksExpressions

variable (h : TracksExpressions tape looks n) (w : Walker)

include h

/-- A list that is gone through ends as there is a token for each expression. -/
theorem items (close : Mark) (what : String) (read : List Expr) (room : Nat)
    (hroom : tape.tokens.length - w.place ≤ room) :
    Tracks tape looks w (Walk.items tape (ladder tape n) close what read)
      (do return read ++ (← (within n).items close what room)) (w.place + 1) := by
  induction room generalizing w read with
  | zero => exact fun hplace => absurd hplace (by omega)
  | succ room ih =>
      rw [Walk.items_eq, items_behind]
      refine (h.expression w).bind fun next w₁ h₁ => ?_
      refine tracks_accept_ite (.mark close) (fun w₂ h₂ => tracks_pure (by omega)) ?_
      refine (tracks_expect (.mark .comma) what).bind fun _ w₂ h₂ => ?_
      refine tracks_accept_ite (.mark close) (fun w₃ h₃ => tracks_pure (by omega)) ?_
      exact (ih w₂ (read ++ [next]) (by omega)).mono (by omega)

theorem arguments :
    Tracks tape looks w (Walk.arguments tape (ladder tape n)) (within n).arguments (w.place + 1) := by
  rw [Walk.arguments, Level.arguments]
  refine tracks_accept_ite (.mark .rightParen) (fun w₁ h₁ => tracks_pure h₁) (tracks_left ?_)
  have hitems := h.items w .rightParen "',' or ')'" [] (tape.tokens.length - (w.place + 1) + 1) (by omega)
  simpa only [List.nil_append, bind_pure] using hitems

theorem bound (close : Mark) :
    Tracks tape looks w (Walk.bound tape (ladder tape n) close) ((within n).bound close) w.place := by
  rw [Walk.bound, Level.bound]
  refine tracks_peek ?_
  split
  · exact tracks_pure (Nat.le_refl _)
  · refine (h.expression w).bind fun e w₁ h₁ => ?_
    exact tracks_pure (by omega)

theorem indexOrSlice (target : Expr) :
    Tracks tape looks w (Walk.indexOrSlice tape (ladder tape n) target)
      ((within n).indexOrSlice target) (w.place + 1) := by
  rw [Walk.indexOrSlice, Level.indexOrSlice]
  refine (h.bound w .colon).bind fun start w₁ h₁ => ?_
  refine tracks_accept_ite (.mark .colon) (fun w₂ h₂ => ?_) ?_
  · refine (h.bound w₂ .rightBracket).bind fun stop w₃ h₃ => ?_
    refine (tracks_expect (.mark .rightBracket) _).bind fun _ w₄ h₄ => ?_
    exact tracks_pure (by omega)
  · refine (tracks_expect (.mark .rightBracket) _).bind fun _ w₂ h₂ => ?_
    cases start with
    | none => exact tracks_fail _
    | some i => exact tracks_pure (by omega)

/-- The condition of a rule for items may be missing, and the rule goes on behind it. -/
theorem condition {β : Type} {f : Option Expr → Walk β} {g : Option Expr → Reader β} {goal : Nat}
    (hf : ∀ e w', w.place ≤ w'.place → Tracks tape looks w' (f e) (g e) goal) :
    Tracks tape looks w
      (Walk.accept tape (.keyword .ifWord) >>= fun b =>
        if b = true then some <$> Walk.expression tape (ladder tape n) >>= f else pure none >>= f)
      (Reader.accept (.keyword .ifWord) >>= fun b =>
        if b = true then some <$> (within n).expression >>= g else pure none >>= g) goal := by
  refine tracks_accept_ite (.keyword .ifWord) (fun w₁ h₁ => ?_) ?_
  · simp only [← bind_pure_comp, bind_assoc, pure_bind]
    refine (h.expression w₁).bind fun e w₂ h₂ => ?_
    exact hf (some e) w₂ (by omega)
  · simp only [pure_bind]
    exact hf none w (Nat.le_refl _)

theorem listDisplay :
    Tracks tape looks w (Walk.listDisplay tape (ladder tape n)) (within n).listDisplay
      (w.place + 1) := by
  rw [Walk.listDisplay, Level.listDisplay]
  refine tracks_accept_ite (.mark .rightBracket) (fun w₁ h₁ => tracks_pure h₁) ?_
  refine (h.expression w).bind fun first w₁ h₁ => ?_
  refine tracks_accept_ite (.keyword .forWord) (fun w₂ h₂ => ?_) ?_
  · refine tracks_identifier.bind fun name w₃ h₃ => ?_
    refine (tracks_expect (.keyword .inWord) _).bind fun _ w₄ h₄ => ?_
    refine (h.expression w₄).bind fun source w₅ h₅ => ?_
    refine h.condition w₅ fun condition w₆ h₆ => ?_
    refine (tracks_expect (.mark .rightBracket) _).bind fun _ w₇ h₇ => ?_
    exact tracks_pure (by omega)
  refine tracks_accept_ite (.mark .rightBracket) (fun w₂ h₂ => tracks_pure (by omega)) ?_
  refine (tracks_expect (.mark .comma) _).bind fun _ w₂ h₂ => ?_
  refine tracks_accept_ite (.mark .rightBracket) (fun w₃ h₃ => tracks_pure (by omega)) (tracks_left ?_)
  have hitems := h.items w₂ .rightBracket "',' or ']'" [first]
    (tape.tokens.length - (w₂.place + 1) + 1) (by omega)
  have hgoal : w.place + 1 ≤ w₂.place + 1 := by omega
  have hlist := (hitems.then_pure Expr.list).mono hgoal
  simpa only [bind_assoc, pure_bind, List.singleton_append] using hlist

theorem primary :
    Tracks tape looks w (Walk.primary tape (ladder tape n)) (within n).primary (w.place + 1) := by
  rw [Walk.primary, Level.primary]
  refine tracks_advance fun w₁ _ hnext => ?_
  cases hkind : (tape.token w.place).kind with
  | keyword word =>
      have h₁ := hnext (by simp [hkind])
      cases word with
      | trueWord | falseWord | noneWord => exact tracks_pure h₁
      | _ => exact tracks_fail _
  | mark m =>
      have h₁ := hnext (by simp [hkind])
      cases m with
      | leftParen =>
          refine (h.expression w₁).bind fun e w₂ h₂ => ?_
          refine (tracks_expect (.mark .rightParen) _).bind fun _ w₃ h₃ => ?_
          exact tracks_pure (by omega)
      | leftBracket => exact (h.listDisplay w₁).mono (by omega)
      | _ => exact tracks_fail _
  | newline | eof => exact tracks_fail _
  | _ => exact tracks_pure (hnext (by simp [hkind]))

theorem readPostfixed (target : Expr) :
    Tracks tape looks w (Walk.readPostfixed tape (ladder tape n) target)
      ((within n).readPostfixed target) (w.place + 1) := by
  rw [Walk.readPostfixed, Level.readPostfixed]
  refine tracks_advance fun w₁ h₁ _ => ?_
  have hname : Tracks tape looks w₁ (do return Expr.attribute target (← Walk.identifier tape))
      (do return Expr.attribute target (← Reader.identifier)) (w.place + 1) := by
    refine tracks_identifier.bind fun name w₂ h₂ => ?_
    exact tracks_pure (by omega)
  cases (tape.token w.place).kind with
  | mark m =>
      cases m with
      | leftParen =>
          refine (h.arguments w₁).bind fun args w₂ h₂ => ?_
          exact tracks_pure (by omega)
      | leftBracket => exact (h.indexOrSlice w₁ target).mono (by omega)
      | _ => exact hname
  | _ => exact hname

theorem sign :
    Tracks tape looks w (Walk.sign tape (ladder tape n)) (within n).sign (w.place + 1) := by
  rw [Walk.sign, Level.sign]
  refine tracks_accept_ite (.mark .minus) (fun w₁ h₁ => ?_) ?_
  · refine (h.operand .product w₁).bind fun e w₂ h₂ => ?_
    exact tracks_pure (by omega)
  · refine (h.primary w).bind fun target w₁ h₁ => ?_
    exact (h.postfixes target w₁).mono h₁

theorem product :
    Tracks tape looks w (Walk.product tape (ladder tape n)) (within n).product (w.place + 1) := by
  rw [Walk.product, Level.product]
  refine (h.sign w).bind fun first w₁ h₁ => ?_
  exact (h.links .product first w₁).mono h₁

theorem sum : Tracks tape looks w (Walk.sum tape (ladder tape n)) (within n).sum (w.place + 1) := by
  rw [Walk.sum, Level.sum]
  refine (h.product w).bind fun first w₁ h₁ => ?_
  exact (h.links .sum first w₁).mono h₁

theorem comparison :
    Tracks tape looks w (Walk.comparison tape (ladder tape n)) (within n).comparison
      (w.place + 1) := by
  rw [Walk.comparison, Level.comparison]
  refine (h.sum w).bind fun before w₁ h₁ => tracks_inFollows (tracks_peek ?_)
  cases comparison? (tape.beforeIn w₁.place) (tape.token w₁.place).kind with
  | none => exact tracks_pure h₁
  | some op =>
      refine tracks_advance fun w₂ h₂ _ => ?_
      have hright (w₃ : Walker) (h₃ : w₂.place ≤ w₃.place) :
          Tracks tape looks w₃ (do return Expr.binary op before (← Walk.sum tape (ladder tape n)))
            (do return Expr.binary op before (← (within n).sum)) (w.place + 1) := by
        refine (h.sum w₃).bind fun after w₄ h₄ => ?_
        exact tracks_pure (by omega)
      dsimp only
      split
      · exact tracks_advance fun w₃ h₃ _ => hright w₃ h₃
      · exact hright w₂ (Nat.le_refl _)

theorem negation :
    Tracks tape looks w (Walk.negation tape (ladder tape n)) (within n).negation (w.place + 1) := by
  rw [Walk.negation, Level.negation]
  refine tracks_accept_ite (.keyword .notWord) (fun w₁ h₁ => ?_) (h.comparison w)
  refine (h.operand .conjunction w₁).bind fun e w₂ h₂ => ?_
  exact tracks_pure (by omega)

theorem conjunction :
    Tracks tape looks w (Walk.conjunction tape (ladder tape n)) (within n).conjunction
      (w.place + 1) := by
  rw [Walk.conjunction, Level.conjunction]
  refine (h.negation w).bind fun first w₁ h₁ => ?_
  exact (h.links .conjunction first w₁).mono h₁

/-- The operands of one level further out. -/
theorem readOperand (rank : Rank) :
    Tracks tape looks w (Walk.readOperand tape (ladder tape n) rank) ((within n).readOperand rank)
      (w.place + 1) := by
  cases rank with
  | disjunction => exact h.conjunction w
  | conjunction => exact h.negation w
  | sum => exact h.product w
  | product => exact h.sign w

end TracksExpressions

/-- After each operator a chain goes on one level further in. -/
theorem tracks_links {inner : List Walk.Rung} {level : Level} (rank : Rank) (before : Expr) (w : Walker)
    (hnext : ∀ (join : Expr → Expr → Expr) w₁, Tracks tape looks w₁
      (do
        let after ← Walk.operand tape inner rank
        Walk.links tape inner.tail rank (join before after))
      (do
        let after ← level.operand rank
        level.links rank (join before after)) w₁.place) :
    Tracks tape looks w (Walk.links tape inner rank before) (level.readLinks rank before) w.place := by
  rw [Walk.links_eq, Level.readLinks]
  refine tracks_peek ?_
  cases rank.join? (tape.token w.place).kind with
  | none => exact tracks_pure (Nat.le_refl _)
  | some join => exact tracks_advance fun w₁ h₁ _ => (hnext join w₁).mono h₁

/-- After each call, index or attribute others are looked for one level further in. -/
theorem tracks_postfixes {inner : List Walk.Rung} {level : Level} (target : Expr) (w : Walker)
    (hnext : Tracks tape looks w
      (do
        let target ← Walk.postfixed tape inner target
        Walk.postfixes tape inner.tail target)
      (do level.postfixes (← level.postfixed target)) w.place) :
    Tracks tape looks w (Walk.postfixes tape inner target) (level.readPostfixes target) w.place := by
  rw [Walk.postfixes_eq, Level.readPostfixes]
  refine tracks_peek ?_
  split
  · exact hnext
  · exact tracks_pure (Nat.le_refl _)

/-- Where no level may be entered every part that would enter one fails. -/
theorem tracksExpressions_zero : TracksExpressions tape looks 0 where
  operand _ _ := tracks_fail _
  postfixed _ _ := tracks_fail _
  expression _ := tracks_fail_bind _
  links rank before w := tracks_links rank before w fun _ _ => tracks_fail_bind _
  postfixes target w := tracks_postfixes target w (tracks_fail_bind _)

theorem TracksExpressions.succ (h : TracksExpressions tape looks n) :
    TracksExpressions tape looks (n + 1) where
  operand rank w := h.readOperand w rank
  postfixed target w := h.readPostfixed w target
  expression w := (h.conjunction w).bind fun first w₁ h₁ => (h.links .disjunction first w₁).mono h₁
  links rank before w := tracks_links rank before w fun join w₁ =>
    (h.readOperand w₁ rank).bind fun after w₂ h₂ =>
      (h.links rank (join before after) w₂).mono (Nat.le_of_succ_le h₂)
  postfixes target w := tracks_postfixes target w <|
    (h.readPostfixed w target).bind fun target w₁ h₁ =>
      (h.postfixes target w₁).mono (Nat.le_of_succ_le h₁)

theorem tracksExpressions (tape : Tape) (looks : Bool) : ∀ n, TracksExpressions tape looks n
  | 0 => tracksExpressions_zero
  | n + 1 => (tracksExpressions tape looks n).succ

/-! ### Statements -/

theorem tracks_simpleStatement (n : Nat) (w : Walker) :
    Tracks tape looks w (Walk.simpleStatement tape (ladder tape n)) (within n).simpleStatement
      (w.place + 1) := by
  rw [Walk.simpleStatement, Level.simpleStatement]
  have hexpression (w : Walker) := (tracksExpressions tape looks n).expression w
  refine (hexpression w).bind fun target w₁ h₁ => tracks_peek ?_
  have hassigned (act : Expr → Act) : Tracks tape looks w₁
      (do
        let _ ← Walk.advance tape
        unless target.isPlace do
          Walk.fail tape .badTarget
        return act (← Walk.expression tape (ladder tape n)))
      (do
        let _ ← Reader.advance
        unless target.isPlace do
          Reader.fail .badTarget
        return act (← (within n).expression)) (w.place + 1) := by
    refine tracks_advance fun w₂ h₂ _ => ?_
    split
    · refine (hexpression w₂).bind fun value w₃ h₃ => ?_
      exact tracks_pure (by omega)
    · exact tracks_fail_bind _
  cases (tape.token w₁.place).kind with
  | mark m =>
      cases m with
      | assign | plusAssign | minusAssign =>
          simp only [pure_bind]
          exact hassigned _
      | _ => exact tracks_pure h₁
  | _ => exact tracks_pure h₁

theorem tracks_jump {w : Walker} (inLoop : Bool) (word : Keyword) (act : Act)
    (hword : (tape.token w.place).kind = .keyword word) :
    Tracks tape looks w (Walk.jump tape inLoop word act) (Level.act.jump inLoop word act)
      (w.place + 1) := by
  rw [Walk.jump, Level.act.jump]
  cases inLoop with
  | true => exact tracks_pass (by simp [hword]) fun w₁ h₁ => tracks_pure h₁
  | false => exact tracks_fail_bind _

section Lookahead

variable {w : Walker} {count : Nat} (hskips : Skips tape w count)
  (helif : (tape.token (w.place + count)).kind ≠ .keyword .elifWord)
  (helse : (tape.token (w.place + count)).kind ≠ .keyword .elseWord)

include hskips helif helse

/-- Where no arm follows the parser goes back to the place from which it has looked ahead. -/
theorem moreArms_walked (inner : List Walk.Rung) (inLoop : Bool) (read : List (Expr × List Stmt)) :
    Walk.moreArms tape inner inLoop read w =
      .some (.ok (Walk.armsBefore read .done), ⟨w.place, (w.forward count).moves ++ [.back w.place]⟩) := by
  rw [Walk.moreArms_eq, Walk.bind_of_ok _ rfl, Walk.bind_of_ok _ hskips.walked,
    Walk.bind_of_ok _ (Walk.accept_of_ne (.keyword _) helif), if_neg Bool.false_ne_true,
    Walk.bind_of_ok _ (Walk.accept_of_ne (.keyword _) helse), if_neg Bool.false_ne_true,
    Walk.bind_of_ok _ rfl]
  rfl

theorem moreArms_read (inner : Level) (inLoop : Bool) (room : Nat) :
    inner.moreArms inLoop (room + 1) (tape.cursor w.place) = .ok (.done, tape.cursor w.place) := by
  have hget : (get : Reader Cursor) (tape.cursor w.place) =
    .ok (tape.cursor w.place, tape.cursor w.place) := rfl
  rw [Level.moreArms, Reader.bind_of_ok hget, Reader.bind_of_ok hskips.read,
    Reader.bind_of_ok (Reader.accept_apply_of_ne (.keyword _) helif), if_neg Bool.false_ne_true,
    Reader.bind_of_ok (Reader.accept_apply_of_ne (.keyword _) helse)]
  rfl

end Lookahead

/-- Whether the blocks in braces that enter one of `n` levels are read as the readers of these levels
read them. -/
def TracksBlocks (tape : Tape) (n : Nat) : Prop :=
  ∀ inLoop w, Tracks tape true w (Walk.block tape (ladder tape n) inLoop) ((within n).block inLoop)
    (w.place + 1)

namespace TracksBlocks

variable (h : TracksBlocks tape n) (inLoop : Bool) (w : Walker)

include h

theorem guarded :
    Tracks tape true w (Walk.guarded tape (ladder tape n) inLoop) ((within n).guarded inLoop)
      (w.place + 1) := by
  rw [Walk.guarded, Level.guarded]
  refine ((tracksExpressions tape true n).expression w).bind fun condition w₁ h₁ => ?_
  refine (h inLoop w₁).bind fun body w₂ h₂ => ?_
  exact tracks_pure (by omega)

/-- A choice has no more arms than tokens. Its arms are looked for behind ends of lines, and where there
is none of them the parser goes back to where it began to look. -/
theorem moreArms (read : List (Expr × List Stmt)) (room : Nat)
    (hroom : tape.tokens.length - w.place ≤ room) :
    Tracks tape true w (Walk.moreArms tape (ladder tape n) inLoop read)
      (do return Walk.armsBefore read (← (within n).moreArms inLoop room)) w.place := by
  induction room generalizing w read with
  | zero => exact fun hplace => absurd hplace (by omega)
  | succ room ih =>
      have hnext (w₁ : Walker) (h₁ : w.place + 1 ≤ w₁.place) :
          Tracks tape true w₁
            (do
              let arm ← Walk.guarded tape (ladder tape n) inLoop
              Walk.moreArms tape (ladder tape n) inLoop (read ++ [arm]))
            (do
              let arm ← (within n).guarded inLoop
              return Walk.armsBefore (read ++ [arm]) (← (within n).moreArms inLoop room)) w.place := by
        refine (h.guarded inLoop w₁).bind fun arm w₂ h₂ => ?_
        exact (ih w₂ (read ++ [arm]) (by omega)).mono (by omega)
      intro hplace
      -- The token behind the ends of lines decides whether they are kept or given back.
      obtain ⟨count, hskips⟩ := exists_skips hplace
      by_cases harm : (tape.token (w.place + count)).kind = .keyword .elifWord ∨
          (tape.token (w.place + count)).kind = .keyword .elseWord
      · rw [Walk.moreArms_eq, moreArms_behind]
        refine tracks_here (hskips.tracks ?_) hplace
        have hcount : w.place ≤ (w.forward count).place := Nat.le_add_right _ _
        refine tracks_accept (.keyword .elifWord) (fun _ w₁ h₁ => hnext w₁ (by omega)) fun helif => ?_
        refine tracks_accept (.keyword .elseWord) (fun _ w₁ h₁ => ?_) fun helse => ?_
        · refine tracks_accept_ite (.keyword .ifWord) (fun w₂ h₂ => hnext w₂ (by omega)) ?_
          refine (h inLoop w₁).bind fun body w₂ h₂ => ?_
          exact tracks_pure (by omega)
        · exact absurd harm (not_or.2 ⟨helif, helse⟩)
      · obtain ⟨helif, helse⟩ := not_or.1 harm
        refine ⟨.ok (Walk.armsBefore read .done), w.place,
          List.replicate count .ahead ++ [.back w.place], ?_, .lookahead rfl hskips.newlines (.still _),
          ?_, fun _ _ => Nat.le_refl _⟩
        · rw [moreArms_walked hskips helif helse, Walker.forward, List.append_assoc]
        · rw [Reader.bind_of_ok (moreArms_read hskips helif helse (within n) inLoop room)]
          rfl

theorem choice :
    Tracks tape true w (Walk.choice tape (ladder tape n) inLoop) ((within n).choice inLoop)
      (w.place + 1) := by
  rw [Walk.choice, Level.choice]
  refine (h.guarded inLoop w).bind fun arm w₁ h₁ => tracks_left ?_
  have harms := h.moreArms inLoop w₁ [arm] (tape.tokens.length - (w₁.place + 1) + 1) (by omega)
  have hchoice := (harms.then_pure Act.choose).mono h₁
  simp only [bind_assoc, pure_bind] at hchoice
  exact hchoice

theorem act :
    Tracks tape true w (Walk.act tape (ladder tape n) inLoop) ((within n).act inLoop)
      (w.place + 1) := by
  have hexpression (w : Walker) := (tracksExpressions tape true n).expression w
  rw [Walk.act, Level.act]
  refine tracks_peek ?_
  have hsimple : Tracks tape true w (Walk.simpleStatement tape (ladder tape n))
      (within n).simpleStatement (w.place + 1) := tracks_simpleStatement n w
  cases hkind : (tape.token w.place).kind with
  | keyword word =>
      cases word with
      | ifWord =>
          refine tracks_advance fun w₁ h₁ _ => ?_
          exact (h.choice inLoop w₁).mono (by omega)
      | forWord =>
          refine tracks_advance fun w₁ h₁ _ => tracks_identifier.bind fun name w₂ h₂ => ?_
          refine (tracks_expect (.keyword .inWord) _).bind fun _ w₃ h₃ => ?_
          refine (hexpression w₃).bind fun source w₄ h₄ => ?_
          refine (h true w₄).bind fun body w₅ h₅ => ?_
          exact tracks_pure (by omega)
      | whileWord =>
          refine tracks_advance fun w₁ h₁ _ => (hexpression w₁).bind fun condition w₂ h₂ => ?_
          refine (h true w₂).bind fun body w₃ h₃ => ?_
          exact tracks_pure (by omega)
      | breakWord => exact tracks_jump inLoop .breakWord .breakLoop hkind
      | continueWord => exact tracks_jump inLoop .continueWord .continueLoop hkind
      | _ => exact hsimple
  | _ => exact hsimple

theorem statement :
    Tracks tape true w (Walk.statement tape (ladder tape n) inLoop) ((within n).statement inLoop)
      (w.place + 1) := by
  rw [Walk.statement, Level.statement]
  refine tracks_line ((h.act inLoop w).bind fun act w₁ h₁ => ?_)
  exact tracks_pure h₁

theorem endedStatement :
    Tracks tape true w (Walk.endedStatement tape (ladder tape n) inLoop)
      ((within n).endedStatement inLoop) (w.place + 1) := by
  rw [Walk.endedStatement, Level.endedStatement]
  refine (h.statement inLoop w).bind fun s w₁ h₁ => ?_
  refine tracks_endOfStatement.bind fun _ w₂ h₂ => tracks_skipNewlines fun w₃ h₃ => ?_
  exact tracks_pure (by omega)

/-- The statements of a block end as there is a token for each of them. -/
theorem statements (read : List Stmt) (room : Nat) (hroom : tape.tokens.length - w.place ≤ room) :
    Tracks tape true w (Walk.statements tape (ladder tape n) inLoop read)
      (do return read ++ (← (within n).statements inLoop room)) (w.place + 1) := by
  induction room generalizing w read with
  | zero => exact fun hplace => absurd hplace (by omega)
  | succ room ih =>
      have hmore : Tracks tape true w
          (do
            let next ← Walk.endedStatement tape (ladder tape n) inLoop
            Walk.statements tape (ladder tape n) inLoop (read ++ [next]))
          (do
            let next ← (within n).endedStatement inLoop
            return read ++ [next] ++ (← (within n).statements inLoop room)) (w.place + 1) := by
        refine (h.endedStatement inLoop w).bind fun next w₁ h₁ => ?_
        exact (ih w₁ (read ++ [next]) (by omega)).mono (by omega)
      rw [Walk.statements_eq, statements_behind]
      refine tracks_peek ?_
      cases hkind : (tape.token w.place).kind with
      | mark m =>
          cases m with
          | rightBrace => exact tracks_pass (by simp [hkind]) fun w₁ h₁ => tracks_pure h₁
          | _ => exact hmore
      | eof => exact tracks_fail _
      | _ => exact hmore

theorem readBraced :
    Tracks tape true w (Walk.readBraced tape (ladder tape n) inLoop) ((within n).readBraced inLoop)
      (w.place + 1) := by
  rw [Walk.readBraced, Level.readBraced]
  refine (tracks_expect (.mark .leftBrace) _).bind fun _ w₁ h₁ => ?_
  refine tracks_skipNewlines fun w₂ h₂ => tracks_left ?_
  have hstatements := h.statements inLoop w₂ [] (tape.tokens.length - (w₂.place + 1) + 1) (by omega)
  simp only [List.nil_append, bind_pure] at hstatements
  exact hstatements.mono (by omega)

/-- The statements of a script end as there is a token for each of them. -/
theorem script (read : List Stmt) (room : Nat) (hroom : tape.tokens.length - w.place ≤ room) :
    Tracks tape true w (Walk.script tape (ladder tape n) read)
      (do return read ++ (← (within n).script room)) w.place := by
  induction room generalizing w read with
  | zero => exact fun hplace => absurd hplace (by omega)
  | succ room ih =>
      rw [Walk.script_eq, script_behind]
      refine tracks_peek ?_
      have hmore : Tracks tape true w
          (do
            let next ← Walk.endedStatement tape (ladder tape n) false
            Walk.script tape (ladder tape n) (read ++ [next]))
          (do
            let next ← (within n).endedStatement false
            return read ++ [next] ++ (← (within n).script room)) w.place := by
        refine (h.endedStatement false w).bind fun next w₁ h₁ => ?_
        exact (ih w₁ (read ++ [next]) (by omega)).mono (by omega)
      cases (tape.token w.place).kind with
      | eof => exact tracks_pure (Nat.le_refl _)
      | _ => exact hmore

end TracksBlocks

theorem tracksBlocks (tape : Tape) : ∀ n, TracksBlocks tape n
  | 0 => fun _ _ => tracks_fail _
  | n + 1 => fun inLoop w => (tracksBlocks tape n).readBraced inLoop w

theorem tracks_program (w : Walker) :
    Tracks tape true w (Walk.program tape) parseTokens.readScript w.place := by
  rw [Walk.program, parseTokens.readScript]
  refine tracks_skipNewlines fun w₁ h₁ => tracks_left ?_
  have hscript := (tracksBlocks tape maxNesting).script w₁ []
    (tape.tokens.length - (w₁.place + 1) + 1) (by omega)
  simp only [List.nil_append, bind_pure] at hscript
  exact hscript.mono h₁

theorem parseTokens_tape (tape : Tape) :
    parseTokens tape.tokens = (parseTokens.readScript (tape.cursor 0)).map (·.1) := by
  have htokens : tape.tokens = (tape.cursor 0).tokens := Tape.tokens_drop tape.length_pos
  rw [htokens]
  rfl

/-! ### All parts -/

/-- The parts of the parser that pass over tokens without building a tree, with the readers that do the
same, and the number of tokens that each passes over at least where it succeeds. -/
inductive TokenPart (tape : Tape) : (least : Nat) → {α : Type} → Walk α → Reader α → Prop where
  | advance : TokenPart tape 0 (Walk.advance tape) Reader.advance
  | accept {kind : TokenKind} (hkind : kind.Fixed) :
      TokenPart tape 0 (Walk.accept tape kind) (Reader.accept kind)
  | expect {kind : TokenKind} (hkind : kind.Fixed) (what : String) :
      TokenPart tape 1 (Walk.expect tape kind what) (Reader.expect kind what)
  | identifier : TokenPart tape 1 (Walk.identifier tape) Reader.identifier
  | skipNewlines : TokenPart tape 0 (Walk.skipNewlines tape) Reader.skipNewlines
  | endOfStatement : TokenPart tape 0 (Walk.endOfStatement tape) Reader.endOfStatement

/-- The parts that read expressions, with the readers that do the same when a number of tokens is left,
the current one among them, and the number of tokens that each passes over at least. -/
inductive ExpressionPart (tape : Tape) (inner : List Walk.Rung) (level : Level) :
    (least : Nat) → {α : Type} → Walk α → (Nat → Reader α) → Prop where
  | operand (rank : Rank) :
      ExpressionPart tape inner level 1 (Walk.operand tape inner rank) fun _ => level.operand rank
  | links (rank : Rank) (before : Expr) :
      ExpressionPart tape inner level 0 (Walk.links tape inner rank before)
        fun _ => level.readLinks rank before
  | postfixed (target : Expr) :
      ExpressionPart tape inner level 1 (Walk.postfixed tape inner target) fun _ => level.postfixed target
  | postfixes (target : Expr) :
      ExpressionPart tape inner level 0 (Walk.postfixes tape inner target)
        fun _ => level.readPostfixes target
  | expression : ExpressionPart tape inner level 1 (Walk.expression tape inner) fun _ => level.expression
  | items (close : Mark) (what : String) (read : List Expr) :
      ExpressionPart tape inner level 1 (Walk.items tape inner close what read)
        fun room => do return read ++ (← level.items close what room)
  | arguments : ExpressionPart tape inner level 1 (Walk.arguments tape inner) fun _ => level.arguments
  | bound (close : Mark) :
      ExpressionPart tape inner level 0 (Walk.bound tape inner close) fun _ => level.bound close
  | indexOrSlice (target : Expr) :
      ExpressionPart tape inner level 1 (Walk.indexOrSlice tape inner target)
        fun _ => level.indexOrSlice target
  | listDisplay :
      ExpressionPart tape inner level 1 (Walk.listDisplay tape inner) fun _ => level.listDisplay
  | primary : ExpressionPart tape inner level 1 (Walk.primary tape inner) fun _ => level.primary
  | readPostfixed (target : Expr) :
      ExpressionPart tape inner level 1 (Walk.readPostfixed tape inner target)
        fun _ => level.readPostfixed target
  | sign : ExpressionPart tape inner level 1 (Walk.sign tape inner) fun _ => level.sign
  | product : ExpressionPart tape inner level 1 (Walk.product tape inner) fun _ => level.product
  | sum : ExpressionPart tape inner level 1 (Walk.sum tape inner) fun _ => level.sum
  | comparison : ExpressionPart tape inner level 1 (Walk.comparison tape inner) fun _ => level.comparison
  | negation : ExpressionPart tape inner level 1 (Walk.negation tape inner) fun _ => level.negation
  | conjunction :
      ExpressionPart tape inner level 1 (Walk.conjunction tape inner) fun _ => level.conjunction
  | simpleStatement :
      ExpressionPart tape inner level 1 (Walk.simpleStatement tape inner) fun _ => level.simpleStatement

/-- The parts that read statements, likewise. A choice looks ahead for its arms. -/
inductive StatementPart (tape : Tape) (inner : List Walk.Rung) (level : Level) :
    (least : Nat) → {α : Type} → Walk α → (Nat → Reader α) → Prop where
  | block (inLoop : Bool) :
      StatementPart tape inner level 1 (Walk.block tape inner inLoop) fun _ => level.block inLoop
  | guarded (inLoop : Bool) :
      StatementPart tape inner level 1 (Walk.guarded tape inner inLoop) fun _ => level.guarded inLoop
  | moreArms (inLoop : Bool) (read : List (Expr × List Stmt)) :
      StatementPart tape inner level 0 (Walk.moreArms tape inner inLoop read)
        fun room => do return Walk.armsBefore read (← level.moreArms inLoop room)
  | choice (inLoop : Bool) :
      StatementPart tape inner level 1 (Walk.choice tape inner inLoop) fun _ => level.choice inLoop
  | act (inLoop : Bool) :
      StatementPart tape inner level 1 (Walk.act tape inner inLoop) fun _ => level.act inLoop
  | statement (inLoop : Bool) :
      StatementPart tape inner level 1 (Walk.statement tape inner inLoop) fun _ => level.statement inLoop
  | endedStatement (inLoop : Bool) :
      StatementPart tape inner level 1 (Walk.endedStatement tape inner inLoop)
        fun _ => level.endedStatement inLoop
  | statements (inLoop : Bool) (read : List Stmt) :
      StatementPart tape inner level 1 (Walk.statements tape inner inLoop read)
        fun room => do return read ++ (← level.statements inLoop room)
  | readBraced (inLoop : Bool) :
      StatementPart tape inner level 1 (Walk.readBraced tape inner inLoop)
        fun _ => level.readBraced inLoop
  | script (read : List Stmt) :
      StatementPart tape inner level 0 (Walk.script tape inner read)
        fun room => do return read ++ (← level.script room)

/-- All parts of the parser, with any number of levels that may be entered. Some may look ahead and go
back. -/
inductive ParserPart (tape : Tape) :
    (looks : Bool) → (least : Nat) → {α : Type} → Walk α → (Nat → Reader α) → Prop where
  | token {least : Nat} {α : Type} {x : Walk α} {r : Reader α} (h : TokenPart tape least x r) :
      ParserPart tape false least x fun _ => r
  | expression {least : Nat} {α : Type} {x : Walk α} {r : Nat → Reader α} (n : Nat)
      (h : ExpressionPart tape (ladder tape n) (within n) least x r) : ParserPart tape false least x r
  | statement {least : Nat} {α : Type} {x : Walk α} {r : Nat → Reader α} (n : Nat)
      (h : StatementPart tape (ladder tape n) (within n) least x r) : ParserPart tape true least x r
  | program : ParserPart tape true 0 (Walk.program tape) fun _ => parseTokens.readScript

theorem TokenPart.tracks {α : Type} {least : Nat} {x : Walk α} {r : Reader α}
    (h : TokenPart tape least x r) (w : Walker) : Tracks tape looks w x r (w.place + least) := by
  cases h with
  | advance => exact tracks_of_bind_pure (tracks_advance fun w₁ h₁ _ => tracks_pure h₁)
  | accept hkind =>
      exact tracks_of_bind_pure (tracks_accept hkind (fun _ w₁ h₁ => tracks_pure (Nat.le_of_succ_le h₁))
        fun _ => tracks_pure (Nat.le_refl _))
  | expect hkind what => exact tracks_expect hkind what
  | identifier => exact tracks_identifier
  | skipNewlines => exact tracks_of_bind_pure (tracks_skipNewlines fun w₁ h₁ => tracks_pure h₁)
  | endOfStatement => exact tracks_endOfStatement

theorem ExpressionPart.tracks {α : Type} {least : Nat} {x : Walk α} {r : Nat → Reader α}
    (h : ExpressionPart tape (ladder tape n) (within n) least x r) (w : Walker) :
    Tracks tape looks w x (r (tape.tokens.length - w.place)) (w.place + least) := by
  have hexpr := tracksExpressions tape looks n
  cases h with
  | operand rank => exact hexpr.operand rank w
  | links rank before => exact hexpr.links rank before w
  | postfixed target => exact hexpr.postfixed target w
  | postfixes target => exact hexpr.postfixes target w
  | expression => exact hexpr.expression w
  | items close what read => exact hexpr.items w close what read _ (Nat.le_refl _)
  | arguments => exact hexpr.arguments w
  | bound close => exact hexpr.bound w close
  | indexOrSlice target => exact hexpr.indexOrSlice w target
  | listDisplay => exact hexpr.listDisplay w
  | primary => exact hexpr.primary w
  | readPostfixed target => exact hexpr.readPostfixed w target
  | sign => exact hexpr.sign w
  | product => exact hexpr.product w
  | sum => exact hexpr.sum w
  | comparison => exact hexpr.comparison w
  | negation => exact hexpr.negation w
  | conjunction => exact hexpr.conjunction w
  | simpleStatement => exact tracks_simpleStatement n w

theorem StatementPart.tracks {α : Type} {least : Nat} {x : Walk α} {r : Nat → Reader α}
    (h : StatementPart tape (ladder tape n) (within n) least x r) (w : Walker) :
    Tracks tape true w x (r (tape.tokens.length - w.place)) (w.place + least) := by
  have hblocks := tracksBlocks tape n
  cases h with
  | block inLoop => exact hblocks inLoop w
  | guarded inLoop => exact hblocks.guarded inLoop w
  | moreArms inLoop read => exact hblocks.moreArms inLoop w read _ (Nat.le_refl _)
  | choice inLoop => exact hblocks.choice inLoop w
  | act inLoop => exact hblocks.act inLoop w
  | statement inLoop => exact hblocks.statement inLoop w
  | endedStatement inLoop => exact hblocks.endedStatement inLoop w
  | statements inLoop read => exact hblocks.statements inLoop w read _ (Nat.le_refl _)
  | readBraced inLoop => exact hblocks.readBraced inLoop w
  | script read => exact hblocks.script w read _ (Nat.le_refl _)

theorem ParserPart.tracks {α : Type} {least : Nat} {x : Walk α} {r : Nat → Reader α}
    (h : ParserPart tape looks least x r) (w : Walker) :
    Tracks tape looks w x (r (tape.tokens.length - w.place)) (w.place + least) := by
  cases h with
  | token h => exact h.tracks w
  | expression n h => exact h.tracks w
  | statement n h => exact h.tracks w
  | program => exact tracks_program w

/-- On every tape the parser comes to an end, and to what the readers come to. So does each part of it
from each place on the tape. The parts of a statement pass over a token at least, and so do expressions
and their parts. A part moves on a route: it stays on the tape, and goes back only from a look ahead over
ends of lines, to the place at which the look began. Parts of expressions never go back. -/
theorem parser_ends_on_every_tape (tape : Tape) :
    (∃ result place moves, Walk.program tape ⟨0, []⟩ = .some (result, ⟨place, moves⟩) ∧
      Route tape true 0 moves place ∧ parseTokens tape.tokens = result) ∧
    (∀ looks least, ∀ {α : Type} (x : Walk α) (r : Nat → Reader α), ParserPart tape looks least x r →
      ∀ w : Walker, w.place < tape.tokens.length → ∃ result place moves,
        x w = .some (result, ⟨place, w.moves ++ moves⟩) ∧ Route tape looks w.place moves place ∧
        r (tape.tokens.length - w.place) (tape.cursor w.place) =
          result.map (·, tape.cursor place) ∧
        ∀ a, result = .ok a → w.place + least ≤ place) ∧
    (∀ looks place moves stop, Route tape looks place moves stop → place < tape.tokens.length →
      ∀ q ∈ places place moves, q < tape.tokens.length) ∧
    ∀ place moves stop, Route tape false place moves stop →
      moves = List.replicate (stop - place) .ahead := by
  refine ⟨?_, fun looks least _ x r hpart w => hpart.tracks w,
    fun looks place moves stop hroute hplace q => hroute.lt_of_mem_places hplace,
    fun place moves stop hroute => hroute.eq_replicate⟩
  obtain ⟨result, place, moves, hwalked, hroute, hread, -⟩ := tracks_program ⟨0, []⟩ tape.length_pos
  refine ⟨result, place, moves, hwalked, hroute, ?_⟩
  rw [parseTokens_tape, hread]
  cases result <;> rfl

end PromptWeave.Script
