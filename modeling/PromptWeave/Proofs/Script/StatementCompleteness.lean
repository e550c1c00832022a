import PromptWeave.Proofs.Script.ParserCompleteness

/-!
# Statements in the grammar are read

What holds of phrases holds of statements, blocks and the arms of choices: where tokens make them up,
their readers return what they stand for, or fail because there are fewer levels than tokens. A reader
of a choice looks past the ends of lines for more arms, so what may stand behind a statement says what
is found there.
-/
namespace PromptWeave.Script

open Reader Level

/-! ### Behind statements -/

/-- Whether a statement may end here: no expression goes on, and no arm of a choice follows. -/
structure Cursor.Rests (c : Cursor) : Prop where
  current : c.current.kind = .newline ∨ c.current.kind = .mark .rightBrace ∨ c.current.kind = .eof
  ahead : ∃ d, skipNewlines c = .ok ((), d) ∧ d.current.kind ≠ .keyword .elifWord ∧
    d.current.kind ≠ .keyword .elseWord

/-- Whether a body ends here. -/
def Cursor.Stops (c : Cursor) : Prop := c.current.kind = .mark .rightBrace ∨ c.current.kind = .eof

theorem Cursor.Rests.tightness_eq {c : Cursor} (h : c.Rests) : c.current.kind.tightness = 0 := by
  rcases h.current with h | h | h <;> rw [h] <;> rfl

/-- The start of a body or its end is no end of a line and begins no arm. -/
theorem Body.start {inLoop : Bool} {ts : List Token} {body : List Stmt} {c d : Cursor}
    (h : Body inLoop ts body) (hpass : c.Passes ts d) (hd : d.Stops) :
    c.current.kind ≠ .newline ∧ c.current.kind ≠ .keyword .elifWord ∧
      c.current.kind ≠ .keyword .elseWord := by
  cases ts with
  | nil =>
      obtain rfl := Cursor.passes_nil.1 hpass
      rcases hd with hd | hd <;> rw [hd] <;> exact ⟨nofun, nofun, nofun⟩
  | cons t ts =>
      have htrails := h.first
      rw [hpass.current_eq]
      refine ⟨?_, ?_, ?_⟩ <;>
      · intro hk
        rw [hk] at htrails
        cases htrails

/-- A statement may end before ends of lines and a body behind them. -/
theorem rests_of_gap {gap : List Token} {c d : Cursor} {line : Nat} (hgap : Newlines gap)
    (hpass : c.Passes (⟨line, .newline⟩ :: gap) d) (hd : d.current.kind ≠ .newline ∧
      d.current.kind ≠ .keyword .elifWord ∧ d.current.kind ≠ .keyword .elseWord) : c.Rests where
  current := .inl (by rw [hpass.current_eq])
  ahead := ⟨d, skipNewlines_apply (newlines_cons.2 ⟨rfl, hgap⟩) hpass hd.1, hd.2⟩

theorem Cursor.Stops.skip {c : Cursor} (h : c.Stops) : skipNewlines c = .ok ((), c) := by
  refine skipNewlines_apply newlines_nil (Cursor.passes_nil.2 rfl) ?_
  rcases h with h | h <;> rw [h] <;> nofun

/-- A statement may end where its body does. -/
theorem Cursor.Stops.rests {c : Cursor} (h : c.Stops) : c.Rests where
  current := .inr h
  ahead := by
    refine ⟨c, h.skip, ?_⟩
    rcases h with h | h <;> rw [h] <;> exact ⟨nofun, nofun⟩

/-! ### What statements lead their readers to -/

/-- What a statement leads its reader to where it may end. -/
def SentenceLeads (inLoop : Bool) (ts : List Token) (act : Act) : Prop :=
  ∀ (n : Nat) (c d : Cursor), c.Passes ts d → d.Rests →
    Attains (n < ts.length) ((within n).act inLoop c) (.ok (act, d))

/-- What an expression and a block lead their reader to. -/
def GuardedLeads (inLoop : Bool) (ts : List Token) (arm : Expr × List Stmt) : Prop :=
  ∀ (n : Nat) (c d : Cursor), c.Passes ts d →
    Attains (n < ts.length) ((within n).guarded inLoop c) (.ok (arm, d))

/-- What further arms lead their reader to where a statement may end. -/
def MoreArmsLead (inLoop : Bool) (ts : List Token) (more : Arms) : Prop :=
  ∀ (n room : Nat) (c d : Cursor), c.Passes ts d → d.Rests → ts.length < room →
    Attains (n < ts.length) ((within n).moreArms inLoop room c) (.ok (more, d))

/-- What a block leads its reader to. -/
def BlockLeads (inLoop : Bool) (ts : List Token) (body : List Stmt) : Prop :=
  ∀ (n : Nat) (c d : Cursor), c.Passes ts d →
    Attains (n < ts.length) ((within n).block inLoop c) (.ok (body, d))

/-- Whether a loop reads one statement after the other up to a token that stops it. -/
def Level.Loops (inner : Level) (inLoop : Bool) (loop : Nat → Reader (List Stmt)) : Prop :=
  ∀ room c, c.current.kind.trails = false → loop (room + 1) c =
    (do let first ← inner.endedStatement inLoop; return first :: (← loop room) : Reader (List Stmt)) c

theorem loops_statements (inner : Level) (inLoop : Bool) :
    inner.Loops inLoop (inner.statements inLoop) := by
  intro room c hc
  rw [statements, peek_bind]
  generalize c.current.kind = k at hc ⊢
  split
  case h_3 => rfl
  all_goals cases hc

theorem loops_script (inner : Level) : inner.Loops false inner.script := by
  intro room c hc
  rw [script, peek_bind]
  generalize c.current.kind = k at hc ⊢
  split
  case h_2 => rfl
  all_goals cases hc

/-- No statement is read at the end of the script. -/
theorem Level.script_eof {c : Cursor} (inner : Level) (room : Nat) (hc : c.current.kind = .eof) :
    inner.script room c = .ok ([], c) := by
  cases room with
  | zero => rfl
  | succ room =>
      rw [script, peek_bind, hc]
      rfl

/-- What a body leads a loop of statements to that ends with `last` where the body does. -/
def BodyLeads (inLoop : Bool) (ts : List Token) (body : List Stmt) : Prop :=
  ∀ (n room : Nat) (loop : Nat → Reader (List Stmt)) (c d last : Cursor),
    (within n).Loops inLoop loop → (∀ room, loop (room + 1) d = .ok ([], last)) →
    c.Passes ts d → d.Stops → ts.length < room →
    Attains (n < ts.length) (loop room c) (.ok (body, last))

/-! ### Expressions as statements, and assignments -/

section Simple

variable {inLoop : Bool} {ts us : List Token} {target value e : Expr} {c d : Cursor} {n line : Nat}

/-- The word of another statement is no expression. -/
theorem act_eq_simpleStatement (inner : Level) (hc : 0 < c.current.kind.reach) :
    inner.act inLoop c = inner.simpleStatement c := by
  rw [act, peek_bind]
  generalize c.current.kind = k at hc ⊢
  split
  case h_6 => rfl
  all_goals cases hc

theorem reach_pos (h : Phrase .expression (kinds ts) e) (hpass : c.Passes ts d) :
    0 < c.current.kind.reach := by
  obtain ⟨k, ks, hks, hk⟩ := h.begins
  obtain ⟨t, vs, rfl, rfl, -⟩ := List.map_eq_cons_iff.1 hks
  rwa [hpass.current_eq]

theorem expression_apply (h : Phrase .expression (kinds ts) e) (hpass : c.Passes ts d)
    (hd : d.current.kind.tightness = 0) :
    Attains (n < ts.length) ((within n).expression c) (.ok (e, d)) := by
  rw [← length_kinds ts]
  exact h.leads.expression_within hpass.reaches hd

theorem SentenceLeads.eval (h : Phrase .expression (kinds ts) e) :
    SentenceLeads inLoop ts (.eval e) := by
  intro n c d hpass hd
  rw [act_eq_simpleStatement _ (reach_pos h hpass)]
  refine (expression_apply h hpass hd.tightness_eq).bind (.inl ?_)
  rw [peek_bind]
  rcases hd.current with hk | hk | hk <;> rw [hk] <;> rfl

/-- The part of an assignment behind its mark. -/
theorem assigned (act : Expr → Act) {k : TokenKind} (h : Place target)
    (hvalue : Phrase .expression (kinds us) value) (hc : c.Passes (⟨line, k⟩ :: us) d) (hd : d.Rests) :
    Attains (n < us.length) ((do
      let _ ← advance
      unless target.isPlace do
        fail .badTarget
      return act (← (within n).expression) : Reader Act) c) (.ok (act value, d)) := by
  obtain ⟨m, hm, hus⟩ := Cursor.passes_cons_iff.1 hc
  refine .step (advance_apply hm.next) ?_
  rw [if_pos (isPlace_iff.2 h)]
  exact (expression_apply hvalue hus hd.tightness_eq).bind .same

/-- An assignment to a place, of a value or of what an operator makes of the old value and another. -/
theorem SentenceLeads.store {mark : Mark} {act : Expr → Act} (h : Phrase .expression (kinds ts) target)
    (hplace : Place target) (hvalue : Phrase .expression (kinds us) value)
    (hact : mark = .assign ∧ act = .assign target ∨ ∃ op, Updates mark op ∧ act = .update target op) :
    SentenceLeads inLoop (ts ++ ⟨line, .mark mark⟩ :: us) (act value) := by
  intro n c d hpass hd
  obtain ⟨m, hts, hrest⟩ := Cursor.passes_append_iff.1 hpass
  have hend : m.current.kind = .mark mark := by rw [hrest.current_eq]
  have htight : m.current.kind.tightness = 0 := by
    rw [hend]
    rcases hact with ⟨rfl, -⟩ | ⟨_, ⟨⟩, -⟩ <;> rfl
  have hlength : (ts ++ ⟨line, .mark mark⟩ :: us).length = ts.length + 1 + us.length := by simp; omega
  rw [act_eq_simpleStatement _ (reach_pos h hts)]
  refine ((expression_apply h hts htight).mono (by omega)).bind ?_
  rw [peek_bind, hend]
  have hassigned : Attains (n < (ts ++ ⟨line, .mark mark⟩ :: us).length) _ _ :=
    (assigned act hplace hvalue hrest hd (n := n)).mono (by omega)
  rcases hact with ⟨rfl, rfl⟩ | ⟨_, ⟨⟩, rfl⟩ <;> exact hassigned

end Simple

/-! ### Statements with blocks -/

section Compound

variable {inLoop : Bool} {ts us gap : List Token} {e : Expr} {arm loop : Expr × List Stmt}
  {body : List Stmt} {more : Arms} {line : Nat}

theorem GuardedLeads.mk (h : Phrase .expression (kinds ts) e) (hbody : Block inLoop us body)
    (hread : BlockLeads inLoop us body) : GuardedLeads inLoop (ts ++ us) (e, body) := by
  intro n c d hpass
  obtain ⟨m, hts, hus⟩ := Cursor.passes_append_iff.1 hpass
  have hlength : (ts ++ us).length = ts.length + us.length := List.length_append
  have htight : m.current.kind.tightness = 0 := by
    cases hbody with
    | mk _ _ =>
        rw [hus.current_eq]
        rfl
  refine ((expression_apply h hts htight).mono (by omega)).bind ?_
  exact ((hread n m d hus).mono (by omega)).bind .same

theorem MoreArmsLead.done : MoreArmsLead inLoop [] .done := by
  intro n room c d hpass hd hroom
  obtain rfl := Cursor.passes_nil.1 hpass
  obtain ⟨m, hskip, helif, helse⟩ := hd.ahead
  cases room with
  | zero => cases hroom
  | succ room =>
      rw [moreArms]
      refine .step (b := c) rfl (.step hskip ?_)
      refine .step (accept_apply_of_ne (.keyword .elifWord) helif) ?_
      exact .step (accept_apply_of_ne (.keyword .elseWord) helse) .same

theorem MoreArmsLead.elif (hgap : Newlines gap) (h : GuardedLeads inLoop ts arm)
    (h' : MoreArmsLead inLoop us more) :
    MoreArmsLead inLoop (gap ++ ⟨line, .keyword .elifWord⟩ :: (ts ++ us))
      (.when arm.1 arm.2 more) := by
  intro n room c d hpass hd hroom
  obtain ⟨m₁, hskip, hrest⟩ := Cursor.passes_append_iff.1 hpass
  obtain ⟨m₂, hword, hrest'⟩ := Cursor.passes_cons_iff.1 hrest
  obtain ⟨m₃, hts, hus⟩ := Cursor.passes_append_iff.1 hrest'
  have hlength : (gap ++ ⟨line, .keyword .elifWord⟩ :: (ts ++ us)).length =
    gap.length + 1 + ts.length + us.length := by simp; omega
  have hline : m₁.current.kind ≠ .newline := by rw [hword.current_eq]; nofun
  cases room with
  | zero => omega
  | succ room =>
      rw [moreArms]
      refine .step (b := c) rfl (.step (skipNewlines_apply hgap hskip hline) ?_)
      refine .step (accept_apply (.keyword .elifWord) hword.next) ?_
      refine ((h n m₂ m₃ hts).mono (by omega)).bind ?_
      exact ((h' n room m₃ d hus hd (by omega)).mono (by omega)).bind .same

theorem MoreArmsLead.elseIf {ifLine : Nat} (hgap : Newlines gap) (h : GuardedLeads inLoop ts arm)
    (h' : MoreArmsLead inLoop us more) :
    MoreArmsLead inLoop (gap ++ ⟨line, .keyword .elseWord⟩ :: ⟨ifLine, .keyword .ifWord⟩ :: (ts ++ us))
      (.when arm.1 arm.2 more) := by
  intro n room c d hpass hd hroom
  obtain ⟨m₁, hskip, hrest⟩ := Cursor.passes_append_iff.1 hpass
  obtain ⟨m₂, hword, hrest'⟩ := Cursor.passes_cons_iff.1 hrest
  obtain ⟨m₃, hif, hrest''⟩ := Cursor.passes_cons_iff.1 hrest'
  obtain ⟨m₄, hts, hus⟩ := Cursor.passes_append_iff.1 hrest''
  have hlength :
    (gap ++ ⟨line, .keyword .elseWord⟩ :: ⟨ifLine, .keyword .ifWord⟩ :: (ts ++ us)).length =
    gap.length + 2 + ts.length + us.length := by simp; omega
  have hline : m₁.current.kind ≠ .newline := by rw [hword.current_eq]; nofun
  have helif : m₁.current.kind ≠ .keyword .elifWord := by rw [hword.current_eq]; nofun
  cases room with
  | zero => omega
  | succ room =>
      rw [moreArms]
      refine .step (b := c) rfl (.step (skipNewlines_apply hgap hskip hline) ?_)
      refine .step (accept_apply_of_ne (.keyword .elifWord) helif) ?_
      refine .step (accept_apply (.keyword .elseWord) hword.next) ?_
      refine .step (accept_apply (.keyword .ifWord) hif.next) ?_
      refine ((h n m₃ m₄ hts).mono (by omega)).bind ?_
      exact ((h' n room m₄ d hus hd (by omega)).mono (by omega)).bind .same

theorem MoreArmsLead.otherwise (hgap : Newlines gap) (hbody : Block inLoop ts body)
    (h : BlockLeads inLoop ts body) :
    MoreArmsLead inLoop (gap ++ ⟨line, .keyword .elseWord⟩ :: ts) (.otherwise body) := by
  intro n room c d hpass hd hroom
  obtain ⟨m₁, hskip, hrest⟩ := Cursor.passes_append_iff.1 hpass
  obtain ⟨m₂, hword, hts⟩ := Cursor.passes_cons_iff.1 hrest
  have hline : m₁.current.kind ≠ .newline := by rw [hword.current_eq]; nofun
  have helif : m₁.current.kind ≠ .keyword .elifWord := by rw [hword.current_eq]; nofun
  have hif : m₂.current.kind ≠ .keyword .ifWord := by
    cases hbody with
    | mk _ _ =>
        rw [hts.current_eq]
        nofun
  cases room with
  | zero => cases hroom
  | succ room =>
      rw [moreArms]
      refine .step (b := c) rfl (.step (skipNewlines_apply hgap hskip hline) ?_)
      refine .step (accept_apply_of_ne (.keyword .elifWord) helif) ?_
      refine .step (accept_apply (.keyword .elseWord) hword.next) ?_
      refine .step (accept_apply_of_ne (.keyword .ifWord) hif) ?_
      exact ((h n m₂ d hts).mono (by simp; omega)).bind .same

theorem SentenceLeads.choose (h : GuardedLeads inLoop ts arm) (h' : MoreArmsLead inLoop us more) :
    SentenceLeads inLoop (⟨line, .keyword .ifWord⟩ :: (ts ++ us))
      (.choose (.when arm.1 arm.2 more)) := by
  intro n c d hpass hd
  obtain ⟨m₁, hword, hrest⟩ := Cursor.passes_cons_iff.1 hpass
  obtain ⟨m₂, hts, hus⟩ := Cursor.passes_append_iff.1 hrest
  have hlength : (⟨line, .keyword .ifWord⟩ :: (ts ++ us) : List Token).length =
    1 + ts.length + us.length := by simp; omega
  have hroom := hus.reaches.length_le
  rw [length_kinds] at hroom
  rw [act, peek_bind, hword.next.current_eq]
  refine .step (advance_apply hword.next) ?_
  refine ((h n m₁ m₂ hts).mono (by omega)).bind (.step (left_apply m₂) ?_)
  exact ((h' n _ m₂ d hus hd (by omega)).mono (by omega)).bind .same

/-- A loop is read as an expression and a block. -/
theorem guarded_map (inner : Level) (f : Expr → List Stmt → Act) :
    (do let e ← inner.expression; return f e (← inner.block inLoop) : Reader Act) =
      (fun loop => f loop.1 loop.2) <$> inner.guarded inLoop := by
  simp [guarded]

theorem SentenceLeads.forEach {nameLine inLine : Nat} {name : String} (h : GuardedLeads true ts loop) :
    SentenceLeads inLoop (⟨line, .keyword .forWord⟩ :: ⟨nameLine, .name name⟩ ::
      ⟨inLine, .keyword .inWord⟩ :: ts) (.forEach name loop.1 loop.2) := by
  intro n c d hpass hd
  obtain ⟨m₁, hword, hrest⟩ := Cursor.passes_cons_iff.1 hpass
  obtain ⟨m₂, hname, hrest'⟩ := Cursor.passes_cons_iff.1 hrest
  obtain ⟨m₃, hin, hts⟩ := Cursor.passes_cons_iff.1 hrest'
  rw [act, peek_bind, hword.next.current_eq]
  refine .step (advance_apply hword.next) (.step (identifier_apply hname.next) ?_)
  refine .step (expect_apply (.keyword .inWord) _ hin.next) ?_
  rw [guarded_map]
  exact ((h n m₃ d hts).map _).mono (by simp; omega)

theorem SentenceLeads.whileTrue (h : GuardedLeads true ts loop) :
    SentenceLeads inLoop (⟨line, .keyword .whileWord⟩ :: ts) (.whileTrue loop.1 loop.2) := by
  intro n c d hpass hd
  obtain ⟨m, hword, hts⟩ := Cursor.passes_cons_iff.1 hpass
  rw [act, peek_bind, hword.next.current_eq]
  refine .step (advance_apply hword.next) ?_
  rw [guarded_map]
  exact ((h n m d hts).map _).mono (by simp; omega)

theorem SentenceLeads.breakLoop : SentenceLeads true [⟨line, .keyword .breakWord⟩] .breakLoop := by
  intro n c d hpass _
  rw [act, peek_bind, hpass.next.current_eq]
  exact .step (advance_apply hpass.next) .same

theorem SentenceLeads.continueLoop :
    SentenceLeads true [⟨line, .keyword .continueWord⟩] .continueLoop := by
  intro n c d hpass _
  rw [act, peek_bind, hpass.next.current_eq]
  exact .step (advance_apply hpass.next) .same

/-! ### Blocks -/

theorem BlockLeads.mk {endLine : Nat} (hgap : Newlines gap) (hbody : Body inLoop ts body)
    (h : BodyLeads inLoop ts body) :
    BlockLeads inLoop
      (⟨line, .mark .leftBrace⟩ :: (gap ++ (ts ++ [⟨endLine, .mark .rightBrace⟩]))) body := by
  intro n c d hpass
  obtain ⟨m₁, hopen, hrest⟩ := Cursor.passes_cons_iff.1 hpass
  obtain ⟨m₂, hskip, hrest'⟩ := Cursor.passes_append_iff.1 hrest
  obtain ⟨m₃, hts, hclose⟩ := Cursor.passes_append_iff.1 hrest'
  have hlength : (⟨line, .mark .leftBrace⟩ :: (gap ++ (ts ++ [⟨endLine, .mark .rightBrace⟩])) :
    List Token).length = gap.length + ts.length + 2 := by simp; omega
  have hstops : m₃.Stops := .inl (by rw [hclose.next.current_eq])
  have hstart := hbody.start hts hstops
  have hroom := hts.reaches.length_le
  rw [length_kinds] at hroom
  cases n with
  | zero => exact .inr ⟨by omega, c.current.line, rfl⟩
  | succ n =>
      refine .step (expect_apply (.mark .leftBrace) _ hopen.next) ?_
      refine .step (skipNewlines_apply hgap hskip hstart.1) (.step (left_apply m₂) ?_)
      have hlast (room : Nat) : (within n).statements inLoop (room + 1) m₃ = .ok ([], d) := by
        rw [statements, peek_bind, hclose.next.current_eq]
        exact bind_of_ok (advance_apply hclose.next)
      exact (h n _ _ m₂ m₃ d (loops_statements _ inLoop) hlast hts hstops (by omega)).mono (by omega)

end Compound

/-! ### Bodies -/

section Bodies

variable {inLoop : Bool} {t : Token} {ts us gap : List Token} {act : Act} {rest : List Stmt}
  {line : Nat} {c m d : Cursor} {n : Nat}

theorem endOfStatement_apply (h : c.Next .newline d) : endOfStatement c = .ok ((), d) := by
  rw [endOfStatement, peek_bind, h.current_eq]
  exact bind_of_ok (advance_apply h)

theorem Cursor.Stops.endOfStatement (h : c.Stops) : endOfStatement c = .ok ((), c) := by
  rw [Reader.endOfStatement, peek_bind]
  rcases h with h | h <;> rw [h] <;> rfl

theorem SentenceLeads.ended (h : SentenceLeads inLoop (t :: ts) act) (hpass : c.Passes (t :: ts) m)
    (hm : m.Rests) {m' : Cursor} (hend : endOfStatement m = .ok ((), m'))
    (hskip : skipNewlines m' = .ok ((), d)) :
    Attains (n < (t :: ts).length) ((within n).endedStatement inLoop c) (.ok (.mk t.line act, d)) := by
  refine Attains.bind ?_ (.step hend (.step hskip .same))
  refine .step (b := t.line) ?_ ((h n c m hpass hm).bind .same)
  rw [← hpass.current_eq]
  rfl

theorem BodyLeads.none : BodyLeads inLoop [] [] := by
  intro n room loop c d last _ hlast hpass _ hroom
  obtain rfl := Cursor.passes_nil.1 hpass
  cases room with
  | zero => cases hroom
  | succ room => exact .inl (hlast room)

theorem BodyLeads.last (hsentence : Sentence inLoop (t :: ts) act)
    (h : SentenceLeads inLoop (t :: ts) act) :
    BodyLeads inLoop (t :: ts) [.mk t.line act] := by
  intro n room loop c d last hloop hlast hpass hd hroom
  obtain _ | _ | room := room
  · cases hroom
  · simp at hroom
  have hfirst := (Body.last hsentence).first
  rw [← hpass.current_eq] at hfirst
  rw [hloop _ _ hfirst]
  refine (h.ended hpass hd.rests hd.endOfStatement hd.skip).bind ?_
  exact .step (hlast room) .same

theorem BodyLeads.more (hsentence : Sentence inLoop (t :: ts) act)
    (h : SentenceLeads inLoop (t :: ts) act) (hgap : Newlines gap)
    (hrest : Body inLoop us rest) (h' : BodyLeads inLoop us rest) :
    BodyLeads inLoop (t :: (ts ++ ⟨line, .newline⟩ :: (gap ++ us))) (.mk t.line act :: rest) := by
  intro n room loop c d last hloop hlast hpass hd hroom
  have hsplit : c.Passes ((t :: ts) ++ ⟨line, .newline⟩ :: (gap ++ us)) d := hpass
  obtain ⟨m₁, hts, hbehind⟩ := Cursor.passes_append_iff.1 hsplit
  obtain ⟨m₂, hline, hbehind'⟩ := Cursor.passes_cons_iff.1 hbehind
  obtain ⟨m₃, hskip, hus⟩ := Cursor.passes_append_iff.1 hbehind'
  have hlength : (t :: (ts ++ ⟨line, .newline⟩ :: (gap ++ us))).length =
    (t :: ts).length + 1 + gap.length + us.length := by simp; omega
  have hfirst := (Body.last hsentence).first
  rw [← hts.current_eq] at hfirst
  have hstart := hrest.start hus hd
  have hrests : m₁.Rests := rests_of_gap hgap (hline.cons hskip) hstart
  cases room with
  | zero => cases hroom
  | succ room =>
      rw [hloop _ _ hfirst]
      have hended : Attains (n < (t :: ts).length) ((within n).endedStatement inLoop c)
          (.ok (_, m₃)) :=
        h.ended hts hrests (endOfStatement_apply hline.next) (skipNewlines_apply hgap hskip hstart.1)
      refine (hended.mono (by omega)).bind ?_
      exact ((h' n room loop m₃ d last hloop hlast hus hd (by omega)).mono (by omega)).bind .same

end Bodies

/-! ### All statements -/

mutual

theorem Sentence.leads {inLoop : Bool} {ts : List Token} {act : Act} :
    Sentence inLoop ts act → SentenceLeads inLoop ts act
  | .eval h => .eval h
  | .assign h hplace hvalue => .store h hplace hvalue (.inl ⟨rfl, rfl⟩)
  | .update h hplace hop hvalue => .store h hplace hvalue (.inr ⟨_, hop, rfl⟩)
  | .choose h h' => .choose h.leads h'.leads
  | .forEach h => .forEach h.leads
  | .whileTrue h => .whileTrue h.leads
  | .breakLoop => .breakLoop
  | .continueLoop => .continueLoop

theorem Guarded.leads {inLoop : Bool} {ts : List Token} {arm : Expr × List Stmt} :
    Guarded inLoop ts arm → GuardedLeads inLoop ts arm
  | .mk h hbody => .mk h hbody hbody.leads

theorem MoreArms.leads {inLoop : Bool} {ts : List Token} {more : Arms} :
    MoreArms inLoop ts more → MoreArmsLead inLoop ts more
  | .done => .done
  | .elif hgap h h' => .elif hgap h.leads h'.leads
  | .elseIf hgap h h' => .elseIf hgap h.leads h'.leads
  | .otherwise hgap hbody => .otherwise hgap hbody hbody.leads

theorem Block.leads {inLoop : Bool} {ts : List Token} {body : List Stmt} :
    Block inLoop ts body → BlockLeads inLoop ts body
  | .mk hgap hbody => .mk hgap hbody hbody.leads

theorem Body.leads {inLoop : Bool} {ts : List Token} {body : List Stmt} :
    Body inLoop ts body → BodyLeads inLoop ts body
  | .none => .none
  | .last h => .last h h.leads
  | .more h hgap hrest => .more h h.leads hgap hrest hrest.leads

end

end PromptWeave.Script
