import PromptWeave.Proofs.Script.Cursor

/-!
# What is in the grammar the parser reads

Where tokens make up a phrase, its reader returns what they stand for, or it fails because the phrase
is nested too deeply. The latter needs a phrase of many tokens: each level that is entered has a token
of its own. Where phrases are chains, a part of a chain leaves its reader amid the chain with some
levels used up, so what is shown of phrases says how their readers go on behind them.
-/
namespace PromptWeave.Script

open Reader

/-- A reading `x` comes to the same as `y`, or there are few levels and it fails for that. -/
def Attains {α : Type} (few : Prop) (x y : Except SyntaxError α) : Prop :=
  x = y ∨ few ∧ ∃ line, x = .error ⟨line, .nestedTooDeeply⟩

/-! ### Going on behind what has been read -/

namespace Attains

variable {α β : Type} {few more : Prop} {c d : Cursor}

theorem same {x : Except SyntaxError α} : Attains few x x := .inl rfl

theorem mono {x y : Except SyntaxError α} (h : Attains few x y) (hfew : few → more) :
    Attains more x y := by
  rcases h with h | ⟨h, hline⟩
  · exact .inl h
  · exact .inr ⟨hfew h, hline⟩

theorem trans {x y z : Except SyntaxError α} (h : Attains few x y) (h' : Attains few y z) :
    Attains few x z := by
  rcases h with rfl | h
  · exact h'
  · exact .inr h

/-- No further level may be entered. -/
theorem shut {f : β → Reader α} {y : Except SyntaxError (α × Cursor)} (hfew : few) :
    Attains few ((fail .nestedTooDeeply >>= f) c) y := .inr ⟨hfew, c.current.line, rfl⟩

theorem bind {r : Reader β} {f : β → Reader α} {b : β} {y : Except SyntaxError (α × Cursor)}
    (h : Attains few (r c) (.ok (b, d))) (h' : Attains few (f b d) y) :
    Attains few ((r >>= f) c) y := by
  rcases h with h | ⟨hfew, line, h⟩
  · rwa [bind_apply, h]
  · refine .inr ⟨hfew, line, ?_⟩
    rw [bind_apply, h]
    exact rfl

theorem map {r : Reader β} {b : β} (f : β → α) (h : Attains few (r c) (.ok (b, d))) :
    Attains few ((f <$> r) c) (.ok (f b, d)) := by
  rw [← bind_pure_comp]
  exact h.bind .same

theorem step {r : Reader β} {f : β → Reader α} {b : β} {y : Except SyntaxError (α × Cursor)}
    (h : r c = .ok (b, d)) (h' : Attains few (f b d) y) : Attains few ((r >>= f) c) y :=
  bind (.inl h) h'

end Attains

/-! ### Readers of forms -/

namespace Level

/-- The reader of phrases of a form. -/
def reader (inner : Level) : Form → Reader Expr
  | .chain rank => do inner.readLinks rank (← inner.readOperand rank)
  | .negation => inner.negation
  | .sign => inner.sign
  | .postfixed => do inner.readPostfixes (← inner.primary)
  | .primary => inner.primary

/-- How the reader of a form goes on behind a phrase of the form. -/
def rest (inner : Level) : Form → Expr → Reader Expr
  | .chain rank, e => inner.readLinks rank e
  | .postfixed, e => inner.readPostfixes e
  | _, e => pure e

theorem readOperand_eq (inner : Level) (rank : Rank) :
    inner.readOperand rank = inner.reader rank.operand := by
  cases rank <;> rfl

/-- A reader ends before a token that is not tighter than its form. -/
theorem rest_apply (inner : Level) {form : Form} {e : Expr} {c : Cursor}
    (hc : c.current.kind.tightness ≤ form.tightness) : inner.rest form e c = .ok (e, c) := by
  cases form with
  | chain rank =>
      cases hjoin : rank.join? c.current.kind with
      | none =>
          rw [rest, readLinks, peek_bind, hjoin]
          rfl
      | some join =>
          have htight := (join?_eq_some_iff.1 hjoin).tightness_eq
          have hlt := rank.tightness_lt_operand
          omega
  | postfixed =>
      have hcloses : ¬ opensPostfix c.current.kind = true := by
        intro hopens
        have htight := tightness_of_opensPostfix hopens
        have hform : Form.postfixed.tightness = 6 := rfl
        omega
      rw [rest, readPostfixes, peek_bind, if_neg hcloses]
      rfl
  | _ => rfl

end Level

/-! ### Phrases -/

open Level

theorem Begins.current_ne {n : Nat} {k : TokenKind} {ts : List TokenKind} {c d : Cursor}
    (h : Begins n ts) (hpass : c.Reaches ts d) (hk : k.reach ≤ n) : c.current.kind ≠ k := by
  rintro rfl
  obtain ⟨first, us, rfl, hfirst⟩ := h
  obtain ⟨m, hm, -⟩ := Cursor.reaches_cons_iff.1 hpass
  rw [← hm.current_eq] at hfirst
  omega

/-- What a phrase leads its reader to. With the readers of `n + 1` levels at hand, the reader of its
form passes over the tokens of the phrase and goes on behind them with what they stand for. The tokens
have used up the levels that are missing then, and the readers fail for want of levels only if the
phrase has more tokens than there are levels. -/
structure Leads (form : Form) (ts : List TokenKind) (e : Expr) : Prop where
  phrase : Phrase form ts e
  reads (n : Nat) (c d : Cursor) : c.Reaches ts d → d.current.kind.tightness ≤ form.part.tightness →
    ∃ left ≤ n, n + 1 ≤ left + ts.length ∧
      Attains (n + 1 < ts.length) ((within n).reader form c) ((within left).rest form e d)

namespace Leads

variable {form : Form} {ts us : List TokenKind} {e left right target : Expr}
  {c d : Cursor} {n : Nat}

theorem length_pos (h : Leads form ts e) : 0 < ts.length := h.phrase.begins.length_pos

theorem current_ne {k : TokenKind} (h : Leads form ts e) (hpass : c.Reaches ts d)
    (hk : k.reach ≤ form.tightness) : c.current.kind ≠ k := h.phrase.begins.current_ne hpass hk

/-- Before a token that is not tighter than the form, the phrase is read and no more. -/
theorem reader (h : Leads form ts e) (hpass : c.Reaches ts d)
    (hd : d.current.kind.tightness ≤ form.tightness) :
    Attains (n + 1 < ts.length) ((within n).reader form c) (.ok (e, d)) := by
  obtain ⟨left, -, -, hreads⟩ := h.reads n c d hpass (Nat.le_trans hd form.tightness_le_part)
  rwa [rest_apply _ hd] at hreads

/-- A form whose readers do not go on behind a phrase. -/
theorem of_reader (h : Phrase form ts e) (hrest : ∀ inner : Level, inner.rest form e = pure e)
    (hreads : ∀ n c d, c.Reaches ts d → d.current.kind.tightness ≤ form.part.tightness →
      Attains (n + 1 < ts.length) ((within n).reader form c) (.ok (e, d))) : Leads form ts e where
  phrase := h
  reads n c d hpass hd := by
    have hpos := h.begins.length_pos
    refine ⟨n, Nat.le_refl n, by omega, ?_⟩
    rw [hrest]
    exact hreads n c d hpass hd

/-- An operand that is one level further in. -/
theorem operand_within (rank : Rank) (h : Leads rank.operand ts e) (hpass : c.Reaches ts d)
    (hd : d.current.kind.tightness ≤ rank.operand.tightness) :
    Attains (n < ts.length) ((within n).operand rank c) (.ok (e, d)) := by
  cases n with
  | zero => exact .inr ⟨h.length_pos, c.current.line, rfl⟩
  | succ n =>
      have hreader := h.reader hpass hd (n := n)
      rwa [← readOperand_eq] at hreader

/-- An expression that is one level further in. -/
theorem expression_within (h : Leads .expression ts e) (hpass : c.Reaches ts d)
    (hd : d.current.kind.tightness = 0) :
    Attains (n < ts.length) ((within n).expression c) (.ok (e, d)) := by
  cases n with
  | zero => exact .shut h.length_pos
  | succ n => exact h.reader hpass (Nat.le_of_eq hd)

/-! ### Chains -/

theorem operand {rank : Rank} (h : Leads rank.operand ts e) : Leads (.chain rank) ts e where
  phrase := .operand h.phrase
  reads n c d hpass hd := by
    have hpos := h.length_pos
    refine ⟨n, Nat.le_refl n, by omega, ?_⟩
    have hreader := h.reader hpass hd (n := n)
    rw [← readOperand_eq] at hreader
    exact hreader.bind .same

theorem readLinks_apply (inner : Level) {rank : Rank} {op : TokenKind} {join : Expr → Expr → Expr}
    (before : Expr) (hop : Joins rank op join) (h : c.Next op d) : inner.readLinks rank before c =
      (do let after ← inner.operand rank; inner.links rank (join before after)) d := by
  rw [readLinks, peek_bind, h.current_eq, join?_eq_some_iff.2 hop]
  exact bind_of_ok (advance_apply h)

/-- Each operator of a chain uses up a level. -/
theorem link {rank : Rank} {op : TokenKind} {join : Expr → Expr → Expr}
    (h : Leads (.chain rank) ts left) (hop : Joins rank op join) (h' : Leads rank.operand us right) :
    Leads (.chain rank) (ts ++ op :: us) (join left right) where
  phrase := .link h.phrase hop h'.phrase
  reads n c d hpass hd := by
    simp only [Cursor.reaches_append_iff, Cursor.reaches_cons_iff] at hpass
    obtain ⟨m, hts, m', hm, hus⟩ := hpass
    have hlength : (ts ++ op :: us).length = ts.length + 1 + us.length := by simp; omega
    have hpos := h'.length_pos
    have htight : m.current.kind.tightness ≤ rank.operand.tightness := by
      rw [hm.current_eq]
      exact Nat.le_of_eq hop.tightness_eq
    obtain ⟨k, hk, hused, hreads⟩ := h.reads n c m hts htight
    have hlinks : Attains (n + 1 < (ts ++ op :: us).length) _ _ := hreads.mono (by omega)
    rw [rest, readLinks_apply _ _ hop hm] at hlinks
    cases k with
    | zero => exact ⟨0, hk, by omega, hlinks.trans (.shut (by omega))⟩
    | succ k =>
        refine ⟨k, by omega, by omega, hlinks.trans ?_⟩
        have hoperand := operand_within rank h' hus hd (n := k + 1)
        exact (hoperand.mono (by omega)).bind .same

/-! ### Calls, indexes and attributes -/

theorem bare (h : Leads .primary ts e) : Leads .postfixed ts e where
  phrase := .bare h.phrase
  reads n c d hpass hd := by
    have hpos := h.length_pos
    exact ⟨n, Nat.le_refl n, by omega, (h.reader hpass hd).bind .same⟩

/-- Each call, index and attribute uses up a level. -/
theorem opened {k : TokenKind} (h : Leads .postfixed ts target) (hk : opensPostfix k = true)
    (he : Phrase .postfixed (ts ++ k :: us) e)
    (hreads : ∀ n c d, c.Reaches (k :: us) d →
      Attains (n < us.length) ((within n).readPostfixed target c) (.ok (e, d))) :
    Leads .postfixed (ts ++ k :: us) e where
  phrase := he
  reads n c d hpass hd := by
    obtain ⟨m, hts, hus⟩ := Cursor.reaches_append_iff.1 hpass
    have hlength : (ts ++ k :: us).length = ts.length + 1 + us.length := by simp; omega
    obtain ⟨m', hm, -⟩ := Cursor.reaches_cons_iff.1 hus
    have htight : m.current.kind.tightness ≤ Form.postfixed.part.tightness := by
      rw [hm.current_eq, tightness_of_opensPostfix hk]
      decide
    obtain ⟨left, hleft, hused, htarget⟩ := h.reads n c m hts htight
    have hpostfixes : Attains (n + 1 < (ts ++ k :: us).length) _ _ := htarget.mono (by omega)
    rw [rest, readPostfixes, peek_bind, hm.current_eq, if_pos hk] at hpostfixes
    cases left with
    | zero => exact ⟨0, hleft, by omega, hpostfixes.trans (.shut (by omega))⟩
    | succ left =>
        refine ⟨left, by omega, by omega, hpostfixes.trans ?_⟩
        exact ((hreads left m d hus).mono (by omega)).bind .same

/-! ### Signs, negations and comparisons -/

theorem neg (h : Leads .sign ts e) : Leads .sign (.mark .minus :: ts) (.neg e) := by
  refine .of_reader (.neg h.phrase) (fun _ => rfl) fun n c d hpass hd => ?_
  obtain ⟨m, hm, hts⟩ := Cursor.reaches_cons_iff.1 hpass
  have hoperand : Attains (n + 1 < ts.length + 1) ((within n).operand .product m) (.ok (e, d)) :=
    (operand_within .product h hts hd).mono (by omega)
  exact .step (accept_apply (.mark .minus) hm) (hoperand.bind .same)

theorem unsigned (h : Leads .postfixed ts e) : Leads .sign ts e := by
  refine .of_reader (.unsigned h.phrase) (fun _ => rfl) fun n c d hpass hd => ?_
  have hne := h.current_ne hpass (k := .mark .minus) (by decide)
  exact .step (accept_apply_of_ne (.mark .minus) hne) (h.reader hpass (Nat.le_trans hd (by decide)))

theorem not (h : Leads .negation ts e) : Leads .negation (.keyword .notWord :: ts) (.not e) := by
  refine .of_reader (.not h.phrase) (fun _ => rfl) fun n c d hpass hd => ?_
  obtain ⟨m, hm, hts⟩ := Cursor.reaches_cons_iff.1 hpass
  have hoperand : Attains (n + 1 < ts.length + 1) ((within n).operand .conjunction m) (.ok (e, d)) :=
    (operand_within .conjunction h hts hd).mono (by omega)
  exact .step (accept_apply (.keyword .notWord) hm) (hoperand.bind .same)

theorem uncompared (h : Leads (.chain .sum) ts e) : Leads .negation ts e := by
  refine .of_reader (.uncompared h.phrase) (fun _ => rfl) fun n c d hpass hd => ?_
  have hne := h.current_ne hpass (k := .keyword .notWord) (by decide)
  have hsum := h.reader hpass (Nat.le_trans hd (by decide)) (n := n)
  refine .step (accept_apply_of_ne (.keyword .notWord) hne) (hsum.bind ?_)
  refine .step (inFollows_apply d) (.step (peek_apply d) ?_)
  cases hop : comparison? d.beforeIn d.current.kind with
  | none => exact .same
  | some op =>
      have htight := tightness_of_comparison? hop
      have hnegation : Form.negation.part.tightness = 2 := rfl
      omega

/-- Behind a comparing operator, its right side is read. -/
theorem comparison_apply (inner : Level) {ops : List TokenKind} {op : BinaryOp}
    (hops : Compares ops op) (hpass : c.Reaches ops d) :
    (do match comparison? (← inFollows) (← peek) with
        | some op =>
            let _ ← advance
            if op == .isNotIn then
              let _ ← advance
            return .binary op left (← inner.sum)
        | none => return left : Reader Expr) c =
      (do return .binary op left (← inner.sum) : Reader Expr) d := by
  rw [bind_of_ok (inFollows_apply c), peek_bind]
  cases hops
  case isNotIn =>
    simp only [Cursor.reaches_cons_iff, Cursor.reaches_nil] at hpass
    obtain ⟨m, hnot, _, hin, rfl⟩ := hpass
    rw [hnot.current_eq, Cursor.beforeIn_of_next hnot hin]
    exact (bind_of_ok (advance_apply hnot)).trans (bind_of_ok (advance_apply hin))
  all_goals
    obtain ⟨m, hm, hd⟩ := Cursor.reaches_cons_iff.1 hpass
    obtain rfl := Cursor.reaches_nil.1 hd
    rw [hm.current_eq]
    exact bind_of_ok (advance_apply hm)

theorem compared {ops : List TokenKind} {op : BinaryOp} (h : Leads (.chain .sum) ts left)
    (hops : Compares ops op) (h' : Leads (.chain .sum) us right) :
    Leads .negation (ts ++ (ops ++ us)) (.binary op left right) := by
  refine .of_reader (.compared h.phrase hops h'.phrase) (fun _ => rfl) fun n c d hpass hd => ?_
  simp only [Cursor.reaches_append_iff] at hpass
  obtain ⟨m, hts, m', hm, hus⟩ := hpass
  have hne := h.current_ne hts (k := .keyword .notWord) (by decide)
  have hlength : (ts ++ (ops ++ us)).length = ts.length + ops.length + us.length := by simp; omega
  have hright : Attains (n + 1 < (ts ++ (ops ++ us)).length)
      ((do return .binary op left (← (within n).sum) : Reader Expr) m')
      (.ok (.binary op left right, d)) :=
    ((h'.reader hus (Nat.le_trans hd (by decide))).mono (by omega)).bind .same
  refine .step (accept_apply_of_ne (.keyword .notWord) hne) ?_
  have htight : m.current.kind.tightness ≤ (Form.chain .sum).tightness := by
    cases hops <;>
    · obtain ⟨_, hfirst, -⟩ := Cursor.reaches_cons_iff.1 hm
      rw [hfirst.current_eq]
      decide
  refine ((h.reader hts htight).mono (by omega)).bind ?_
  exact Attains.trans (.inl (comparison_apply _ hops hm)) hright

/-! ### Primary expressions -/

theorem token {k : TokenKind} (h : Stands k e) : Leads .primary [k] e := by
  refine .of_reader (.token h) (fun _ => rfl) fun n c d hpass hd => ?_
  obtain ⟨m, hm, hnil⟩ := Cursor.reaches_cons_iff.1 hpass
  obtain rfl := Cursor.reaches_nil.1 hnil
  refine .step (advance_apply hm) ?_
  cases h <;> exact .same

theorem parens (h : Leads .expression ts e) :
    Leads .primary (.mark .leftParen :: (ts ++ [.mark .rightParen])) e := by
  refine .of_reader (.parens h.phrase) (fun _ => rfl) fun n c d hpass hd => ?_
  simp only [Cursor.reaches_append_iff, Cursor.reaches_cons_iff, Cursor.reaches_nil] at hpass
  obtain ⟨m₁, hopen, m₂, hts, _, hclose, rfl⟩ := hpass
  have hlength : (TokenKind.mark .leftParen :: (ts ++ [.mark .rightParen])).length =
    ts.length + 2 := by simp
  have hend : m₂.current.kind.tightness = 0 := hclose.tightness_eq
  refine .step (advance_apply hopen) (((h.expression_within hts hend).mono (by omega)).bind ?_)
  exact .step (expect_apply (.mark .rightParen) _ hclose) .same

end Leads

/-! ### Lists of expressions -/

/-- The marks behind lists of expressions. -/
def Closes (close : Mark) : Prop := close = .rightParen ∨ close = .rightBracket

/-- What expressions with commas between them lead their reader to, if there are any. -/
structure ItemsLead (ts : List TokenKind) (es : List Expr) : Prop where
  items : Items ts es
  reads (n : Nat) (close : Mark) (what : String) (room : Nat) (c m d : Cursor) :
    Closes close → c.Reaches ts m → m.Next (.mark close) d → ts ≠ [] → ts.length ≤ room →
    Attains (n < ts.length) ((within n).items close what room c) (.ok (es, d))

namespace ItemsLead

variable {ts us : List TokenKind} {first e : Expr} {es : List Expr} {c m d : Cursor} {close : Mark}

/-- Either the closing mark is next and there are no expressions, or another token is, and they are
read. -/
theorem next_or_reads (h : ItemsLead ts es) (hclose : Closes close) (hpass : c.Reaches ts m)
    (hd : m.Next (.mark close) d) : es = [] ∧ c.Next (.mark close) d ∨
      c.current.kind ≠ .mark close ∧ ∀ n what room, ts.length ≤ room →
        Attains (n < ts.length) ((within n).items close what room c) (.ok (es, d)) := by
  rcases h.items.begins with ⟨rfl, rfl⟩ | hbegins
  · obtain rfl := Cursor.reaches_nil.1 hpass
    exact .inl ⟨rfl, hd⟩
  · have hreach : (TokenKind.mark close).reach ≤ 0 := by
      rcases hclose with rfl | rfl <;> decide
    have hts : ts ≠ [] := List.ne_nil_of_length_pos hbegins.length_pos
    exact .inr ⟨hbegins.current_ne hpass hreach, fun n what room =>
      h.reads n close what room c m d hclose hpass hd hts⟩

theorem none : ItemsLead [] [] where
  items := .none
  reads _ _ _ _ _ _ _ _ _ _ hts := absurd rfl hts

theorem last (h : Leads .expression ts first) : ItemsLead ts [first] where
  items := .last h.phrase
  reads n close what room c m d hclose hts hd _ hroom := by
    cases room with
    | zero =>
        have hpos := h.length_pos
        omega
    | succ room =>
        have hend : m.current.kind.tightness = 0 := by
          rw [hd.current_eq]
          rcases hclose with rfl | rfl <;> rfl
        rw [Level.items]
        refine (h.expression_within hts hend).bind ?_
        exact .step (accept_apply (.mark close) hd) .same

theorem more (h : Leads .expression ts first) (h' : ItemsLead us es) :
    ItemsLead (ts ++ .mark .comma :: us) (first :: es) where
  items := .more h.phrase h'.items
  reads n close what room c m d hclose hpass hd _ hroom := by
    obtain ⟨m₁, hts, hpass⟩ := Cursor.reaches_append_iff.1 hpass
    obtain ⟨m₂, hcomma, hus⟩ := Cursor.reaches_cons_iff.1 hpass
    have hlength : (ts ++ .mark .comma :: us).length = ts.length + 1 + us.length := by simp; omega
    cases room with
    | zero => omega
    | succ room =>
        have hend : m₁.current.kind.tightness = 0 := hcomma.tightness_eq
        have hne : m₁.current.kind ≠ .mark close := by
          rw [hcomma.current_eq]
          rcases hclose with rfl | rfl <;> nofun
        rw [Level.items]
        refine ((h.expression_within hts hend).mono (by omega)).bind ?_
        refine .step (accept_apply_of_ne (.mark close) hne) ?_
        refine .step (expect_apply (.mark .comma) what hcomma) ?_
        rcases h'.next_or_reads hclose hus hd with ⟨rfl, hnext⟩ | ⟨hne, hreads⟩
        · exact .step (accept_apply (.mark close) hnext) .same
        · refine .step (accept_apply_of_ne (.mark close) hne) ?_
          exact ((hreads n what room (by omega)).mono (by omega)).bind .same

end ItemsLead

/-! ### What stands behind an expression -/

/-- The condition of a comprehension, which may be missing. -/
inductive ConditionLeads : List TokenKind → Option Expr → Prop where
  | none : ConditionLeads [] none
  | some {ts : List TokenKind} {e : Expr} : Leads .expression ts e →
      ConditionLeads (.keyword .ifWord :: ts) (some e)

theorem ConditionLeads.condition {ts : List TokenKind} {condition : Option Expr} :
    ConditionLeads ts condition → Condition ts condition
  | .none => .none
  | .some h => .some h.phrase

/-- What an end of a slice leads its reader to, before the mark `close` if it is missing. -/
structure BoundLeads (ts : List TokenKind) (start : Option Expr) : Prop where
  bound : Bound ts start
  reads (n : Nat) (close : Mark) (c d : Cursor) : (TokenKind.mark close).reach = 0 → c.Reaches ts d →
    d.current.kind.tightness = 0 → (start = none → d.current.kind = .mark close) →
    Attains (n < ts.length) ((within n).bound close c) (.ok (start, d))

theorem BoundLeads.none : BoundLeads [] none where
  bound := .none
  reads n close c d _ hpass _ hd := by
    obtain rfl := Cursor.reaches_nil.1 hpass
    have hclose := (TokenKind.Fixed.mark close).beq_iff_eq.2 (hd rfl)
    refine .inl ?_
    rw [Level.bound, peek_bind, if_pos hclose]
    rfl

theorem BoundLeads.some {ts : List TokenKind} {e : Expr} (h : Leads .expression ts e) :
    BoundLeads ts (some e) where
  bound := .some h.phrase
  reads n close c d hclose hpass hd _ := by
    have hne := h.current_ne hpass (Nat.le_of_eq hclose)
    rw [Level.bound, peek_bind, if_neg (mt (TokenKind.Fixed.mark close).beq_iff_eq.1 hne)]
    exact (h.expression_within hpass hd).bind .same

namespace Leads

variable {ts us vs : List TokenKind} {target e : Expr} {args : List Expr}

theorem call (h : Leads .postfixed ts target) (hargs : ItemsLead us args) :
    Leads .postfixed (ts ++ .mark .leftParen :: (us ++ [.mark .rightParen])) (.call target args) := by
  refine h.opened rfl (.call h.phrase hargs.items) fun n c d hpass => ?_
  simp only [Cursor.reaches_append_iff, Cursor.reaches_cons_iff, Cursor.reaches_nil] at hpass
  obtain ⟨m₁, hopen, m₂, hus, _, hclose, rfl⟩ := hpass
  refine .step (advance_apply hopen) (Attains.bind ?_ .same)
  rcases hargs.next_or_reads (.inl rfl) hus hclose with ⟨rfl, hnext⟩ | ⟨hne, hreads⟩
  · exact .step (accept_apply (.mark .rightParen) hnext) .same
  · refine .step (accept_apply_of_ne (.mark .rightParen) hne) (.step (left_apply m₁) ?_)
    have hroom := hus.length_le
    exact (hreads n _ _ (by omega)).mono (by simp; omega)

theorem index (h : Leads .postfixed ts target) (h' : Leads .expression us e) :
    Leads .postfixed (ts ++ .mark .leftBracket :: (us ++ [.mark .rightBracket]))
      (.index target e) := by
  refine h.opened rfl (.index h.phrase h'.phrase) fun n c d hpass => ?_
  simp only [Cursor.reaches_append_iff, Cursor.reaches_cons_iff, Cursor.reaches_nil] at hpass
  obtain ⟨m₁, hopen, m₂, hus, _, hclose, rfl⟩ := hpass
  have hend : m₂.current.kind.tightness = 0 := hclose.tightness_eq
  have hne : m₂.current.kind ≠ .mark .colon := hclose.current_ne (by simp)
  have hstart := (BoundLeads.some h').reads n .colon m₁ m₂ rfl hus hend (by simp)
  refine .step (advance_apply hopen) ((hstart.mono (by simp; omega)).bind ?_)
  refine .step (accept_apply_of_ne (.mark .colon) hne) ?_
  exact .step (expect_apply (.mark .rightBracket) _ hclose) .same

theorem slice {start stop : Option Expr} (h : Leads .postfixed ts target)
    (hstart : BoundLeads us start) (hstop : BoundLeads vs stop) :
    Leads .postfixed
      (ts ++ .mark .leftBracket :: (us ++ .mark .colon :: (vs ++ [.mark .rightBracket])))
      (.slice target start stop) := by
  refine h.opened rfl (.slice h.phrase hstart.bound hstop.bound) fun n c d hpass => ?_
  simp only [Cursor.reaches_append_iff, Cursor.reaches_cons_iff, Cursor.reaches_nil] at hpass
  obtain ⟨m₁, hopen, m₂, hus, m₃, hcolon, m₄, hvs, _, hclose, rfl⟩ := hpass
  have hend₂ : m₂.current.kind.tightness = 0 := hcolon.tightness_eq
  have hend₄ : m₄.current.kind.tightness = 0 := hclose.tightness_eq
  have hfirst := hstart.reads n .colon m₁ m₂ rfl hus hend₂ fun _ => hcolon.current_eq
  have hsecond := hstop.reads n .rightBracket m₃ m₄ rfl hvs hend₄ fun _ => hclose.current_eq
  refine .step (advance_apply hopen) ((hfirst.mono (by simp; omega)).bind ?_)
  refine .step (accept_apply (.mark .colon) hcolon) ((hsecond.mono (by simp; omega)).bind ?_)
  exact .step (expect_apply (.mark .rightBracket) _ hclose) .same

theorem member {name : String} (h : Leads .postfixed ts target) :
    Leads .postfixed (ts ++ [.mark .dot, .name name]) (.attribute target name) := by
  refine h.opened rfl (.attribute h.phrase) fun n c d hpass => ?_
  simp only [Cursor.reaches_cons_iff, Cursor.reaches_nil] at hpass
  obtain ⟨m, hdot, _, hname, rfl⟩ := hpass
  exact .step (advance_apply hdot) (.step (identifier_apply hname) .same)

/-! ### Lists -/

theorem emptyList :
    Leads .primary (.mark .leftBracket :: ([] ++ [.mark .rightBracket])) (.list []) := by
  refine .of_reader (.list .none) (fun _ => rfl) fun n c d hpass _ => ?_
  simp only [Cursor.reaches_append_iff, Cursor.reaches_cons_iff, Cursor.reaches_nil] at hpass
  obtain ⟨m, hopen, _, rfl, _, hclose, rfl⟩ := hpass
  exact .step (advance_apply hopen) (.step (accept_apply (.mark .rightBracket) hclose) .same)

theorem singleton (h : Leads .expression ts e) :
    Leads .primary (.mark .leftBracket :: (ts ++ [.mark .rightBracket])) (.list [e]) := by
  refine .of_reader (.list (.last h.phrase)) (fun _ => rfl) fun n c d hpass _ => ?_
  simp only [Cursor.reaches_append_iff, Cursor.reaches_cons_iff, Cursor.reaches_nil] at hpass
  obtain ⟨m₁, hopen, m₂, hts, _, hclose, rfl⟩ := hpass
  have hne := h.current_ne hts (k := .mark .rightBracket) (by decide)
  have hend : m₂.current.kind.tightness = 0 := hclose.tightness_eq
  have hfor : m₂.current.kind ≠ .keyword .forWord := hclose.current_ne (by simp)
  refine .step (advance_apply hopen) (.step (accept_apply_of_ne (.mark .rightBracket) hne) ?_)
  refine ((h.expression_within hts hend).mono (by simp; omega)).bind ?_
  refine .step (accept_apply_of_ne (.keyword .forWord) hfor) ?_
  exact .step (accept_apply (.mark .rightBracket) hclose) .same

theorem list (h : Leads .expression ts e) (h' : ItemsLead us args) :
    Leads .primary (.mark .leftBracket :: ((ts ++ .mark .comma :: us) ++ [.mark .rightBracket]))
      (.list (e :: args)) := by
  refine .of_reader (.list (.more h.phrase h'.items)) (fun _ => rfl) fun n c d hpass _ => ?_
  simp only [Cursor.reaches_append_iff, Cursor.reaches_cons_iff, Cursor.reaches_nil] at hpass
  obtain ⟨m₁, hopen, m₄, ⟨m₂, hts, m₃, hcomma, hus⟩, _, hclose, rfl⟩ := hpass
  have hne := h.current_ne hts (k := .mark .rightBracket) (by decide)
  have hend : m₂.current.kind.tightness = 0 := hcomma.tightness_eq
  have hfor : m₂.current.kind ≠ .keyword .forWord := hcomma.current_ne (by simp)
  have hbracket : m₂.current.kind ≠ .mark .rightBracket := hcomma.current_ne (by simp)
  refine .step (advance_apply hopen) (.step (accept_apply_of_ne (.mark .rightBracket) hne) ?_)
  refine ((h.expression_within hts hend).mono (by simp; omega)).bind ?_
  refine .step (accept_apply_of_ne (.keyword .forWord) hfor) ?_
  refine .step (accept_apply_of_ne (.mark .rightBracket) hbracket) ?_
  refine .step (expect_apply (.mark .comma) _ hcomma) ?_
  rcases h'.next_or_reads (.inr rfl) hus hclose with ⟨rfl, hnext⟩ | ⟨hne, hreads⟩
  · exact .step (accept_apply (.mark .rightBracket) hnext) .same
  · refine .step (accept_apply_of_ne (.mark .rightBracket) hne) (.step (left_apply m₃) ?_)
    have hroom := hus.length_le
    exact ((hreads n _ _ (by omega)).mono (by simp; omega)).bind .same

theorem comprehension {element : Expr} {name : String} {condition : Option Expr}
    (h : Leads .expression ts element) (h' : Leads .expression us e)
    (hcondition : ConditionLeads vs condition) :
    Leads .primary (.mark .leftBracket :: (ts ++ .keyword .forWord :: .name name :: .keyword .inWord ::
      (us ++ (vs ++ [.mark .rightBracket])))) (.comprehension element name e condition) := by
  refine .of_reader (.comprehension h.phrase h'.phrase hcondition.condition) (fun _ => rfl)
    fun n c d hpass _ => ?_
  simp only [Cursor.reaches_append_iff, Cursor.reaches_cons_iff, Cursor.reaches_nil] at hpass
  obtain ⟨m₁, hopen, m₂, hts, m₃, hfor, m₄, hname, m₅, hin, m₆, hus, m₇, hvs, _, hclose, rfl⟩ := hpass
  have hne := h.current_ne hts (k := .mark .rightBracket) (by decide)
  have hend : m₂.current.kind.tightness = 0 := hfor.tightness_eq
  refine .step (advance_apply hopen) (.step (accept_apply_of_ne (.mark .rightBracket) hne) ?_)
  refine ((h.expression_within hts hend).mono (by simp; omega)).bind ?_
  refine .step (accept_apply (.keyword .forWord) hfor) (.step (identifier_apply hname) ?_)
  refine .step (expect_apply (.keyword .inWord) _ hin) ?_
  cases hcondition with
  | none =>
      obtain rfl := Cursor.reaches_nil.1 hvs
      have hend : m₆.current.kind.tightness = 0 := hclose.tightness_eq
      have hif : m₆.current.kind ≠ .keyword .ifWord := hclose.current_ne (by simp)
      refine ((h'.expression_within hus hend).mono (by simp; omega)).bind ?_
      refine .step (accept_apply_of_ne (.keyword .ifWord) hif) (.step rfl ?_)
      exact .step (expect_apply (.mark .rightBracket) _ hclose) .same
  | some h'' =>
      obtain ⟨m₈, hif, hvs⟩ := Cursor.reaches_cons_iff.1 hvs
      have hend : m₆.current.kind.tightness = 0 := hif.tightness_eq
      have hend₇ : m₇.current.kind.tightness = 0 := hclose.tightness_eq
      refine ((h'.expression_within hus hend).mono (by simp; omega)).bind ?_
      refine .step (accept_apply (.keyword .ifWord) hif) ?_
      refine Attains.bind ?_ (.step (expect_apply (.mark .rightBracket) _ hclose) .same)
      exact ((h''.expression_within hvs hend₇).mono (by simp; omega)).map some

end Leads

/-! ### All phrases -/

mutual

theorem Phrase.leads {form : Form} {ts : List TokenKind} {e : Expr} :
    Phrase form ts e → Leads form ts e
  | .operand h => h.leads.operand
  | @Phrase.link _ _ _ _ _ _ _ h hop h' => h.leads.link hop h'.leads
  | .not h => h.leads.not
  | .uncompared h => h.leads.uncompared
  | .compared h hops h' => h.leads.compared hops h'.leads
  | .neg h => h.leads.neg
  | .unsigned h => h.leads.unsigned
  | .bare h => h.leads.bare
  | .call h hargs => h.leads.call hargs.leads
  | .index h h' => h.leads.index h'.leads
  | .slice h hstart hstop => h.leads.slice hstart.leads hstop.leads
  | .attribute h => h.leads.member
  | .token h => .token h
  | .parens h => h.leads.parens
  | .list h => h.display_leads
  | .comprehension h h' hcondition => h.leads.comprehension h'.leads hcondition.leads

theorem Items.leads {ts : List TokenKind} {es : List Expr} : Items ts es → ItemsLead ts es
  | .none => .none
  | .last h => .last h.leads
  | .more h hmore => .more h.leads hmore.leads

theorem Items.display_leads {ts : List TokenKind} {es : List Expr} : Items ts es →
    Leads .primary (.mark .leftBracket :: (ts ++ [.mark .rightBracket])) (.list es)
  | .none => .emptyList
  | .last h => h.leads.singleton
  | .more h hmore => h.leads.list hmore.leads

theorem Bound.leads {ts : List TokenKind} {start : Option Expr} : Bound ts start → BoundLeads ts start
  | .none => .none
  | .some h => .some h.leads

theorem Condition.leads {ts : List TokenKind} {condition : Option Expr} :
    Condition ts condition → ConditionLeads ts condition
  | .none => .none
  | .some h => .some h.leads

end

end PromptWeave.Script
