import PromptWeave.Proofs.Script.Cursor

/-!
# What the parser reads is in the grammar

A reader that succeeds has passed over tokens that make up what it returns. This is shown from the
elementary readers upwards: each rule takes the tokens that a reader begins with off those that are
asked for, so what remains at the end of a reader is a phrase put together of the parts it has read.
The readers of a level rely on those of the level inside it, and the outermost level on all of them by
induction on their number.
-/
namespace PromptWeave.Script

open Reader

/-- Whether the tokens that a reader passes over and what it returns are related by `Q`. -/
def Yields {α : Type} (r : Reader α) (Q : List Token → α → Prop) : Prop :=
  ∀ c a d, c.Ended → r c = .ok (a, d) → ∃ ts, c.Passes ts d ∧ Q ts a

/-- The same of a reader that is used only at tokens of the kind `k`. -/
def YieldsAt {α : Type} (k : TokenKind) (r : Reader α) (Q : List Token → α → Prop) : Prop :=
  ∀ c a d, c.Ended → c.current.kind = k → r c = .ok (a, d) → ∃ ts, c.Passes ts d ∧ Q ts a

/-! ### Rules for the elementary readers -/

section Rules

variable {α β : Type} {k : TokenKind} {Q : List Token → α → Prop}

theorem Yields.at {r : Reader α} (h : Yields r Q) : YieldsAt k r Q := fun c a d hc _ => h c a d hc

theorem Yields.pure {a : α} (h : Q [] a) : Yields (Pure.pure a) Q := by
  intro c b d _ hok
  cases hok
  exact ⟨[], Cursor.passes_nil.2 rfl, h⟩

theorem Yields.fail {fault : SyntaxFault} : Yields (Reader.fail fault) Q := by
  intro c a d _ hok
  cases hok

theorem Yields.fail_bind {fault : SyntaxFault} {f : β → Reader α} :
    Yields (Reader.fail fault >>= f) Q := by
  intro c a e _ hok
  obtain ⟨_, _, hfail, -⟩ := Reader.bind_eq_ok.1 hok
  cases hfail

theorem Yields.mono {r : Reader α} {P : List Token → α → Prop} (h : Yields r P)
    (hP : ∀ ts a, P ts a → Q ts a) : Yields r Q := by
  intro c a d hc hok
  obtain ⟨ts, hts, ha⟩ := h c a d hc hok
  exact ⟨ts, hts, hP ts a ha⟩

theorem YieldsAt.bind {r : Reader β} {f : β → Reader α} {P : List Token → β → Prop}
    (hr : YieldsAt k r P) (hf : ∀ ts b, P ts b → Yields (f b) fun us a => Q (ts ++ us) a) :
    YieldsAt k (r >>= f) Q := by
  intro c a e hc hk hok
  obtain ⟨b, d, hb, ha⟩ := Reader.bind_eq_ok.1 hok
  obtain ⟨ts, hts, hP⟩ := hr c b d hc hk hb
  obtain ⟨us, hus, hQ⟩ := hf ts b hP d a e (hc.of_passes hts) ha
  exact ⟨ts ++ us, hts.append hus, hQ⟩

theorem Yields.bind {r : Reader β} {f : β → Reader α} {P : List Token → β → Prop} (hr : Yields r P)
    (hf : ∀ ts b, P ts b → Yields (f b) fun us a => Q (ts ++ us) a) : Yields (r >>= f) Q :=
  fun c a d hc => hr.at.bind hf c a d hc rfl

theorem Yields.map {r : Reader β} {f : β → α} {P : List Token → β → Prop} (hr : Yields r P) :
    Yields (f <$> r) fun ts a => ∃ b, P ts b ∧ a = f b := by
  rw [← bind_pure_comp]
  refine .bind hr fun ts b hb => .pure ⟨b, ?_, rfl⟩
  rwa [List.append_nil]

theorem Yields.peek {f : TokenKind → Reader α} (h : ∀ k, YieldsAt k (f k) Q) :
    Yields (Reader.peek >>= f) Q := fun c a d hc hok => h c.current.kind c a d hc rfl hok

theorem Yields.left {f : Nat → Reader α} (h : ∀ n, Yields (f n) Q) : Yields (Reader.left >>= f) Q :=
  fun c a d hc hok => h c.later.length c a d hc hok

theorem Yields.advance {f : TokenKind → Reader α} (hend : Yields (f .eof) Q)
    (h : ∀ line k, Yields (f k) fun ts a => Q (⟨line, k⟩ :: ts) a) :
    Yields (Reader.advance >>= f) Q := by
  intro c a e hc hok
  obtain ⟨k, d, hk, ha⟩ := Reader.bind_eq_ok.1 hok
  obtain ⟨rfl, ⟨heof, rfl⟩ | hpass⟩ := advance_eq_ok hc hk
  · rw [heof] at ha
    exact hend d a e hc ha
  · obtain ⟨ts, hts, hQ⟩ := h c.current.line c.current.kind d a e (hc.of_passes hpass) ha
    exact ⟨c.current :: ts, hpass.cons hts, hQ⟩

theorem YieldsAt.advance {f : TokenKind → Reader α} (hk : k ≠ .eof)
    (h : ∀ line, Yields (f k) fun ts a => Q (⟨line, k⟩ :: ts) a) :
    YieldsAt k (Reader.advance >>= f) Q := by
  rintro c a e hc rfl hok
  obtain ⟨_, d, hd, ha⟩ := Reader.bind_eq_ok.1 hok
  obtain ⟨rfl, ⟨heof, -⟩ | hpass⟩ := advance_eq_ok hc hd
  · exact absurd heof hk
  · obtain ⟨ts, hts, hQ⟩ := h c.current.line d a e (hc.of_passes hpass) ha
    exact ⟨c.current :: ts, hpass.cons hts, hQ⟩

theorem Yields.accept {yes no : Reader α} (hk : k.Fixed)
    (hyes : ∀ line, Yields yes fun ts a => Q (⟨line, k⟩ :: ts) a) (hno : Yields no Q) :
    Yields (Reader.accept k >>= fun b => if b = true then yes else no) Q := by
  intro c a e hc hok
  obtain ⟨b, d, haccept, hrest⟩ := Reader.bind_eq_ok.1 hok
  rcases accept_eq_ok hc hk haccept with ⟨rfl, line, hpass⟩ | ⟨rfl, rfl⟩
  · obtain ⟨ts, hts, hQ⟩ := hyes line d a e (hc.of_passes hpass) hrest
    exact ⟨⟨line, k⟩ :: ts, hpass.cons hts, hQ⟩
  · exact hno d a e hc hrest

theorem Yields.expect {f : Unit → Reader α} {what : String} (hk : k.Fixed)
    (h : ∀ line, Yields (f ()) fun ts a => Q (⟨line, k⟩ :: ts) a) :
    Yields (Reader.expect k what >>= f) Q := by
  rw [Reader.expect, bind_assoc]
  simp only [apply_ite (· >>= f), pure_bind, bind_assoc]
  exact .accept hk h (.peek fun _ => Yields.fail_bind.at)

theorem Yields.identifier {f : String → Reader α}
    (h : ∀ line name, Yields (f name) fun ts a => Q (⟨line, .name name⟩ :: ts) a) :
    Yields (Reader.identifier >>= f) Q := by
  rw [Reader.identifier, bind_assoc]
  refine .advance .fail_bind fun line k => ?_
  cases k with
  | name letters => exact h line letters
  | _ => exact .fail_bind

theorem Yields.skipNewlines {f : Unit → Reader α}
    (h : ∀ gap, Newlines gap → Yields (f ()) fun ts a => Q (gap ++ ts) a) :
    Yields (Reader.skipNewlines >>= f) Q := by
  intro c a e hc hok
  obtain ⟨_, d, hskip, hrest⟩ := Reader.bind_eq_ok.1 hok
  obtain ⟨gap, hgap, hpass⟩ := skipNewlines_eq_ok hskip
  obtain ⟨ts, hts, hQ⟩ := h gap hgap d a e (hc.of_passes hpass) hrest
  exact ⟨gap ++ ts, hpass.append hts, hQ⟩

end Rules

/-! ### Expressions -/

namespace Level

/-- Whether what the readers of a level return is in the grammar, given what stands before them. -/
structure Sound (inner : Level) : Prop where
  operand (rank : Rank) : Yields (inner.operand rank) fun ts e => Phrase rank.operand (kinds ts) e
  links {rank : Rank} {us : List TokenKind} {before : Expr} : Phrase (.chain rank) us before →
    Yields (inner.links rank before) fun ts e => Phrase (.chain rank) (us ++ kinds ts) e
  postfixed {us : List TokenKind} {target : Expr} {k : TokenKind} : Phrase .postfixed us target →
    opensPostfix k = true →
    YieldsAt k (inner.postfixed target) fun ts e => Phrase .postfixed (us ++ kinds ts) e
  postfixes {us : List TokenKind} {target : Expr} : Phrase .postfixed us target →
    Yields (inner.postfixes target) fun ts e => Phrase .postfixed (us ++ kinds ts) e
  braced (inLoop : Bool) : Yields (inner.braced inLoop) (Block inLoop)

namespace Sound

theorem shut : shut.Sound where
  operand _ := .fail
  links _ := .fail
  postfixed _ _ := Yields.fail.at
  postfixes _ := .fail
  braced _ := .fail

variable {inner : Level} (hinner : inner.Sound)

include hinner

theorem expression : Yields inner.expression fun ts e => Phrase .expression (kinds ts) e := by
  refine .bind (hinner.operand .disjunction) fun ts e he => ?_
  simpa only [kinds_append] using hinner.links (.operand he)

theorem items (close : Mark) (what : String) (room : Nat) :
    Yields (inner.items close what room) fun ts es =>
      ∃ us, kinds ts = us ++ [.mark close] ∧ Items us es := by
  induction room with
  | zero => exact .peek fun _ => Yields.fail.at
  | succ room ih =>
      rw [Level.items]
      refine .bind hinner.expression fun ts e he => .accept (.mark close) ?_ ?_
      · exact fun _ => .pure ⟨kinds ts, by simp, .last he⟩
      refine .expect (.mark .comma) fun _ => .accept (.mark close) ?_ ?_
      · exact fun _ => .pure ⟨kinds ts ++ [.mark .comma], by simp, .more he .none⟩
      refine .bind ih fun us es ⟨vs, hus, hes⟩ => .pure ?_
      exact ⟨kinds ts ++ .mark .comma :: vs, by simp [hus], .more he hes⟩

theorem arguments :
    Yields inner.arguments fun ts es => ∃ us, kinds ts = us ++ [.mark .rightParen] ∧ Items us es := by
  refine .accept (.mark .rightParen) (fun _ => .pure ⟨[], rfl, .none⟩) ?_
  exact .left fun n => hinner.items .rightParen _ (n + 1)

theorem bound (close : Mark) :
    Yields (inner.bound close) fun ts start => Bound (kinds ts) start := by
  refine .peek fun k => Yields.at ?_
  by_cases hk : (k == .mark close) = true
  · rw [if_pos hk]
    exact .pure .none
  · rw [if_neg hk]
    refine .bind hinner.expression fun ts e he => .pure ?_
    simpa using Bound.some he

theorem indexOrSlice {us : List TokenKind} {target : Expr} (htarget : Phrase .postfixed us target) :
    Yields (inner.indexOrSlice target) fun ts e =>
      Phrase .postfixed (us ++ .mark .leftBracket :: kinds ts) e := by
  refine .bind (hinner.bound .colon) fun ts start hstart => .accept (.mark .colon) ?_ ?_
  · refine fun _ => .bind (hinner.bound .rightBracket) fun vs stop hstop => ?_
    refine .expect (.mark .rightBracket) fun _ => .pure ?_
    simpa using Phrase.slice htarget hstart hstop
  · refine .expect (.mark .rightBracket) fun _ => ?_
    cases start with
    | none => exact .fail
    | some i =>
        refine .pure ?_
        simpa using Phrase.index htarget hstart.phrase

theorem listDisplay :
    Yields inner.listDisplay fun ts e => Phrase .primary (.mark .leftBracket :: kinds ts) e := by
  refine .accept (.mark .rightBracket) (fun _ => .pure (.list .none)) ?_
  refine .bind hinner.expression fun ts first hfirst => .accept (.keyword .forWord) ?_ ?_
  · refine fun _ => .identifier fun _ name => .expect (.keyword .inWord) fun _ => ?_
    refine .bind hinner.expression fun us source hsource => ?_
    dsimp only
    refine .accept (.keyword .ifWord) ?_ ?_
    · refine fun _ => .bind (.map hinner.expression) fun vs condition ⟨e, he, hcondition⟩ => ?_
      subst hcondition
      refine .expect (.mark .rightBracket) fun _ => .pure ?_
      simpa using Phrase.comprehension hfirst hsource (.some he)
    · rw [pure_bind]
      refine .expect (.mark .rightBracket) fun _ => .pure ?_
      simpa using Phrase.comprehension hfirst hsource .none
  refine .accept (.mark .rightBracket) ?_ ?_
  · refine fun _ => .pure ?_
    simpa using Phrase.list (.last hfirst)
  refine .expect (.mark .comma) fun _ => .accept (.mark .rightBracket) ?_ ?_
  · refine fun _ => .pure ?_
    simpa using Phrase.list (.more hfirst .none)
  refine .left fun n => .bind (hinner.items .rightBracket _ (n + 1)) fun us es ⟨vs, hus, hes⟩ => ?_
  refine .pure ?_
  simpa [hus] using Phrase.list (.more hfirst hes)

theorem primary : Yields inner.primary fun ts e => Phrase .primary (kinds ts) e := by
  refine .advance .fail fun line k => ?_
  split
  case h_8 =>
    refine .bind hinner.expression fun ts e he => .expect (.mark .rightParen) fun _ => .pure ?_
    simpa using Phrase.parens he
  case h_9 => exact hinner.listDisplay
  case h_10 => exact .fail
  all_goals exact .pure (.token (by constructor))

theorem readPostfixed {us : List TokenKind} {target : Expr} {k : TokenKind}
    (htarget : Phrase .postfixed us target) (hk : opensPostfix k = true) :
    YieldsAt k (inner.readPostfixed target) fun ts e => Phrase .postfixed (us ++ kinds ts) e := by
  unfold opensPostfix at hk
  split at hk
  · refine .advance nofun fun _ => .bind hinner.arguments fun ts args ⟨vs, hts, hargs⟩ => .pure ?_
    simpa [hts] using Phrase.call htarget hargs
  · exact .advance nofun fun _ => hinner.indexOrSlice htarget
  · exact .advance nofun fun _ => .identifier fun _ name => .pure (Phrase.attribute htarget)
  · cases hk

theorem readPostfixes {us : List TokenKind} {target : Expr} (htarget : Phrase .postfixed us target) :
    Yields (inner.readPostfixes target) fun ts e => Phrase .postfixed (us ++ kinds ts) e := by
  refine .peek fun k => ?_
  by_cases hk : opensPostfix k = true
  · rw [if_pos hk]
    refine .bind (hinner.postfixed htarget hk) fun ts e he => ?_
    simpa using hinner.postfixes he
  · rw [if_neg hk]
    refine Yields.at (.pure ?_)
    simpa using htarget

theorem sign : Yields inner.sign fun ts e => Phrase .sign (kinds ts) e := by
  refine .accept (.mark .minus) (fun _ => .bind (hinner.operand .product) fun ts e he => .pure ?_) ?_
  · simpa using Phrase.neg he
  · refine .bind hinner.primary fun ts e he => (hinner.readPostfixes (.bare he)).mono fun us e h => ?_
    simpa using Phrase.unsigned h

theorem readLinks {rank : Rank} {us : List TokenKind} {before : Expr}
    (hbefore : Phrase (.chain rank) us before) :
    Yields (inner.readLinks rank before) fun ts e => Phrase (.chain rank) (us ++ kinds ts) e := by
  refine .peek fun k => ?_
  cases hjoin : rank.join? k with
  | none =>
      refine Yields.at (.pure ?_)
      simpa using hbefore
  | some join =>
      have hop := join?_eq_some_iff.1 hjoin
      refine .advance hop.fixed.ne_eof fun _ => .bind (hinner.operand rank) fun ts after hafter => ?_
      simpa using hinner.links (.link hbefore hop hafter)

/-- A chain is one operand and what follows it. -/
theorem chain {r : Reader Expr} (rank : Rank)
    (hr : Yields r fun ts e => Phrase rank.operand (kinds ts) e) :
    Yields (do inner.readLinks rank (← r)) fun ts e => Phrase (.chain rank) (kinds ts) e := by
  refine .bind hr fun ts e he => ?_
  simpa using hinner.readLinks (.operand he)

theorem product : Yields inner.product fun ts e => Phrase (.chain .product) (kinds ts) e :=
  hinner.chain .product hinner.sign

theorem sum : Yields inner.sum fun ts e => Phrase (.chain .sum) (kinds ts) e :=
  hinner.chain .sum hinner.product

theorem comparison : Yields inner.comparison fun ts e => Phrase .negation (kinds ts) e := by
  refine .bind hinner.sum fun ts left hleft => ?_
  have hright {vs : List Token} {op : BinaryOp} (hops : Compares (kinds vs) op) :
      Yields (do return .binary op left (← inner.sum)) fun us e =>
        Phrase .negation (kinds (ts ++ (vs ++ us))) e := by
    refine .bind hinner.sum fun us right h => .pure ?_
    simpa using Phrase.compared hleft hops h
  intro c e d hc hok
  rw [bind_of_ok (inFollows_apply c), peek_bind] at hok
  cases hop : comparison? c.beforeIn c.current.kind with
  | none =>
      rw [hop] at hok
      cases hok
      refine ⟨[], Cursor.passes_nil.2 rfl, ?_⟩
      simpa using Phrase.uncompared hleft
  | some op =>
      rw [hop] at hok
      rcases comparison?_eq_some_iff.1 hop with ⟨hne, hops⟩ | ⟨rfl, hnot, hbefore⟩
      · have honly : (op == .isNotIn) = false := by simpa using hne
        simp only [honly, Bool.false_eq_true, if_false] at hok
        have halone (line : Nat) : Compares (kinds [⟨line, c.current.kind⟩]) op := hops
        have hk := (hops.fixed _ List.mem_cons_self).ne_eof
        exact YieldsAt.advance hk (fun line => hright (halone line)) c e d hc rfl hok
      · -- The word `not` is passed first; the word `in` is known to be the next.
        obtain ⟨m, hnext, hm⟩ := Cursor.next_of_beforeIn hbefore
        obtain ⟨_, _, hadvance, hok⟩ := Reader.bind_eq_ok.1 hok
        cases (advance_apply hnext).symm.trans hadvance
        obtain ⟨line, hpass⟩ := hnext
        rw [hnot] at hpass
        have hafter : YieldsAt (.keyword .inWord)
            (do let _ ← advance; return .binary .isNotIn left (← inner.sum))
            fun us e => Phrase .negation (kinds (ts ++ ⟨line, .keyword .notWord⟩ :: us)) e :=
          .advance nofun fun inLine => @hright [_, ⟨inLine, _⟩] _ .isNotIn
        obtain ⟨us, hus, he⟩ := hafter m e d (hc.of_passes hpass) hm hok
        exact ⟨_, hpass.cons hus, he⟩

theorem negation : Yields inner.negation fun ts e => Phrase .negation (kinds ts) e := by
  refine .accept (.keyword .notWord) (fun _ => ?_) hinner.comparison
  exact .bind (hinner.operand .conjunction) fun ts e he => .pure (by simpa using Phrase.not he)

theorem conjunction : Yields inner.conjunction fun ts e =>
    Phrase (.chain .conjunction) (kinds ts) e := hinner.chain .conjunction hinner.negation

theorem readOperand (rank : Rank) :
    Yields (inner.readOperand rank) fun ts e => Phrase rank.operand (kinds ts) e := by
  cases rank with
  | disjunction => exact hinner.conjunction
  | conjunction => exact hinner.negation
  | sum => exact hinner.product
  | product => exact hinner.sign

/-! ### Statements -/

theorem guarded (inLoop : Bool) : Yields (inner.guarded inLoop) (Guarded inLoop) := by
  refine .bind hinner.expression fun ts e he => ?_
  refine .bind (hinner.braced inLoop) fun us body hbody => .pure ?_
  rw [List.append_nil]
  exact .mk he hbody

section Arms

variable {inLoop : Bool} {room : Nat} (hmore : Yields (inner.moreArms inLoop room) (MoreArms inLoop))

include hmore

/-- An arm with a condition and the arms behind it. -/
theorem armThenMore : Yields (do
      let (condition, body) ← inner.guarded inLoop
      return Arms.when condition body (← inner.moreArms inLoop room)) fun ts arms =>
    ∃ us vs arm more, ts = us ++ vs ∧ arms = Arms.when arm.1 arm.2 more ∧
      Guarded inLoop us arm ∧ MoreArms inLoop vs more := by
  refine .bind (hinner.guarded inLoop) fun us arm harm => .bind hmore fun vs more h => .pure ?_
  rw [List.append_nil]
  exact ⟨us, vs, arm, more, rfl, rfl, harm, h⟩

/-- What is behind the word `else`: an arm with a condition and more arms, or the last block. -/
theorem behindElse {gap : List Token} (hgap : Newlines gap) (line : Nat) : Yields (do
      if ← Reader.accept (.keyword .ifWord) then
        let (condition, body) ← inner.guarded inLoop
        return Arms.when condition body (← inner.moreArms inLoop room)
      return Arms.otherwise (← inner.block inLoop)) fun ts arms =>
    MoreArms inLoop (gap ++ ⟨line, .keyword .elseWord⟩ :: ts) arms := by
  refine .accept (.keyword .ifWord) (fun _ => (hinner.armThenMore hmore).mono ?_) ?_
  · rintro _ _ ⟨us, vs, arm, more, rfl, rfl, harm, h⟩
    exact .elseIf hgap harm h
  · refine .bind (hinner.braced inLoop) fun us body hbody => .pure ?_
    rw [List.append_nil]
    exact .otherwise hgap hbody

end Arms

theorem moreArms (inLoop : Bool) (room : Nat) :
    Yields (inner.moreArms inLoop room) (MoreArms inLoop) := by
  induction room with
  | zero => exact .peek fun _ => Yields.fail.at
  | succ room ih =>
      intro c arms d hc hok
      rw [Level.moreArms] at hok
      obtain ⟨before, _, hget, hskipped⟩ := Reader.bind_eq_ok.1 hok
      cases hget
      obtain ⟨_, m, hskip, helif⟩ := Reader.bind_eq_ok.1 hskipped
      obtain ⟨gap, hgap, hpass⟩ := skipNewlines_eq_ok hskip
      have hm := hc.of_passes hpass
      obtain ⟨isElif, m₁, haccept, hrest⟩ := Reader.bind_eq_ok.1 helif
      rcases accept_eq_ok hm (.keyword .elifWord) haccept with ⟨rfl, line, hword⟩ | ⟨rfl, rfl⟩
      · obtain ⟨ts, hts, us, vs, arm, more, htokens, rfl, hguarded, hmore⟩ :=
          hinner.armThenMore ih m₁ arms d (hm.of_passes hword) hrest
        subst ts
        exact ⟨_, hpass.append (hword.cons hts), .elif hgap hguarded hmore⟩
      obtain ⟨isElse, m₂, haccept', hrest'⟩ := Reader.bind_eq_ok.1 hrest
      rcases accept_eq_ok hm (.keyword .elseWord) haccept' with ⟨rfl, line, hword⟩ | ⟨rfl, rfl⟩
      · obtain ⟨ts, hts, harms⟩ :=
          hinner.behindElse ih hgap line m₂ arms d (hm.of_passes hword) hrest'
        exact ⟨_, hpass.append (hword.cons hts), harms⟩
      · -- The ends of lines that were passed over for nothing are given back.
        cases hrest'
        exact ⟨[], Cursor.passes_nil.2 rfl, .done⟩

theorem choice (inLoop : Bool) (line : Nat) : Yields (inner.choice inLoop) fun ts act =>
    Sentence inLoop (⟨line, .keyword .ifWord⟩ :: ts) act := by
  refine .bind (hinner.guarded inLoop) fun ts arm harm => .left fun n => ?_
  refine .bind (hinner.moreArms inLoop (n + 1)) fun us more hmore => .pure ?_
  rw [List.append_nil]
  exact .choose harm hmore

/-- The part of an assignment behind its mark, if what `act` makes of the value is one. -/
theorem assigned {inLoop : Bool} {ts : List Token} {target : Expr} {act : Expr → Act} {k : TokenKind}
    (hk : k ≠ .eof)
    (hact : ∀ {line us value}, Place target → Phrase .expression (kinds us) value →
      Sentence inLoop (ts ++ ⟨line, k⟩ :: us) (act value)) :
    YieldsAt k (do
      let _ ← Reader.advance
      unless target.isPlace do
        Reader.fail .badTarget
      return act (← inner.expression)) fun us a => Sentence inLoop (ts ++ us) a := by
  refine .advance hk fun line => ?_
  by_cases hplace : target.isPlace = true
  · rw [if_pos hplace]
    refine .bind hinner.expression fun us value he => .pure ?_
    rw [List.append_nil]
    exact hact (isPlace_iff.1 hplace) he
  · rw [if_neg hplace]
    exact .fail_bind

theorem simpleStatement (inLoop : Bool) : Yields inner.simpleStatement (Sentence inLoop) := by
  refine .bind hinner.expression fun ts target htarget => .peek fun k => ?_
  dsimp only
  split
  · exact hinner.assigned nofun fun hplace hvalue => .assign htarget hplace hvalue
  · exact hinner.assigned nofun fun hplace hvalue => .update htarget hplace .add hvalue
  · exact hinner.assigned nofun fun hplace hvalue => .update htarget hplace .sub hvalue
  · refine Yields.at (.pure ?_)
    rw [List.append_nil]
    exact .eval htarget

omit hinner in
theorem jump {inLoop : Bool} {word : Keyword} {act : Act}
    (h : ∀ line, Sentence true [⟨line, .keyword word⟩] act) :
    YieldsAt (.keyword word) (Level.act.jump inLoop word act) (Sentence inLoop) := by
  cases inLoop with
  | false => exact Yields.fail_bind.at
  | true => exact .advance nofun fun line => .pure (h line)

theorem act (inLoop : Bool) : Yields (inner.act inLoop) (Sentence inLoop) := by
  refine .peek fun k => ?_
  split
  · exact .advance nofun fun line => hinner.choice inLoop line
  · refine .advance nofun fun _ => .identifier fun _ name => .expect (.keyword .inWord) fun _ => ?_
    refine .bind hinner.expression fun ts source hsource => ?_
    refine .bind (hinner.braced true) fun us body hbody => .pure ?_
    rw [List.append_nil]
    exact .forEach (.mk hsource hbody)
  · refine .advance nofun fun _ => .bind hinner.expression fun ts condition hcondition => ?_
    refine .bind (hinner.braced true) fun us body hbody => .pure ?_
    rw [List.append_nil]
    exact .whileTrue (.mk hcondition hbody)
  · exact jump fun _ => .breakLoop
  · exact jump fun _ => .continueLoop
  · exact (hinner.simpleStatement inLoop).at

theorem statement (inLoop : Bool) : Yields (inner.statement inLoop) fun ts s =>
    ∃ t us act, ts = t :: us ∧ s = .mk t.line act ∧ Sentence inLoop ts act := by
  intro c s d hc hok
  obtain ⟨line, _, hline, hok⟩ := Reader.bind_eq_ok.1 hok
  cases hline
  obtain ⟨act, _, hact, hok⟩ := Reader.bind_eq_ok.1 hok
  cases hok
  obtain ⟨ts, hpass, hsentence⟩ := hinner.act inLoop c act d hc hact
  obtain ⟨t, us, rfl, -⟩ := hsentence.first
  exact ⟨t :: us, hpass, t, us, act, rfl, by rw [hpass.current_eq], hsentence⟩

/-- A statement with its end makes a body of any body that is found behind it. -/
theorem endedStatement {inLoop : Bool} {c d : Cursor} {s : Stmt} (hc : c.Ended)
    (hok : inner.endedStatement inLoop c = .ok (s, d)) :
    ∃ t vs, c.Passes (t :: vs) d ∧ ∀ {us : List Token} {e : Cursor} {rest : List Stmt}, d.Passes us e →
      Body inLoop us rest → Body inLoop (t :: (vs ++ us)) (s :: rest) := by
  obtain ⟨s, c₁, hs, hend⟩ := Reader.bind_eq_ok.1 hok
  obtain ⟨ts, hpass, t, vs, act, rfl, rfl, hsentence⟩ := hinner.statement inLoop c s c₁ hc hs
  obtain ⟨_, c₂, hpassed, hskip⟩ := Reader.bind_eq_ok.1 hend
  obtain ⟨_, d, hskipped, hpure⟩ := Reader.bind_eq_ok.1 hskip
  cases hpure
  obtain ⟨gap, hgap, hgapPass⟩ := skipNewlines_eq_ok hskipped
  rcases endOfStatement_eq_ok (hc.of_passes hpass) hpassed with ⟨line, hline⟩ | ⟨rfl, hk⟩
  · refine ⟨t, vs ++ ⟨line, .newline⟩ :: gap, hpass.append (hline.cons hgapPass), fun _ hrest => ?_⟩
    rw [List.append_assoc]
    exact .more hsentence hgap hrest
  · -- The token that ends the statement is not passed over and begins no other, so the rest is empty.
    have htrails : c₂.current.kind.trails = true := by
      rcases hk with hk | hk <;> rw [hk] <;> rfl
    obtain rfl : gap = [] := by
      cases gap with
      | nil => rfl
      | cons next gap =>
          have hnewline := (newlines_cons.1 hgap).1
          rw [← hgapPass.current_eq] at hnewline
          rcases hk with hk | hk <;> cases hk.symm.trans hnewline
    obtain rfl := Cursor.passes_nil.1 hgapPass
    refine ⟨t, vs, hpass, fun {us e rest} hus hrest => ?_⟩
    cases us with
    | nil =>
        cases hrest
        rw [List.append_nil]
        exact .last hsentence
    | cons next us =>
        have hnot := hrest.first
        rw [← hus.current_eq, htrails] at hnot
        cases hnot

theorem statements (inLoop : Bool) (room : Nat) :
    Yields (inner.statements inLoop room) fun ts body =>
      ∃ us line, ts = us ++ [⟨line, .mark .rightBrace⟩] ∧ Body inLoop us body := by
  induction room with
  | zero => exact .fail
  | succ room ih =>
      rw [Level.statements]
      refine .peek fun k => ?_
      split
      · exact .advance nofun fun line => .pure ⟨[], line, rfl, .none⟩
      · exact Yields.fail.at
      · intro c body e hc _ hok
        obtain ⟨s, d, hs, hmore⟩ := Reader.bind_eq_ok.1 hok
        obtain ⟨rest, _, hrest, hpure⟩ := Reader.bind_eq_ok.1 hmore
        cases hpure
        obtain ⟨t, vs, hpass, hbody⟩ := hinner.endedStatement hc hs
        obtain ⟨_, hblock, us, line, rfl, hus⟩ := ih d rest _ (hc.of_passes hpass) hrest
        obtain ⟨e, hinside, hbrace⟩ := Cursor.passes_append_iff.1 hblock
        have hall := hpass.append (hinside.append hbrace)
        refine ⟨_, hall, t :: (vs ++ us), line, ?_, hbody hinside hus⟩
        simp

theorem readBraced (inLoop : Bool) : Yields (inner.readBraced inLoop) (Block inLoop) := by
  refine .expect (.mark .leftBrace) fun line => .skipNewlines fun gap hgap => .left fun n => ?_
  refine (hinner.statements inLoop (n + 1)).mono ?_
  rintro _ body ⟨us, endLine, rfl, hbody⟩
  exact .mk hgap hbody

/-- Statements up to the end of the script: where there is room for all tokens, all are read. -/
theorem script {c d : Cursor} {body : List Stmt} {room : Nat} (hc : c.Ended)
    (hroom : c.tokens.length ≤ room) (hok : inner.script room c = .ok (body, d)) :
    ∃ ts line, c.tokens = ts ++ [⟨line, .eof⟩] ∧ Body false ts body := by
  induction room generalizing c body with
  | zero => cases hroom
  | succ room ih =>
      obtain ⟨k, _, hpeek, hmatch⟩ := Reader.bind_eq_ok.1 hok
      obtain ⟨hk, hstay⟩ := Prod.mk.inj (Except.ok.inj hpeek)
      rw [← hstay] at hmatch
      split at hmatch
      case h_1 =>
        obtain ⟨rfl, -⟩ := Prod.mk.inj (Except.ok.inj hmatch)
        refine ⟨[], c.current.line, ?_, .none⟩
        rw [Cursor.tokens, hc.eof_iff.1 hk, ← hk]
        rfl
      case h_2 =>
        obtain ⟨s, d, hs, hmore⟩ := Reader.bind_eq_ok.1 hmatch
        obtain ⟨rest, _, hrest, hpure⟩ := Reader.bind_eq_ok.1 hmore
        cases hpure
        obtain ⟨t, vs, hpass, hbody⟩ := hinner.endedStatement hc hs
        have hlength := hpass.length_eq
        rw [List.length_cons] at hlength
        obtain ⟨us, line, hus, hrestBody⟩ := ih (hc.of_passes hpass) (by omega) hrest
        have hend : d.Passes us ⟨⟨line, .eof⟩, []⟩ := hus
        refine ⟨t :: (vs ++ us), line, ?_, hbody hend hrestBody⟩
        rw [hpass, hus]
        simp

/-- The readers of a level are sound if those of the level inside it are. -/
theorem around : inner.around.Sound where
  operand := hinner.readOperand
  links := hinner.readLinks
  postfixed := hinner.readPostfixed
  postfixes := hinner.readPostfixes
  braced := hinner.readBraced

end Sound

theorem sound_within (n : Nat) : (within n).Sound := by
  induction n with
  | zero => exact .shut
  | succ n ih => exact ih.around

end Level

end PromptWeave.Script
