import PromptWeave.Proofs.Script.Literals
import PromptWeave.Proofs.Script.Recognition
import PromptWeave.Script.Execution

/-!
# The displayed form of a value reads back

The tokens of a value's quoted form are read as the expression that they are, with no more levels than
its lists are nested and two around them, and the expression evaluates to the value. So a script that
assigns what is displayed binds the value, and no two values are displayed alike.
-/
namespace PromptWeave.Script

open Reader Level Action

/-! ### Reading the tokens -/

section Reading

variable {c d m : Cursor} {e : Expr} {k : TokenKind} {n : Nat} {v w : Value} {items : List Value}

/-- The first token of a quoted form begins a sign or a primary expression. -/
theorem Value.begins_literalKinds (v : Value) : Begins 5 v.literalKinds := by
  have hbegins {k : TokenKind} (us : List TokenKind) (hk : 6 ≤ k.reach) : Begins 5 (k :: us) :=
    ⟨k, us, rfl, hk⟩
  cases v with
  | bool b => cases b <;> exact hbegins _ (by decide)
  | int n =>
      rw [Value.literalKinds]
      split
      · exact hbegins _ (by decide)
      · exact hbegins _ (Nat.le_add_left 6 2)
  | list items => cases items <;> exact hbegins _ (by decide)
  | _ => exact hbegins _ (Nat.le_add_left 6 2)

theorem length_le_furtherKinds (items : List Value) : items.length ≤ (furtherKinds items).length := by
  induction items with
  | nil => exact Nat.le_refl 0
  | cons v rest ih =>
      simp only [furtherKinds, List.length_cons, List.length_append]
      omega

/-- Where no operator comes, a chain ends. -/
theorem readLinks_apply (inner : Level) (rank : Rank) (e : Expr) (hc : c.current.kind.tightness = 0) :
    inner.readLinks rank e c = .ok (e, c) := by
  have hrest : inner.rest (.chain rank) e c = .ok (e, c) := inner.rest_apply (by omega)
  exact hrest

/-- What is read as an operand of a product is read as an expression where no operator comes. -/
theorem expression_of_sign (h : (within n).sign c = .ok (e, d))
    (hc : c.current.kind ≠ .keyword .notWord) (hd : d.current.kind.tightness = 0) :
    (within (n + 1)).expression c = .ok (e, d) := by
  have hproduct : (within n).product c = .ok (e, d) :=
    (bind_of_ok h).trans (readLinks_apply _ _ _ hd)
  have hsum : (within n).sum c = .ok (e, d) :=
    (bind_of_ok hproduct).trans (readLinks_apply _ _ _ hd)
  have hcomparison : (within n).comparison c = .ok (e, d) := by
    rw [comparison, bind_of_ok hsum, bind_of_ok (inFollows_apply d), peek_bind]
    cases hop : comparison? d.beforeIn d.current.kind with
    | none => rfl
    | some op =>
        have htight := tightness_of_comparison? hop
        omega
  have hnegation : (within n).negation c = .ok (e, d) :=
    (bind_of_ok (accept_apply_of_ne (.keyword .notWord) hc)).trans hcomparison
  have hconjunction : (within n).conjunction c = .ok (e, d) :=
    (bind_of_ok hnegation).trans (readLinks_apply _ _ _ hd)
  exact (bind_of_ok hconjunction).trans (readLinks_apply _ _ _ hd)

/-- What is read as a primary expression is read as an operand of a product where nothing opens. -/
theorem sign_of_primary {inner : Level} (h : inner.primary c = .ok (e, d))
    (hc : c.current.kind ≠ .mark .minus) (hd : d.current.kind.tightness = 0) :
    inner.sign c = .ok (e, d) := by
  have hrest : inner.rest .postfixed e d = .ok (e, d) := inner.rest_apply (by omega)
  rw [sign, bind_of_ok (accept_apply_of_ne (.mark .minus) hc)]
  exact (bind_of_ok h).trans hrest

theorem sign_of_stands (inner : Level) (h : Stands k e) (hc : c.Next k d)
    (hd : d.current.kind.tightness = 0) : inner.sign c = .ok (e, d) := by
  refine sign_of_primary ?_ (hc.current_ne ?_) hd
  · rw [primary, bind_of_ok (advance_apply hc)]
    cases h <;> rfl
  · cases h <;> nofun

/-- Whether a reader makes of the tokens of a value's quoted form the expression that they are, where
no expression goes on. -/
def ReadsBack (r : Reader Expr) (v : Value) : Prop :=
  ∀ c d : Cursor, c.Reaches v.literalKinds d → d.current.kind.tightness = 0 → r c = .ok (v.literal, d)

theorem ReadsBack.of_stands {inner : Level} (hkinds : v.literalKinds = [k])
    (h : Stands k v.literal) : ReadsBack inner.sign v := by
  intro c d hpass hd
  have hc : c.Next k d := by simpa [hkinds] using hpass
  exact sign_of_stands inner h hc hd

theorem ReadsBack.expression (h : ReadsBack (within n).sign v) :
    ReadsBack (within (n + 1)).expression v := by
  intro c d hpass hd
  have hnot := v.begins_literalKinds.current_ne hpass (k := .keyword .notWord) (by decide)
  exact expression_of_sign (h c d hpass hd) hnot hd

/-- An integer with a sign takes a level for the sign. -/
theorem readsBack_int (i : Int64) : ReadsBack (within (n + 1)).sign (.int i) := by
  by_cases hi : i.toInt < 0
  · intro c d hpass hd
    simp only [Value.literalKinds, if_pos hi, Cursor.reaches_cons_iff, Cursor.reaches_nil] at hpass
    obtain ⟨m, hminus, last, hint, rfl⟩ := hpass
    have hdigits : (within n).sign m = .ok (.int (-i), last) := sign_of_stands _ (.int _) hint hd
    rw [Value.literal, if_pos hi, sign, bind_of_ok (accept_apply (.mark .minus) hminus)]
    exact bind_of_ok hdigits
  · refine .of_stands (k := .int i) ?_ ?_
    · rw [Value.literalKinds, if_neg hi]
    · rw [Value.literal, if_neg hi]
      exact .int i

/-- An item that another follows is read up to the comma between them. -/
theorem ReadsBack.before_comma {r : Reader Expr} (h : ReadsBack r v)
    (hpass : c.Reaches (v.literalKinds ++ furtherKinds (w :: items)) d) :
    ∃ m m', r c = .ok (v.literal, m) ∧ m.Next (.mark .comma) m' ∧
      m'.Reaches (w.literalKinds ++ furtherKinds items) d ∧ m'.current.kind ≠ .mark .rightBracket := by
  rw [furtherKinds, Cursor.reaches_append_iff] at hpass
  obtain ⟨m, hv, hrest⟩ := hpass
  obtain ⟨m', hcomma, hw⟩ := Cursor.reaches_cons_iff.1 hrest
  have hne := (w.begins_literalKinds.append _).current_ne hw (k := .mark .rightBracket) (by decide)
  exact ⟨m, m', h c m hv hcomma.tightness_eq, hcomma, hw, hne⟩

theorem ReadsBack.before_bracket {r : Reader Expr} (h : ReadsBack r v)
    (hpass : c.Reaches (v.literalKinds ++ furtherKinds []) m) (hd : m.Next (.mark .rightBracket) d) :
    r c = .ok (v.literal, m) := by
  rw [furtherKinds, List.append_nil] at hpass
  exact h c m hpass hd.tightness_eq

/-- Items with commas between them are read up to the bracket that closes the list. -/
theorem items_apply {inner : Level} {room : Nat} (what : String)
    (hitems : ∀ w ∈ v :: items, ReadsBack inner.expression w) (hroom : items.length < room)
    (hpass : c.Reaches (v.literalKinds ++ furtherKinds items) m)
    (hd : m.Next (.mark .rightBracket) d) :
    inner.items .rightBracket what room c = .ok (literals (v :: items), d) := by
  induction items generalizing v c room with
  | nil =>
      obtain _ | room := room
      · cases hroom
      have hv := (hitems v List.mem_cons_self).before_bracket hpass hd
      rw [Level.items, bind_of_ok hv, bind_of_ok (accept_apply (.mark .rightBracket) hd)]
      rfl
  | cons w rest ih =>
      obtain _ | room := room
      · cases hroom
      obtain ⟨m₁, m₂, hv, hcomma, hrest, hw⟩ := (hitems v List.mem_cons_self).before_comma hpass
      have hclose : m₁.current.kind ≠ .mark .rightBracket := hcomma.current_ne (by simp)
      have hmore := ih (fun x hx => hitems x (List.mem_cons_of_mem v hx))
        (Nat.lt_of_succ_lt_succ hroom) hrest
      rw [Level.items, bind_of_ok hv, bind_of_ok (accept_apply_of_ne (.mark .rightBracket) hclose)]
      refine (bind_of_ok (expect_apply (.mark .comma) what hcomma)).trans ?_
      refine (bind_of_ok (accept_apply_of_ne (.mark .rightBracket) hw)).trans ?_
      exact bind_of_ok hmore

/-- What follows the bracket that opens a list is read as the items, of which there is at least one. -/
theorem listDisplay_apply {inner : Level} (hitems : ∀ w ∈ v :: items, ReadsBack inner.expression w)
    (hpass : c.Reaches (v.literalKinds ++ furtherKinds items) m)
    (hd : m.Next (.mark .rightBracket) d) :
    inner.listDisplay c = .ok (.list (literals (v :: items)), d) := by
  have hc : c.current.kind ≠ .mark .rightBracket :=
    (v.begins_literalKinds.append _).current_ne hpass (by decide)
  rw [listDisplay, bind_of_ok (accept_apply_of_ne (.mark .rightBracket) hc)]
  cases items with
  | nil =>
      have hv := (hitems v List.mem_cons_self).before_bracket hpass hd
      have hfor : m.current.kind ≠ .keyword .forWord := hd.current_ne (by simp)
      refine (bind_of_ok hv).trans ?_
      refine (bind_of_ok (accept_apply_of_ne (.keyword .forWord) hfor)).trans ?_
      exact bind_of_ok (accept_apply (.mark .rightBracket) hd)
  | cons w rest =>
      obtain ⟨m₁, m₂, hv, hcomma, hrest, hw⟩ := (hitems v List.mem_cons_self).before_comma hpass
      have hfor : m₁.current.kind ≠ .keyword .forWord := hcomma.current_ne (by simp)
      have hclose : m₁.current.kind ≠ .mark .rightBracket := hcomma.current_ne (by simp)
      have hroom : rest.length < m₂.later.length + 1 := by
        have hlength := hrest.length_le
        have hfurther := length_le_furtherKinds rest
        rw [List.length_append] at hlength
        omega
      have hmore := items_apply "',' or ']'" (fun x hx => hitems x (List.mem_cons_of_mem v hx))
        hroom hrest hd
      refine (bind_of_ok hv).trans ?_
      refine (bind_of_ok (accept_apply_of_ne (.keyword .forWord) hfor)).trans ?_
      refine (bind_of_ok (accept_apply_of_ne (.mark .rightBracket) hclose)).trans ?_
      refine (bind_of_ok (expect_apply (.mark .comma) _ hcomma)).trans ?_
      refine (bind_of_ok (accept_apply_of_ne (.mark .rightBracket) hw)).trans ?_
      exact (bind_of_ok (left_apply m₂)).trans (bind_of_ok hmore)

theorem readsBack_list {inner : Level} (hitems : ∀ w ∈ items, ReadsBack inner.expression w) :
    ReadsBack inner.sign (.list items) := by
  intro c d hpass hd
  cases items with
  | nil =>
      simp only [Value.literalKinds, Cursor.reaches_cons_iff, Cursor.reaches_nil] at hpass
      obtain ⟨m, hopen, _, hclose, rfl⟩ := hpass
      refine sign_of_primary ?_ (hopen.current_ne (by simp)) hd
      rw [primary, bind_of_ok (advance_apply hopen)]
      exact bind_of_ok (accept_apply (.mark .rightBracket) hclose)
  | cons v rest =>
      rw [Value.literalKinds, Cursor.reaches_cons_iff] at hpass
      obtain ⟨m, hopen, hpass⟩ := hpass
      obtain ⟨m', hall, hend⟩ := Cursor.reaches_append_iff.1 hpass
      obtain ⟨_, hclose, hnil⟩ := Cursor.reaches_cons_iff.1 hend
      obtain rfl := Cursor.reaches_nil.1 hnil
      refine sign_of_primary ?_ (hopen.current_ne (by simp)) hd
      rw [primary, bind_of_ok (advance_apply hopen)]
      exact listDisplay_apply hitems hall hclose

/-- A quoted form needs a level for each list around its innermost items, and one for a sign. -/
theorem Shown.readsBack {depth : Nat} (h : Shown depth v) (hn : depth < n) :
    ReadsBack (within n).sign v := by
  induction h generalizing n with
  | absent => exact .of_stands rfl .noneWord
  | bool b =>
      cases b with
      | true => exact .of_stands rfl .trueWord
      | false => exact .of_stands rfl .falseWord
  | @int depth i _ =>
      obtain _ | n := n
      · cases hn
      exact readsBack_int i
  | @str depth s _ => exact .of_stands rfl (.str s)
  | list _ ih =>
      obtain _ | n := n
      · cases hn
      exact readsBack_list fun w hw => (ih w hw (Nat.lt_of_succ_lt_succ hn)).expression

end Reading

/-! ### Evaluating the expression -/

/-- Whether an action returns `a` and changes nothing but the number of steps, if enough of them are
left. -/
def Returns {α : Type} (x : Action α) (a : α) : Prop :=
  ∃ steps, ∀ (limits : Limits) (m : Machine), m.steps + steps ≤ limits.maxSteps →
    x limits m = (.ok a, { m with steps := m.steps + steps })

section Evaluating

variable {α β : Type} {x : Action α} {a b : α} {v : Value} {items : List Value}

theorem returns_pure (a : α) : Returns (pure a) a := ⟨0, fun _ _ _ => rfl⟩

theorem returns_tick : Returns tick () := by
  refine ⟨1, fun limits m hm => ?_⟩
  rw [tick]
  exact if_neg (Nat.not_lt.2 hm)

theorem Returns.bind {f : α → Action β} {b : β} (h : Returns x a) (h' : Returns (f a) b) :
    Returns (x >>= f) b := by
  obtain ⟨before, hbefore⟩ := h
  obtain ⟨after, hafter⟩ := h'
  refine ⟨before + after, fun limits m hm => ?_⟩
  rw [bind_ok f (hbefore limits m (by omega)), hafter limits _ (by simp; omega)]
  simp [Nat.add_assoc]

/-- An action gives one result only. -/
theorem Returns.unique (h : Returns x a) (h' : Returns x b) : a = b := by
  obtain ⟨steps, hsteps⟩ := h
  obtain ⟨others, hothers⟩ := h'
  let limits : Limits := ⟨steps + others, 0⟩
  let m : Machine := .start (.ofSeed 0)
  have hsame := hsteps limits m (by simp [m, limits, Machine.start])
  rw [hothers limits m (by simp [m, limits, Machine.start])] at hsame
  exact (Except.ok.inj (Prod.mk.inj hsame).1).symm

theorem returns_evaluating (e : Expr) {x : Action Value} (h : Returns x v) :
    Returns (evaluating e x) v :=
  returns_tick.bind (h.bind ((returns_pure ()).bind (returns_pure v)))

/-- The greatest integer is one less than the opposite of the least, which has no opposite. -/
theorem negate_neg {n : Int64} (hn : n.toInt ≠ leastInt64) : negate (.int (-n)) = .ok (.int n) := by
  have hleast : leastInt64 ≤ n.toInt := Int64.le_toInt n
  have hgreatest : n.toInt ≤ greatestInt64 := Int.le_of_lt_add_one (Int64.toInt_lt n)
  have hrange : leastInt64 = -2 ^ 63 ∧ greatestInt64 = 2 ^ 63 - 1 := ⟨rfl, rfl⟩
  have hneg : (-n).toInt = -n.toInt := by
    have hopposite : -n = Int64.ofInt (-n.toInt) := by rw [Int64.ofInt_neg, Int64.ofInt_toInt]
    rw [hopposite, Int64.toInt_ofInt_of_le (by omega) (by omega)]
  simp [negate, exactInt, fitsInt, hneg, hleast, hgreatest]

theorem returns_int {n : Int64} (hn : n.toInt ≠ leastInt64) :
    Returns (Value.int n).literal.eval (.int n) := by
  have hliteral (i : Int64) : Returns (Expr.int i).eval (.int i) := by
    rw [Expr.eval]
    exact returns_evaluating _ (returns_pure _)
  rw [Value.literal]
  split
  · rw [Expr.eval]
    refine returns_evaluating _ ((hliteral (-n)).bind ?_)
    rw [negate_neg hn]
    exact returns_pure _
  · exact hliteral n

theorem returns_list (h : ∀ v ∈ items, Returns v.literal.eval v) :
    Returns (Value.list items).literal.eval (.list items) := by
  have hall : Returns (evalAll (literals items)) items := by
    induction items with
    | nil =>
        rw [literals, evalAll]
        exact returns_pure []
    | cons v rest ih =>
        rw [literals, evalAll]
        have hrest := ih fun w hw => h w (List.mem_cons_of_mem v hw)
        exact (h v List.mem_cons_self).bind (hrest.bind (returns_pure _))
  rw [Value.literal, Expr.eval]
  exact returns_evaluating _ (hall.bind (returns_pure _))

/-- The expression that the quoted form of a value is evaluates to the value. -/
theorem Shown.returns {depth : Nat} (h : Shown depth v) : Returns v.literal.eval v := by
  induction h with
  | int hn => exact returns_int hn
  | list _ ih => exact returns_list ih
  | _ =>
      rw [Value.literal, Expr.eval]
      exact returns_evaluating _ (returns_pure _)

/-- Assigning an expression to a variable binds what the expression gives. -/
theorem run_assignment {e : Expr} (h : Returns e.eval v) (line : Nat) (name : String) :
    ∃ steps, ∀ (limits : Limits) (m : Machine), m.steps + steps ≤ limits.maxSteps →
      runProgram [.mk line (.assign (.var name) e)] limits m =
        (.ok (), ({ m with line, steps := m.steps + steps } : Machine).bind name v) := by
  obtain ⟨first, htick⟩ := returns_tick
  obtain ⟨steps, hsteps⟩ := h
  refine ⟨first + steps, fun limits m hm => ?_⟩
  have hbegun : enterLine line limits m = (.ok (), { m with line }) := rfl
  have hstored (m : Machine) : ((Expr.var name).store v : Action Unit) limits m =
      (.ok (), m.bind name v) := by
    rw [Expr.store]
    rfl
  have hticked := htick limits { m with line } (by simp; omega)
  have hvalue := hsteps limits { m with line, steps := m.steps + first } (by simp; omega)
  have hrun : ((Stmt.mk line (.assign (.var name) e)).run : Action Flow) limits m =
      (.ok .next, ({ m with line, steps := m.steps + (first + steps) } : Machine).bind name v) := by
    rw [Stmt.run, host_enterLine, host_tick, bind_ok _ hbegun, bind_ok _ hticked, Act.run,
      bind_ok _ hvalue, ← Nat.add_assoc]
    exact bind_ok _ (hstored _)
  have hall : (runAll [.mk line (.assign (.var name) e)] : Action Flow) limits m =
      (.ok .next, ({ m with line, steps := m.steps + (first + steps) } : Machine).bind name v) := by
    rw [runAll, bind_ok _ hrun]
    rfl
  rw [runProgram, perform, bind_ok _ hall]
  rfl

end Evaluating

/-! ### Assignments of what is displayed -/

section Assigning

variable {c d m m' : Cursor} {inner : Level} {name : String} {value : Expr} {depth n : Nat} {v : Value}

theorem simpleStatement_apply (htarget : inner.expression c = .ok (.var name, m))
    (hassign : m.Next (.mark .assign) m') (hvalue : inner.expression m' = .ok (value, d)) :
    inner.simpleStatement c = .ok (.assign (.var name) value, d) := by
  have hassigned : (do
      let _ ← advance
      unless (Expr.var name).isPlace do
        fail .badTarget
      return Act.assign (.var name) (← inner.expression) : Reader Act) m =
      .ok (.assign (.var name) value, d) :=
    (bind_of_ok (advance_apply hassign)).trans (bind_of_ok hvalue)
  rw [simpleStatement, bind_of_ok htarget, peek_bind, hassign.current_eq]
  exact hassigned

/-- A script of one assignment is read as such. -/
theorem readWithin_assignment (hname : c.Next (.name name) m) (hassign : m.Next (.mark .assign) m')
    (hvalue : (within (n + 1)).expression m' = .ok (value, d)) {last : Cursor}
    (hend : d.Next .newline last) (hlast : last.current.kind = .eof) :
    readWithin (n + 1) c = .ok ([.mk c.current.line (.assign (.var name) value)], last) := by
  have hstart : skipNewlines c = .ok ((), c) :=
    skipNewlines_apply newlines_nil (Cursor.passes_nil.2 rfl) (hname.current_ne (by simp))
  have hsign : (within n).sign c = .ok (.var name, m) :=
    sign_of_stands _ (.name name) hname hassign.tightness_eq
  have htarget : (within (n + 1)).expression c = .ok (.var name, m) :=
    expression_of_sign hsign (hname.current_ne (by simp)) hassign.tightness_eq
  have hreach : 0 < c.current.kind.reach := by
    rw [hname.current_eq]
    exact Nat.succ_pos 7
  have hact : (within (n + 1)).act false c = .ok (.assign (.var name) value, d) :=
    (act_eq_simpleStatement _ hreach).trans (simpleStatement_apply htarget hassign hvalue)
  have hstatement : (within (n + 1)).statement false c =
      .ok (.mk c.current.line (.assign (.var name) value), d) := by
    have hline : Reader.line c = .ok (c.current.line, c) := rfl
    rw [statement, bind_of_ok hline]
    exact bind_of_ok hact
  have hended : (within (n + 1)).endedStatement false c =
      .ok (.mk c.current.line (.assign (.var name) value), last) := by
    have hstops : last.Stops := .inr hlast
    rw [endedStatement, bind_of_ok hstatement, bind_of_ok (endOfStatement_apply hend)]
    exact bind_of_ok hstops.skip
  have hfirst := TokenKind.trails_of_reach_pos hreach
  rw [readWithin, bind_of_ok hstart, bind_of_ok (left_apply c), loops_script _ _ c hfirst,
    bind_of_ok hended]
  exact bind_of_ok (script_eof _ _ hlast)

theorem tokenize_assignment {cs : List Char} {ks : List TokenKind} (h : Spells cs ks) :
    tokenize ("v = " ++ String.ofList cs) = .ok
      ((TokenKind.name "v" :: .mark .assign :: ks).map (Token.mk 1) ++
        [⟨1, .newline⟩, ⟨1, .eof⟩]) := by
  have hstart : LexState.start.steps "v = ".toList =
    .ok (LexState.start.puts [.name "v", .mark .assign]) := rfl
  obtain ⟨t, hsteps, hclose, -⟩ := h (LexState.start.puts [.name "v", .mark .assign]) rfl
  obtain ⟨hline, htokens⟩ := LexState.start.puts_eq ([.name "v", .mark .assign] ++ ks)
  rw [← LexState.puts_append] at hclose
  generalize LexState.start.puts ([.name "v", .mark .assign] ++ ks) = s
    at hclose hline htokens
  have hfinish : t.finish = .ok (⟨s.line, .eof⟩ :: ⟨s.line, .newline⟩ :: s.tokens).reverse := by
    rw [LexState.finish, hclose]
    rfl
  rw [tokenize, String.toList_append, LexState.steps_of_ok hstart, String.toList_ofList, hsteps]
  refine hfinish.trans ?_
  simp [hline, htokens, LexState.start]

/-- The tokens of an assignment are read as such, if the expression is. -/
theorem readWithin_of_tokens {ks : List TokenKind}
    (hread : ∀ c d : Cursor, c.Reaches ks d → d.current.kind.tightness = 0 →
      (within (n + 1)).expression c = .ok (value, d))
    (hc : c.tokens = (TokenKind.name "v" :: .mark .assign :: ks).map (Token.mk 1) ++
      [⟨1, .newline⟩, ⟨1, .eof⟩]) :
    ∃ last, readWithin (n + 1) c = .ok ([.mk 1 (.assign (.var "v") value)], last) := by
  let last : Cursor := ⟨⟨1, .eof⟩, []⟩
  let d : Cursor := ⟨⟨1, .newline⟩, [⟨1, .eof⟩]⟩
  have hend : d.Next .newline last := ⟨1, rfl⟩
  have hpass : c.Reaches (.name "v" :: .mark .assign :: ks) d :=
    ⟨_, by simp [kinds, Function.comp_def], hc⟩
  simp only [Cursor.reaches_cons_iff] at hpass
  obtain ⟨m, hname, m', hassign, hkinds⟩ := hpass
  have hvalue := hread m' d hkinds rfl
  have hassigned := readWithin_assignment hname hassign hvalue hend rfl
  have hline : c.current.line = 1 := by
    have hcurrent := (List.cons.inj hc).1
    rw [hcurrent]
  rw [hline] at hassigned
  exact ⟨last, hassigned⟩

theorem parse_assignment {cs : List Char} {ks : List TokenKind} (h : Spells cs ks)
    (hread : ∀ c d : Cursor, c.Reaches ks d → d.current.kind.tightness = 0 →
      (within maxNesting).expression c = .ok (value, d)) :
    parse ("v = " ++ String.ofList cs) = .ok [.mk 1 (.assign (.var "v") value)] := by
  obtain ⟨c, hc, -, hparse⟩ := cursor_of_tokenize (tokenize_assignment h)
  obtain ⟨last, hassigned⟩ := readWithin_of_tokens hread hc
  have hread : readWithin maxNesting c = _ := hassigned
  rw [hparse, hread]
  rfl

/-- The assignment of what is displayed is read as that of the expression. -/
theorem parse_displayed (h : Shown 62 v) :
    parse ("v = " ++ v.repr) = .ok [.mk 1 (.assign (.var "v") v.literal)] := by
  have hparse := parse_assignment h.spells (h.readsBack (Nat.lt_succ_self 62)).expression
  rwa [String.ofList_toList] at hparse

end Assigning

/-- A value is bound by the assignment of what is displayed of it: the text is a script, and running
it with enough steps binds exactly that value, if its lists are nested to a depth of 62 at most. So no
two such values are displayed alike. -/
theorem displayed_values_read_back {v : Value} (h : Shown 62 v) :
    (∃ program steps, parse ("v = " ++ v.repr) = .ok program ∧
      ∀ (limits : Limits) (m : Machine), m.steps + steps ≤ limits.maxSteps →
        ∃ m', runProgram program limits m = (.ok (), m') ∧ m'.get? "v" = some v) ∧
    (∀ other, Shown 62 other → other.repr = v.repr → other = v) := by
  refine ⟨?_, fun other hother hrepr => ?_⟩
  · obtain ⟨steps, hrun⟩ := run_assignment h.returns 1 "v"
    refine ⟨_, steps, parse_displayed h, fun limits m hm => ⟨_, hrun limits m hm, ?_⟩⟩
    simp [Machine.get?, Machine.bind, Dictionary.get?_insert]
  · have hparse := parse_displayed hother
    rw [hrepr, parse_displayed h] at hparse
    have hliteral : v.literal = other.literal := by simpa using hparse
    have hreturns := h.returns
    rw [hliteral] at hreturns
    exact hother.returns.unique hreturns

theorem displayed_values_read_back_nested :
    let v := Value.list [.str "\\m 'a' \"b\" \\\\ é", .list [.int (-7), .list []], .bool true, .absent]
    Shown 62 v ∧ ∃ program steps, parse ("v = " ++ v.repr) = .ok program ∧
      ∀ (limits : Limits) (m : Machine), m.steps + steps ≤ limits.maxSteps →
        ∃ m', runProgram program limits m = (.ok (), m') ∧ m'.get? "v" = some v := by
  intro v
  have hv : Shown 62 v := by
    refine .list fun w hw => ?_
    simp at hw
    rcases hw with rfl | rfl | rfl | rfl
    · exact .str (by decide)
    · refine .list fun x hx => ?_
      simp at hx
      rcases hx with rfl | rfl
      · exact .int (by decide)
      · exact .list nofun
    · exact .bool true
    · exact .absent
  exact ⟨hv, (displayed_values_read_back hv).1⟩

end PromptWeave.Script
