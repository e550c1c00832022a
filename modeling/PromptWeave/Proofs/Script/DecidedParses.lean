import PromptWeave.Proofs.Script.Alignment
import PromptWeave.Proofs.Script.Deciding

/-!
# The parser decides by the current token

All readers of the parser are decided by the tokens that they pass over and the one behind them, from those
of the innermost level outwards.
-/
namespace PromptWeave.Script

open Reader

/-! ### Expressions -/

namespace Level

/-- Whether the readers of a level are decided by the tokens that they pass over and the one behind. -/
structure Decisive (inner : Level) : Prop where
  sound : inner.Sound
  operand (rank : Rank) : Decides Anywhere (inner.operand rank)
  links (rank : Rank) (before : Expr) : Decides Anywhere (inner.links rank before)
  postfixed (target : Expr) {k : TokenKind} : opensPostfix k = true →
    Takes k Anywhere (inner.postfixed target)
  postfixes (target : Expr) : Decides Anywhere (inner.postfixes target)
  braced (inLoop : Bool) : Decides Anywhere (inner.braced inLoop)

namespace Decisive

theorem shut : shut.Decisive where
  sound := .shut
  operand _ := decides_fail rfl
  links _ _ := decides_fail rfl
  postfixed _ _ _ := ⟨fun hc _ => decides_fail rfl _ hc, nofun⟩
  postfixes _ := decides_fail rfl
  braced _ := decides_fail rfl

variable {inner : Level} (hinner : inner.Decisive)

include hinner

theorem expression : Decides Anywhere inner.expression :=
  (hinner.operand .disjunction).bind fun e => hinner.links .disjunction e

end Decisive

variable (inner : Level)

/-- The items behind a comma, given the one before it. -/
def moreItems (close : Mark) (what : String) (first : Expr) (room : Nat) : Reader (List Expr) := do
  if ← accept (.mark close) then
    return [first]
  return first :: (← inner.items close what room)

/-- What comes behind the first of some items. -/
def itemsBehind (close : Mark) (what : String) (first : Expr) (room : Nat) : Reader (List Expr) := do
  if ← accept (.mark close) then
    return [first]
  expect (.mark .comma) what
  inner.moreItems close what first room

namespace Decisive

variable {inner : Level} {close : Mark} {what : String} {first : Expr} {room : Nat} {c : Cursor}

theorem namesEnd_moreItems (h : NamesEnd (inner.items close what room)) :
    NamesEnd (inner.moreItems close what first room) := by
  have hclose : Decides Anywhere (accept (.mark close)) := decides_accept (.mark close)
  have hpure {es : List Expr} : Decides Anywhere (pure es : Reader (List Expr)) := decides_pure
  exact hclose.namesEnd.bind fun _ => namesEnd_ite hpure.namesEnd (h.bind fun _ => hpure.namesEnd)

theorem namesEnd_itemsBehind (hwhat : (what == "a name") = false)
    (h : NamesEnd (inner.items close what room)) : NamesEnd (inner.itemsBehind close what first room) := by
  have hclose : Decides Anywhere (accept (.mark close)) := decides_accept (.mark close)
  have hcomma : Decides Anywhere (expect (.mark .comma) what) := decides_expect (.mark .comma) hwhat
  have hpure {es : List Expr} : Decides Anywhere (pure es : Reader (List Expr)) := decides_pure
  refine hclose.namesEnd.bind fun _ => namesEnd_ite hpure.namesEnd ?_
  exact hcomma.namesEnd.bind fun _ => namesEnd_moreItems h

theorem decided_moreItems (hend : ∀ n, NamesEnd (inner.items close what n)) (hc : c.Ended)
    (hroom : c.later.length < room) (h : ∀ d, d.Ended → d.later.length < room →
      Decided Anywhere d (inner.items close what) (inner.items close what room d)) :
    Decided Anywhere c (inner.moreItems close what first) (inner.moreItems close what first room c) := by
  have hclose : Decides Anywhere (accept (.mark close)) := decides_accept (.mark close)
  have hpure {es : List Expr} : Decides Anywhere (pure es : Reader (List Expr)) := decides_pure
  refine hclose.bindRoom (m := 0) (t := fun b n => if b = true then pure [first] else
    do return first :: (← inner.items close what n)) hc room (fun _ _ => (hclose c hc).length_le) ?_ ?_
  · exact fun b n => namesEnd_ite hpure.namesEnd ((hend n).bind fun _ => hpure.namesEnd)
  · intro b d hd hlength
    cases b with
    | true => exact hpure d hd
    | false => exact (h d hd (by omega)).andThen hd fun _ => hpure

theorem decided_itemsBehind (hwhat : (what == "a name") = false)
    (hend : ∀ n, NamesEnd (inner.items close what n)) (hc : c.Ended)
    (hroom : c.later.length < room + 1) (h : ∀ d, d.Ended → d.later.length < room →
      Decided Anywhere d (inner.items close what) (inner.items close what room d)) :
    Decided Anywhere c (fun n => inner.itemsBehind close what first (n - 1))
      (inner.itemsBehind close what first room c) := by
  have hclose : Decides Anywhere (accept (.mark close)) := decides_accept (.mark close)
  have hcomma : Decides Anywhere (expect (.mark .comma) what) := decides_expect (.mark .comma) hwhat
  have hpure {es : List Expr} : Decides Anywhere (pure es : Reader (List Expr)) := decides_pure
  refine hclose.bindRoom (m := 0) (t := fun b n => if b = true then pure [first] else
    do expect (.mark .comma) what; inner.moreItems close what first (n - 1)) hc (room + 1)
    (fun _ _ => (hclose c hc).length_le) ?_ ?_
  · exact fun b n => namesEnd_ite hpure.namesEnd
      (hcomma.namesEnd.bind fun _ => namesEnd_moreItems (hend _))
  · intro b d hd hlength
    cases b with
    | true => exact hpure d hd
    | false =>
        exact hcomma.bindRoom (m := 1) (t := fun _ => inner.moreItems close what first) hd room
          (fun _ _ => length_of_expect (.mark .comma) hd) (fun _ n => namesEnd_moreItems (hend n))
          fun _ e he hlength => decided_moreItems hend he (by omega) h

variable (hinner : inner.Decisive)

include hinner

theorem namesEnd_items (hwhat : (what == "a name") = false) (room : Nat) :
    NamesEnd (inner.items close what room) := by
  induction room with
  | zero => exact namesEnd_unexpected
  | succ room ih => exact hinner.expression.namesEnd.bind fun _ => namesEnd_itemsBehind hwhat ih

/-- A list of items is decided where there is room for all tokens that are left. -/
theorem items (hwhat : (what == "a name") = false) (hc : c.Ended) (hroom : c.later.length < room) :
    Decided Anywhere c (inner.items close what) (inner.items close what room c) := by
  induction room generalizing c with
  | zero => exact absurd hroom (Nat.not_lt_zero _)
  | succ room ih =>
      have hend (n : Nat) : NamesEnd (inner.items close what n) := hinner.namesEnd_items hwhat n
      have hall := hinner.expression.bindRoom (m := 0) (Z := Anywhere)
        (t := fun first n => inner.itemsBehind close what first (n - 1)) hc (room + 1)
        (fun _ _ => (hinner.expression c hc).length_le) (fun _ n => namesEnd_itemsBehind hwhat (hend _))
        fun first d hd hlength => decided_itemsBehind hwhat hend hd (by omega) fun e he => ih he
      refine hall.congr ?_
      rintro (_ | n) c' hn -
      · cases hn
      · rfl

theorem arguments : Decides Anywhere inner.arguments := by
  refine (decides_accept (.mark .rightParen)).bind fun _ => decides_ite decides_pure fun c hc => ?_
  exact Decided.left (hinner.items rfl hc (Nat.lt_succ_self _))

end Decisive

/-- The end of a slice and the bracket behind it, where the bracket is looked for first. -/
theorem bound_expect_eq (s : Option Expr → Expr) :
    (do let stop ← inner.bound .rightBracket; expect (.mark .rightBracket) "']'"; return s stop) = (do
      if ← accept (.mark .rightBracket) then
        return s none
      let stop ← inner.expression
      expect (.mark .rightBracket) "']'"
      return s (some stop)) := by
  funext c
  have hk := TokenKind.Fixed.mark .rightBracket
  rw [Level.bound, bind_assoc, peek_bind]
  by_cases hcurrent : c.current.kind = .mark .rightBracket
  · rw [if_pos (hk.beq_iff_eq.2 hcurrent), bind_of_ok (accept_of_eq hk hcurrent), pure_bind,
      bind_of_ok (expect_of_eq hk hcurrent)]
    rfl
  · rw [if_neg (by rwa [hk.beq_iff_eq]), bind_of_ok (accept_apply_of_ne hk hcurrent), bind_assoc]
    rfl

/-- An index or a slice, where the colon is looked for before the first bound. -/
theorem indexOrSlice_eq (target : Expr) : inner.indexOrSlice target = (do
    if ← accept (.mark .colon) then
      let stop ← inner.bound .rightBracket
      expect (.mark .rightBracket) "']'"
      return .slice target none stop
    let i ← inner.expression
    if ← accept (.mark .colon) then
      let stop ← inner.bound .rightBracket
      expect (.mark .rightBracket) "']'"
      return .slice target (some i) stop
    expect (.mark .rightBracket) "']'"
    return .index target i) := by
  funext c
  have hk := TokenKind.Fixed.mark .colon
  rw [Level.indexOrSlice, Level.bound, bind_assoc, peek_bind]
  by_cases hcurrent : c.current.kind = .mark .colon
  · rw [if_pos (hk.beq_iff_eq.2 hcurrent), bind_of_ok (accept_of_eq hk hcurrent), pure_bind,
      bind_of_ok (accept_of_eq hk hcurrent)]
    rfl
  · rw [if_neg (by rwa [hk.beq_iff_eq]), bind_of_ok (accept_apply_of_ne hk hcurrent), bind_assoc]
    rfl

namespace Decisive

variable {inner : Level} {c : Cursor} (hinner : inner.Decisive)

include hinner

theorem sliceEnd (s : Option Expr → Expr) : Decides Anywhere
    (do let stop ← inner.bound .rightBracket; expect (.mark .rightBracket) "']'"; return s stop) := by
  have hbracket : Decides Anywhere (expect (.mark .rightBracket) "']'") :=
    decides_expect (.mark .rightBracket) rfl
  rw [bound_expect_eq]
  refine (decides_accept (.mark .rightBracket)).bind fun _ => decides_ite decides_pure ?_
  exact hinner.expression.bind fun _ => hbracket.bind fun _ => decides_pure

theorem indexOrSlice (target : Expr) : Decides Anywhere (inner.indexOrSlice target) := by
  rw [indexOrSlice_eq]
  refine (decides_accept (.mark .colon)).bind fun _ => decides_ite (hinner.sliceEnd _) ?_
  refine hinner.expression.bind fun i => ?_
  refine (decides_accept (.mark .colon)).bind fun _ => decides_ite (hinner.sliceEnd _) ?_
  exact (decides_expect (.mark .rightBracket) rfl).bind fun _ => decides_pure

theorem listDisplay : Decides Anywhere inner.listDisplay := by
  have hbracket : Decides Anywhere (expect (.mark .rightBracket) "']'") :=
    decides_expect (.mark .rightBracket) rfl
  refine (decides_accept (.mark .rightBracket)).bind fun _ => decides_ite decides_pure ?_
  refine hinner.expression.bind fun first => ?_
  refine (decides_accept (.keyword .forWord)).bind fun _ => decides_ite ?_ ?_
  · refine decides_identifier.bind fun name => ?_
    refine (decides_expect (.keyword .inWord) rfl).bind fun _ => hinner.expression.bind fun source => ?_
    refine (decides_accept (.keyword .ifWord)).bind fun _ => ?_
    dsimp only
    split
    · simp only [← bind_pure_comp, bind_assoc, pure_bind]
      exact hinner.expression.bind fun condition => hbracket.bind fun _ => decides_pure
    · exact hbracket.bind fun _ => decides_pure
  refine (decides_accept (.mark .rightBracket)).bind fun _ => decides_ite decides_pure ?_
  refine (decides_expect (.mark .comma) rfl).bind fun _ => ?_
  refine (decides_accept (.mark .rightBracket)).bind fun _ => decides_ite decides_pure fun c hc => ?_
  have hitems : Decided Anywhere c (inner.items .rightBracket "',' or ']'")
      (inner.items .rightBracket "',' or ']'" (c.later.length + 1) c) :=
    hinner.items rfl hc (Nat.lt_succ_self _)
  have hlist := hitems.andThen hc fun items => decides_pure (Z := Anywhere) (a := Expr.list (first :: items))
  exact Decided.left hlist

theorem primary : Decides Anywhere inner.primary := by
  refine decides_advance (f := .unexpected) (fun _ => rfl) (fun _ => rfl) rfl fun k => ?_
  split
  case h_8 =>
    exact .inl (hinner.expression.bind fun e =>
      (decides_expect (.mark .rightParen) rfl).bind fun _ => decides_pure)
  case h_9 => exact .inl hinner.listDisplay
  case h_10 => exact .inr rfl
  all_goals exact .inl decides_pure

theorem readPostfixed (target : Expr) {k : TokenKind} (hk : opensPostfix k = true) :
    Takes k Anywhere (inner.readPostfixed target) := by
  unfold opensPostfix at hk
  split at hk
  · exact takes_advance (by simp) (hinner.arguments.bind fun _ => decides_pure)
  · exact takes_advance (by simp) (hinner.indexOrSlice target)
  · exact takes_advance (by simp) (decides_identifier.bind fun _ => decides_pure)
  · cases hk

theorem readPostfixes (target : Expr) : Decides Anywhere (inner.readPostfixes target) := by
  refine Decides.peek (r := pure target) decides_pure rfl fun k => ?_
  by_cases hk : opensPostfix k = true
  · rw [if_pos hk]
    exact .inr ((hinner.postfixed target hk).bind fun e => hinner.postfixes e)
  · exact .inl (if_neg hk)

theorem sign : Decides Anywhere inner.sign := by
  refine (decides_accept (.mark .minus)).bind fun _ => decides_ite ?_ ?_
  · exact (hinner.operand .product).bind fun _ => decides_pure
  · exact hinner.primary.bind fun e => hinner.readPostfixes e

theorem readLinks (rank : Rank) (before : Expr) : Decides Anywhere (inner.readLinks rank before) := by
  refine Decides.peek (r := pure before) decides_pure (by cases rank <;> rfl) fun k => ?_
  cases hjoin : rank.join? k with
  | none => exact .inl rfl
  | some join =>
      have hk : k ≠ .eof := by
        rintro rfl
        cases rank <;> cases hjoin
      refine .inr (takes_advance hk ((hinner.operand rank).bind fun after => ?_))
      exact hinner.links rank (join before after)

theorem product : Decides Anywhere inner.product := hinner.sign.bind fun e => hinner.readLinks .product e

theorem sum : Decides Anywhere inner.sum := hinner.product.bind fun e => hinner.readLinks .sum e

omit hinner in
/-- Where no comparison is found, none is found where the tokens look the same. -/
theorem comparison?_of_follows {c' : Cursor} (h : comparison? c.beforeIn c.current.kind = none)
    (hfollows : c.Follows c') : comparison? c'.beforeIn c'.current.kind = none := by
  rcases hfollows with ⟨hkind, hnot⟩ | heof
  · cases hop : comparison? c'.beforeIn c'.current.kind with
    | none => rfl
    | some op =>
        have hsome : comparison? c.beforeIn c.current.kind = some op := by
          rcases comparison?_eq_some_iff.1 hop with ⟨hne, hcompares⟩ | ⟨rfl, hword, hin⟩
          · exact comparison?_eq_some_iff.2 (.inl ⟨hne, hkind ▸ hcompares⟩)
          · have hword' := hkind.symm.trans hword
            exact comparison?_eq_some_iff.2 (.inr ⟨rfl, hword', hnot hword' hin⟩)
        cases h.symm.trans hsome
  · rw [heof]
    rfl

/-- A comparison is found by one token, or by the word `not` and the token behind it. -/
theorem comparison : Decides Anywhere inner.comparison := by
  refine hinner.sum.bind fun left c hc => ?_
  have hright (op : BinaryOp) : Decides Anywhere (do return Expr.binary op left (← inner.sum)) :=
    hinner.sum.bind fun _ => decides_pure
  rw [bind_of_ok (inFollows_apply c), peek_bind]
  cases hcompares : comparison? c.beforeIn c.current.kind with
  | none =>
      have hnone : Decided Anywhere c (fun _ => pure left) ((pure left : Reader Expr) c) := decides_pure c hc
      refine hnone.congr fun n c' _ hfollows => ?_
      rw [bind_of_ok (inFollows_apply c'), peek_bind, comparison?_of_follows hcompares hfollows]
  | some op =>
      have heof : c.current.kind ≠ .eof := by
        intro heof
        rw [heof] at hcompares
        cases hcompares
      have hfirst := hc.passes_behind heof
      rcases comparison?_eq_some_iff.1 hcompares with ⟨hne, hop⟩ | ⟨rfl, hnot, hin⟩
      · have honly : (op == .isNotIn) = false := by simpa using hne
        dsimp only
        rw [bind_of_ok (advance_eq c), honly]
        refine (hright op c.behind (hc.of_passes hfirst)).past hfirst fun n c' d' _ hpass _ =>
          ⟨n, Nat.le_add_right _ _, ?_⟩
        have hop' : comparison? c'.beforeIn c'.current.kind = some op := by
          rw [hpass.current_eq]
          exact comparison?_eq_some_iff.2 (.inl ⟨hne, hop⟩)
        rw [bind_of_ok (inFollows_apply c'), peek_bind, hop']
        dsimp only
        rw [bind_of_ok (advance_eq c'), honly, Cursor.behind_eq_of_passes hpass]
        rfl
      · -- The word `in` has been looked at already, so both words are passed over.
        have hword := c.kind_behind hin
        have hbehind := hc.of_passes hfirst
        have hsecond := hbehind.passes_behind (by simp [hword])
        have hboth := hfirst.append hsecond
        dsimp only
        rw [bind_of_ok (advance_eq c)]
        simp only [beq_self_eq_true, if_true]
        rw [bind_of_ok (advance_eq c.behind)]
        refine (hright .isNotIn _ (hc.of_passes hboth)).past hboth fun n c' d' _ hpass _ =>
          ⟨n, Nat.le_add_right _ _, ?_⟩
        obtain ⟨m', hm', hd'⟩ := Cursor.passes_append_iff.1 hpass
        have hop' : comparison? c'.beforeIn c'.current.kind = some .isNotIn := by
          refine comparison?_eq_some_iff.2 (.inr ⟨rfl, by rw [hm'.current_eq, hnot], ?_⟩)
          rw [Cursor.beforeIn_iff_of_passes hm', hd'.current_eq, hword]
        rw [bind_of_ok (inFollows_apply c'), peek_bind, hop']
        dsimp only
        rw [bind_of_ok (advance_eq c')]
        simp only [beq_self_eq_true, if_true]
        rw [Cursor.behind_eq_of_passes hm', bind_of_ok (advance_eq m'), Cursor.behind_eq_of_passes hd']

theorem negation : Decides Anywhere inner.negation := by
  refine (decides_accept (.keyword .notWord)).bind fun _ => decides_ite ?_ hinner.comparison
  exact (hinner.operand .conjunction).bind fun _ => decides_pure

theorem conjunction : Decides Anywhere inner.conjunction :=
  hinner.negation.bind fun e => hinner.readLinks .conjunction e

theorem readOperand (rank : Rank) : Decides Anywhere (inner.readOperand rank) := by
  cases rank with
  | disjunction => exact hinner.conjunction
  | conjunction => exact hinner.negation
  | sum => exact hinner.product
  | product => exact hinner.sign

end Decisive
end Level

/-! ### Ends of lines -/

namespace Cursor

variable {c c' d d' : Cursor} {gap : List Token}

theorem exists_skipNewlines (c : Cursor) : ∃ d, skipNewlines c = .ok ((), d) := by
  suffices h : ∀ later current, ∃ d, skipNewlines.go later current = .ok ((), d) from h c.later c.current
  intro later
  induction later with
  | nil => exact fun current => ⟨_, rfl⟩
  | cons next later ih =>
      intro current
      rw [skipNewlines.go]
      split
      · exact ih next
      · exact ⟨_, rfl⟩

/-- Before a script that has not ended, skipping goes on to another token. -/
theorem Ended.skip {c : Cursor} (hc : c.Ended) :
    ∃ gap d, Newlines gap ∧ c.Passes gap d ∧ d.current.kind ≠ .newline := by
  by_cases hk : c.current.kind = .newline
  · have hne : c.current.kind ≠ .eof := by
      rw [hk]
      simp
    have hfirst := hc.passes_behind hne
    have hlength := hc.length_behind hne
    obtain ⟨gap, d, hgap, hpass, hd⟩ := (hc.of_passes hfirst).skip
    exact ⟨c.current :: gap, d, newlines_cons.2 ⟨hk, hgap⟩, hfirst.cons hpass, hd⟩
  · exact ⟨[], c, newlines_nil, passes_nil.2 rfl, hk⟩
termination_by c.later.length

/-- What comes behind ends of lines is found where they end. -/
theorem beforeArm_iff (hgap : Newlines gap) (h : c.Passes gap d) (hd : d.current.kind ≠ .newline) :
    c.BeforeArm ↔ d.current.kind = .keyword .elifWord ∨ d.current.kind = .keyword .elseWord := by
  refine ⟨?_, fun harm => ⟨gap, d, hgap, h, harm⟩⟩
  rintro ⟨other, e, hother, he, harm⟩
  have hne : e.current.kind ≠ .newline := by
    rcases harm with harm | harm <;> simp [harm]
  have heq := (skipNewlines_apply hgap h hd).symm.trans (skipNewlines_apply hother he hne)
  cases heq
  exact harm

/-- Where the tokens behind ends of lines look the same, no arm comes up. -/
theorem noNewArm (hgap : Newlines gap) (h : c.Passes gap d) (hd : d.current.kind ≠ .newline)
    (h' : c'.Passes gap d') (hfollows : d.Follows d') : NoNewArm c c' := by
  have hd' : d'.current.kind ≠ .newline := by
    rcases hfollows.kind with hkind | hkind <;> rw [hkind]
    · exact hd
    · simp
  rw [NoNewArm, beforeArm_iff hgap h hd, beforeArm_iff hgap h' hd']
  rcases hfollows.kind with hkind | hkind
  · rw [hkind]
    exact id
  · rw [hkind]
    rintro (h | h) <;> cases h

end Cursor

theorem decides_skipNewlines : Decides Anywhere skipNewlines := by
  intro c hc
  obtain ⟨gap, d, hgap, hpass, hd⟩ := hc.skip
  rw [skipNewlines_apply hgap hpass hd]
  refine ⟨gap, hpass, fun _ c' d' _ hpass' hfollows _ => skipNewlines_apply hgap hpass' ?_⟩
  rcases hfollows.kind with hkind | hkind <;> rw [hkind]
  · exact hd
  · simp

namespace Level

/-- An arm of a choice behind its word, and the arms behind it. -/
def armAndMore (inner : Level) (inLoop : Bool) (room : Nat) : Reader Arms := do
  let arm ← inner.guarded inLoop
  return .when arm.1 arm.2 (← inner.moreArms inLoop room)

/-- What comes behind the word `else`. -/
def behindElse (inner : Level) (inLoop : Bool) (room : Nat) : Reader Arms := do
  if ← accept (.keyword .ifWord) then
    inner.armAndMore inLoop room
  else
    return .otherwise (← inner.block inLoop)

variable {inner : Level} {inLoop : Bool} {room : Nat} {c d : Cursor} {gap : List Token}

section MoreArms

variable (hgap : Newlines gap) (hpass : c.Passes gap d) (hd : d.current.kind ≠ .newline)

include hgap hpass

theorem moreArms_of_elif (h : d.current.kind = .keyword .elifWord) :
    inner.moreArms inLoop (room + 1) c = inner.armAndMore inLoop room d.behind := by
  have hskip := skipNewlines_apply hgap hpass (by simp [h])
  rw [Level.moreArms, bind_of_ok (a := c) rfl, bind_of_ok hskip,
    bind_of_ok (accept_of_eq (.keyword .elifWord) h)]
  rfl

theorem moreArms_of_else (h : d.current.kind = .keyword .elseWord) :
    inner.moreArms inLoop (room + 1) c = inner.behindElse inLoop room d.behind := by
  have hskip := skipNewlines_apply hgap hpass (by simp [h])
  rw [Level.moreArms, bind_of_ok (a := c) rfl, bind_of_ok hskip,
    bind_of_ok (accept_apply_of_ne (.keyword .elifWord) (by simp [h]))]
  simp only [Bool.false_eq_true, if_false]
  rw [bind_of_ok (accept_of_eq (.keyword .elseWord) h)]
  rfl

end MoreArms

/-- Where no arm follows, the ends of lines are left. -/
theorem moreArms_of_not (h : ¬c.BeforeArm) : inner.moreArms inLoop (room + 1) c = .ok (.done, c) := by
  obtain ⟨d, hskip⟩ := c.exists_skipNewlines
  obtain ⟨gap, hgap, hpass⟩ := skipNewlines_eq_ok hskip
  have helif : d.current.kind ≠ .keyword .elifWord := fun hk => h ⟨gap, d, hgap, hpass, .inl hk⟩
  have helse : d.current.kind ≠ .keyword .elseWord := fun hk => h ⟨gap, d, hgap, hpass, .inr hk⟩
  rw [Level.moreArms, bind_of_ok (a := c) rfl, bind_of_ok hskip,
    bind_of_ok (accept_apply_of_ne (.keyword .elifWord) helif)]
  simp only [Bool.false_eq_true, if_false]
  rw [bind_of_ok (accept_apply_of_ne (.keyword .elseWord) helse)]
  rfl

theorem namesEnd_moreArms (n : Nat) : NamesEnd (inner.moreArms inLoop n) := by
  cases n with
  | zero => exact namesEnd_unexpected
  | succ n =>
      intro c hc
      have hnone : ¬c.BeforeArm := by
        have hline : c.current.kind ≠ .newline := by simp [hc.1]
        rw [Cursor.beforeArm_iff newlines_nil (Cursor.passes_nil.2 rfl) hline, hc.1]
        simp
      rw [moreArms_of_not hnone]

namespace Decisive

variable (hinner : inner.Decisive)

include hinner

theorem guarded (inLoop : Bool) : Decides Anywhere (inner.guarded inLoop) :=
  hinner.expression.bind fun _ => (hinner.braced inLoop).bind fun _ => decides_pure

theorem block (inLoop : Bool) : Decides Anywhere (inner.block inLoop) := hinner.braced inLoop

theorem armAndMore (hc : c.Ended) (h : ∀ d, d.Ended → d.later.length ≤ c.later.length →
      Decided NoNewArm d (inner.moreArms inLoop) (inner.moreArms inLoop room d)) :
    Decided NoNewArm c (inner.armAndMore inLoop) (inner.armAndMore inLoop room c) :=
  (hinner.guarded inLoop).bindRoom (m := 0)
    (t := fun arm n => do return Arms.when arm.1 arm.2 (← inner.moreArms inLoop n)) hc room
    (fun _ _ => (hinner.guarded inLoop c hc).length_le)
    (fun _ n => (namesEnd_moreArms n).bind fun _ => (decides_pure (Z := Anywhere)).namesEnd)
    fun _ d hd hlength => (h d hd hlength).map

theorem namesEnd_armAndMore (n : Nat) : NamesEnd (inner.armAndMore inLoop n) :=
  (hinner.guarded inLoop).namesEnd.bind fun _ => (namesEnd_moreArms n).bind fun _ =>
    (decides_pure (Z := Anywhere)).namesEnd

theorem behindElse (hc : c.Ended) (h : ∀ d, d.Ended → d.later.length ≤ c.later.length →
      Decided NoNewArm d (inner.moreArms inLoop) (inner.moreArms inLoop room d)) :
    Decided NoNewArm c (inner.behindElse inLoop) (inner.behindElse inLoop room c) := by
  have hif : Decides Anywhere (accept (.keyword .ifWord)) := decides_accept (.keyword .ifWord)
  have hlast {Z : Cursor → Cursor → Prop} :
      Decides Z (do return Arms.otherwise (← inner.block inLoop)) :=
    (hinner.block inLoop).bind fun _ => decides_pure
  refine hif.bindRoom (m := 0) (t := fun b n => if b = true then inner.armAndMore inLoop n else
    do return .otherwise (← inner.block inLoop)) hc room (fun _ _ => (hif c hc).length_le) ?_ ?_
  · exact fun _ n => namesEnd_ite (hinner.namesEnd_armAndMore n) (hlast (Z := Anywhere)).namesEnd
  · intro b d hd hlength
    cases b with
    | true => exact hinner.armAndMore hd fun e he hle => h e he (Nat.le_trans hle hlength)
    | false => exact hlast d hd

/-- The arms behind the first are decided where there is room for all tokens that are left. -/
theorem moreArms (hc : c.Ended) (hroom : c.later.length < room) :
    Decided NoNewArm c (inner.moreArms inLoop) (inner.moreArms inLoop room c) := by
  induction room generalizing c with
  | zero => exact absurd hroom (Nat.not_lt_zero _)
  | succ room ih =>
      obtain ⟨gap, d, hgap, hpass, hd⟩ := hc.skip
      have hcursor := hc.of_passes hpass
      -- Behind the word of an arm what is read has room for the tokens that are left.
      have hword {q : Nat → Reader Arms} (hk : d.current.kind ≠ .eof)
          (hq : d.behind.later.length < room → Decided NoNewArm d.behind q (q room d.behind))
          (heq : ∀ n c' d', c'.Passes gap d' → d'.current.kind = d.current.kind →
            inner.moreArms inLoop (n + 1) c' = q n d'.behind) :
          Decided NoNewArm c (inner.moreArms inLoop) (inner.moreArms inLoop (room + 1) c) := by
        have hlength := hpass.length_eq
        have hbehind := hcursor.length_behind hk
        simp only [Cursor.tokens, List.length_cons] at hlength
        rw [heq room c d hpass rfl]
        refine (hq (by omega)).past (hpass.append (hcursor.passes_behind hk)) fun n c' e' hn hpass' _ => ?_
        obtain ⟨d', hd', he'⟩ := Cursor.passes_append_iff.1 hpass'
        obtain ⟨n, rfl⟩ := Nat.exists_eq_succ_of_ne_zero (Nat.ne_zero_of_lt hn)
        refine ⟨n, by simp, ?_⟩
        rw [heq n c' d' hd' (congrArg Token.kind he'.current_eq), Cursor.behind_eq_of_passes he']
      by_cases harm : c.BeforeArm
      · have hmore (hroom : d.behind.later.length < room) (e : Cursor) (he : e.Ended)
            (hle : e.later.length ≤ d.behind.later.length) :
            Decided NoNewArm e (inner.moreArms inLoop) (inner.moreArms inLoop room e) :=
          ih he (Nat.lt_of_le_of_lt hle hroom)
        rcases (Cursor.beforeArm_iff hgap hpass hd).1 harm with hk | hk
        · have hne : d.current.kind ≠ .eof := by simp [hk]
          have hbehind := hcursor.of_passes (hcursor.passes_behind hne)
          exact hword hne (fun hroom => hinner.armAndMore hbehind (hmore hroom))
            fun n c' d' hpass' hkind => moreArms_of_elif hgap hpass' (hkind.trans hk)
        · have hne : d.current.kind ≠ .eof := by simp [hk]
          have hbehind := hcursor.of_passes (hcursor.passes_behind hne)
          exact hword hne (fun hroom => hinner.behindElse hbehind (hmore hroom))
            fun n c' d' hpass' hkind => moreArms_of_else hgap hpass' (hkind.trans hk)
      · rw [moreArms_of_not harm]
        refine ⟨[], Cursor.passes_nil.2 rfl, fun n c' d' hn hpass' _ hnew => ?_⟩
        obtain ⟨n, rfl⟩ := Nat.exists_eq_succ_of_ne_zero (Nat.ne_zero_of_lt hn)
        obtain rfl := Cursor.passes_nil.1 hpass'
        exact moreArms_of_not fun harm' => harm (hnew harm')

/-- A choice after the word `if`. -/
theorem choice (inLoop : Bool) : Decides NoNewArm (inner.choice inLoop) :=
  (hinner.guarded inLoop).bind fun _ _ hc =>
    Decided.left (hinner.moreArms hc (Nat.lt_succ_self _)).map

theorem simpleStatement : Decides NoNewArm inner.simpleStatement := by
  have hassigned {k : TokenKind} (hk : k ≠ .eof) (target : Expr) (act : Expr → Act) :
      Takes k NoNewArm (do
        let _ ← advance
        unless target.isPlace do
          fail .badTarget
        return act (← inner.expression)) := by
    refine takes_advance hk ?_
    by_cases hplace : target.isPlace = true
    · rw [if_pos hplace]
      exact hinner.expression.bind fun value => decides_pure
    · rw [if_neg hplace]
      exact decides_fail_bind rfl
  refine hinner.expression.bind fun target => ?_
  refine Decides.peek (r := pure (.eval target)) decides_pure rfl fun k => ?_
  dsimp only
  split
  · exact .inr (hassigned (k := .mark .assign) (by simp) target (.assign target))
  · exact .inr (hassigned (k := .mark .plusAssign) (by simp) target (.update target .add))
  · exact .inr (hassigned (k := .mark .minusAssign) (by simp) target (.update target .sub))
  · exact .inl rfl

theorem namesEnd_act (inLoop : Bool) : NamesEnd (inner.act inLoop) := by
  intro c hc
  rw [Level.act, peek_bind, hc.1]
  exact hinner.simpleStatement.namesEnd c hc

/-- A jump is passed over in a loop, and refused where it stands elsewhere. -/
theorem jump {word : Keyword} {a : Act} (hc : c.Ended) (hk : c.current.kind = .keyword word)
    (hact : ∀ c', c'.current.kind = .keyword word →
      inner.act inLoop c' = Level.act.jump inLoop word a c') :
    Decided NoNewArm c (fun _ => inner.act inLoop) (inner.act inLoop c) := by
  rw [hact c hk]
  cases inLoop with
  | false =>
      refine .naming ?_ rfl (fun _ c' hkind => ⟨c'.current.line, ?_⟩) fun _ => hinner.namesEnd_act false
      · rw [hk]
        rfl
      · rw [hact c' (hkind.trans hk)]
        rfl
  | true =>
      have htakes : Takes (.keyword word) NoNewArm (Level.act.jump true word a) :=
        takes_advance (by simp) decides_pure
      refine (htakes.decided hc hk).ofKind (fun _ _ => htakes.moves hc hk) (fun _ c' _ hkind => ?_)
        fun _ => hinner.namesEnd_act true
      exact hact c' (hkind.trans hk)

theorem act (inLoop : Bool) : Decides NoNewArm (inner.act inLoop) := by
  intro c hc
  cases hk : c.current.kind with
  | keyword word =>
      cases word with
      | breakWord =>
          refine hinner.jump (a := .breakLoop) hc hk fun c' hk' => ?_
          rw [Level.act, peek_bind, hk']
      | continueWord =>
          refine hinner.jump (a := .continueLoop) hc hk fun c' hk' => ?_
          rw [Level.act, peek_bind, hk']
      | ifWord =>
          rw [Level.act]
          refine .peek hc hinner.simpleStatement rfl (.inr ?_)
          rw [hk]
          exact takes_advance (by simp) (hinner.choice inLoop)
      | forWord =>
          rw [Level.act]
          refine .peek hc hinner.simpleStatement rfl (.inr ?_)
          rw [hk]
          refine takes_advance (by simp) (decides_identifier.bind fun name => ?_)
          refine (decides_expect (.keyword .inWord) rfl).bind fun _ => hinner.expression.bind fun source => ?_
          exact (hinner.block true).bind fun _ => decides_pure
      | whileWord =>
          rw [Level.act]
          refine .peek hc hinner.simpleStatement rfl (.inr ?_)
          rw [hk]
          refine takes_advance (by simp) (hinner.expression.bind fun condition => ?_)
          exact (hinner.block true).bind fun _ => decides_pure
      | _ =>
          rw [Level.act]
          refine .peek hc hinner.simpleStatement rfl (.inl ?_)
          rw [hk]
  | _ =>
      rw [Level.act]
      refine .peek hc hinner.simpleStatement rfl (.inl ?_)
      rw [hk]

omit hinner in
theorem statement_apply (inLoop : Bool) (c : Cursor) : inner.statement inLoop c =
    (inner.act inLoop >>= fun a => pure (Stmt.mk c.current.line a)) c := rfl

/-- The line of a statement is that of its first token, which is passed over. -/
theorem statement (inLoop : Bool) : Decides NoNewArm (inner.statement inLoop) := by
  intro c hc
  have hact := hinner.act inLoop c hc
  rw [statement_apply, bind_apply]
  cases hok : inner.act inLoop c with
  | ok x =>
      rw [hok] at hact
      obtain ⟨ts, hts, hrest⟩ := hact
      have hne : ts ≠ [] := by
        rintro rfl
        obtain ⟨us, hus, hsentence⟩ := hinner.sound.act inLoop c x.1 x.2 hc hok
        obtain ⟨t, vs, rfl, -⟩ := hsentence.first
        rw [← Cursor.passes_nil.1 hts] at hus
        have hlength := hus.length_eq
        simp at hlength
      refine ⟨ts, hts, fun n c' d' hn hpass hfollows hnew => ?_⟩
      beta_reduce
      rw [statement_apply, Cursor.current_eq_of_passes hne hts hpass]
      exact bind_of_ok (hrest n c' d' hn hpass hfollows hnew)
  | error e =>
      rw [hok] at hact
      exact hact.of_error fun _ c' => ⟨_, fun _ => namesEnd_pure, statement_apply inLoop c'⟩

omit hinner in
/-- Where a statement may end, its end is passed over together with the ends of lines behind it. -/
theorem ending_of_ends (hends : c.Ends) (hgap : Newlines gap) (hpass : c.Passes gap d)
    (hd : d.current.kind ≠ .newline) (s : Stmt) :
    (do endOfStatement; skipNewlines; return s : Reader Stmt) c = .ok (s, d) := by
  rw [hends.ending_apply, bind_of_ok (skipNewlines_apply hgap hpass hd)]
  rfl

omit hinner in
theorem ending_of_not (hends : ¬c.Ends) (s : Stmt) :
    (do endOfStatement; skipNewlines; return s : Reader Stmt) c =
      .error ⟨c.current.line, .expected "end of statement" c.current.kind⟩ := by
  rw [bind_apply, endOfStatement_fails hends]
  rfl

omit hinner in
theorem namesEnd_ending (s : Stmt) : NamesEnd (do endOfStatement; skipNewlines; return s : Reader Stmt) := by
  intro c hc
  rw [ending_of_ends (.inr (.inr hc.1)) newlines_nil (Cursor.passes_nil.2 rfl) (by simp [hc.1])]

/-- Behind the end of a statement no arm is looked for any more. -/
theorem endedStatement (inLoop : Bool) : Decides Anywhere (inner.endedStatement inLoop) := by
  intro c hc
  have hstatement := hinner.statement inLoop c hc
  rw [Level.endedStatement, bind_apply]
  cases hok : inner.statement inLoop c with
  | ok x =>
      obtain ⟨s, d⟩ := x
      rw [hok] at hstatement
      obtain ⟨ts, hts, hrest⟩ := hstatement
      change Decided Anywhere c _ ((do endOfStatement; skipNewlines; return s : Reader Stmt) d)
      by_cases hends : d.Ends
      · obtain ⟨gap, e, hgap, hpass, he⟩ := (hc.of_passes hts).skip
        rw [ending_of_ends hends hgap hpass he]
        refine ⟨ts ++ gap, hts.append hpass, fun n c' e' hn hpass' hfollows _ => ?_⟩
        obtain ⟨d', hd', he'⟩ := Cursor.passes_append_iff.1 hpass'
        rw [List.length_append] at hn
        have hfollows' := hfollows.of_passes hpass he'
        have hfirst := hrest n c' d' (by omega) hd' hfollows' (Cursor.noNewArm hgap hpass he he' hfollows)
        have hends' : d'.Ends := by
          rcases hfollows'.kind with hkind | hkind
          · rwa [Cursor.Ends, Cursor.Stops, hkind]
          · exact .inr (.inr hkind)
        refine (bind_of_ok hfirst).trans (ending_of_ends hends' hgap he' ?_ s)
        rcases hfollows.kind with hkind | hkind <;> rw [hkind]
        · exact he
        · simp
      · rw [ending_of_not hends]
        have hline : d.current.kind ≠ .newline := fun h => hends (.inl h)
        rintro k ⟨⟩
        refine ⟨ts, d, hts, rfl, rfl, fun n c' d' hn hpass => ?_⟩
        have hfirst (hfollows : d.Follows d') : inner.statement inLoop c' = .ok (s, d') :=
          hrest n c' d' hn hpass hfollows
            (Cursor.noNewArm newlines_nil (Cursor.passes_nil.2 rfl) hline (Cursor.passes_nil.2 rfl) hfollows)
        refine ⟨fun halike => ⟨d'.current.line, ?_⟩, fun hk hat => ?_⟩
        · have hends' : ¬d'.Ends := by rwa [Cursor.Ends, Cursor.Stops, halike.1]
          refine (bind_of_ok (hfirst (.inl halike))).trans ?_
          rw [ending_of_not hends', halike.1]
        · beta_reduce
          rw [bind_of_ok (hfirst hat.follows)]
          exact (namesEnd_ending s).escapes hat rfl hk
  | error e =>
      rw [hok] at hstatement
      exact hstatement.of_error fun _ _ => ⟨_, namesEnd_ending, rfl⟩

/-- A statement and more behind it, as far as there is room. -/
theorem andMore (inLoop : Bool) {more : Nat → Reader (List Stmt)} (hc : c.Ended) (hroom : c.later.length < room + 1)
    (h : ∀ d, d.Ended → d.later.length < room → Decided Anywhere d more (more room d))
    (hend : ∀ n, NamesEnd (more n))
    (hsame : ∀ n c', c'.current.kind = c.current.kind → more (n + 1) c' =
      (inner.endedStatement inLoop >>= fun s => do return s :: (← more n)) c') :
    Decided Anywhere c more (more (room + 1) c) := by
  have hmoves (s : Stmt) (d : Cursor) (hs : inner.endedStatement inLoop c = .ok (s, d)) :
      d.later.length + 1 ≤ c.later.length := by
    obtain ⟨t, vs, hpass, -⟩ := hinner.sound.endedStatement hc hs
    have hlength := hpass.length_eq
    simp only [Cursor.tokens, List.length_cons] at hlength
    omega
  have hpure {statements : List Stmt} : Decides Anywhere (pure statements : Reader (List Stmt)) := decides_pure
  rw [hsame room c rfl]
  refine ((hinner.endedStatement inLoop).bindRoom (m := 1) (t := fun s n => do return s :: (← more n)) hc
    room hmoves (fun _ n => (hend n).bind fun _ => hpure.namesEnd)
    fun s d hd hle => (h d hd (by omega)).andThen hd fun _ => hpure).ofKind ?_ ?_ hend
  · intro statements e hok
    obtain ⟨s, d, hs, hmore⟩ := Reader.bind_eq_ok.1 hok
    obtain ⟨rest, _, hrest, hlast⟩ := Reader.bind_eq_ok.1 hmore
    cases hlast
    obtain ⟨t, vs, hpass, -⟩ := hinner.sound.endedStatement hc hs
    have hfirst := hmoves s d hs
    have hle := (h d (hc.of_passes hpass) (by omega)).length_le hrest
    omega
  · rintro (_ | n) c' hn hkind
    · cases hn
    · exact hsame n c' hkind

omit hinner in
theorem namesEnd_statements (inLoop : Bool) (n : Nat) : NamesEnd (inner.statements inLoop n) := by
  have hmissing : Decides Anywhere (fail .missingBrace : Reader (List Stmt)) := decides_fail rfl
  cases n with
  | zero => exact hmissing.namesEnd
  | succ n =>
      intro c hc
      rw [Level.statements, peek_bind, hc.1]
      exact hmissing.namesEnd c hc

theorem statements (inLoop : Bool) (hc : c.Ended) (hroom : c.later.length < room) :
    Decided Anywhere c (inner.statements inLoop) (inner.statements inLoop room c) := by
  induction room generalizing c with
  | zero => exact absurd hroom (Nat.not_lt_zero _)
  | succ room ih =>
      by_cases hbrace : c.current.kind = .mark .rightBrace
      · have hfirst := hc.passes_behind (by simp [hbrace])
        have hnone : Decides Anywhere (pure [] : Reader (List Stmt)) := decides_pure
        have hlast (n : Nat) (c' : Cursor) (hk : c'.current.kind = .mark .rightBrace) :
            inner.statements inLoop (n + 1) c' = .ok ([], c'.behind) := by
          rw [Level.statements, peek_bind, hk]
          exact bind_of_ok (advance_eq c')
        rw [hlast room c hbrace]
        refine (hnone c.behind (hc.of_passes hfirst)).past hfirst fun n c' d' hn hpass _ => ?_
        obtain ⟨n, rfl⟩ := Nat.exists_eq_succ_of_ne_zero (Nat.ne_zero_of_lt hn)
        refine ⟨n, by simp, ?_⟩
        rw [hlast n c' (hpass.current_eq ▸ hbrace), Cursor.behind_eq_of_passes hpass]
        rfl
      by_cases heof : c.current.kind = .eof
      · rw [Level.statements, peek_bind, heof]
        rintro k ⟨⟩
      · refine hinner.andMore inLoop hc hroom (fun d hd => ih hd)
          (namesEnd_statements inLoop) fun n c' hkind => ?_
        rw [Level.statements, peek_bind, hkind]
        generalize c.current.kind = k at hbrace heof
        split
        · contradiction
        · contradiction
        · rfl

theorem readBraced (inLoop : Bool) : Decides Anywhere (inner.readBraced inLoop) :=
  (decides_expect (.mark .leftBrace) rfl).bind fun _ => decides_skipNewlines.bind fun _ _ hc =>
    Decided.left (hinner.statements inLoop hc (Nat.lt_succ_self _))

theorem script (hc : c.Ended) (hroom : c.later.length < room) :
    Decided Anywhere c inner.script (inner.script room c) := by
  have hlast (n : Nat) (c' : Cursor) (hk : c'.current.kind = .eof) :
      inner.script (n + 1) c' = .ok ([], c') := by
    rw [Level.script, peek_bind, hk]
    rfl
  have hnone : Decides Anywhere (pure [] : Reader (List Stmt)) := decides_pure
  have hend (n : Nat) : NamesEnd (inner.script n) := by
    cases n with
    | zero => exact hnone.namesEnd
    | succ n =>
        intro c' hc'
        rw [hlast n c' hc'.1]
  induction room generalizing c with
  | zero => exact absurd hroom (Nat.not_lt_zero _)
  | succ room ih =>
      by_cases heof : c.current.kind = .eof
      · rw [hlast room c heof]
        refine (hnone c hc).congr ?_
        rintro (_ | n) c' hn hfollows
        · cases hn
        · exact hlast n c' (hfollows.kind.elim (·.trans heof) id)
      · refine hinner.andMore false hc hroom (fun d hd => ih hd) hend fun n c' hkind => ?_
        rw [Level.script, peek_bind, hkind]
        generalize c.current.kind = k at heof
        split
        · contradiction
        · rfl

/-- The readers of a level are decisive if those of the level inside it are. -/
theorem around : inner.around.Decisive where
  sound := hinner.sound.around
  operand := hinner.readOperand
  links := hinner.readLinks
  postfixed target _ := hinner.readPostfixed target
  postfixes := hinner.readPostfixes
  braced := hinner.readBraced

end Decisive

theorem decisive_within (n : Nat) : (within n).Decisive := by
  induction n with
  | zero => exact .shut
  | succ n ih => exact ih.around

end Level

theorem decides_readWithin (n : Nat) : Decides Anywhere (readWithin n) :=
  decides_skipNewlines.bind fun _ _ hc =>
    Decided.left ((Level.decisive_within n).script hc (Nat.lt_succ_self _))

end PromptWeave.Script
