import PromptWeave.Proofs.Script.Recognition

/-!
# How high the trees of a script are

A chain builds a tree with its first operand at the bottom and one level of the tree for each link, and
it gives its levels of nesting back when it ends. So one level of the parser may hold five chains on top
of each other, of calls, products, sums, conjunctions and disjunctions, each as long as there are levels
left, and a comparison and a pair of brackets besides. The height of the trees is bounded all the same,
with a bound that grows with the square of the number of levels.
-/
namespace PromptWeave.Script

/-! ### Heights -/

mutual

/-- The number of expressions on the longest way from an expression down to one without parts. -/
def Expr.height : Expr → Nat
  | .absent => 1
  | .bool _ => 1
  | .int _ => 1
  | .float _ => 1
  | .str _ => 1
  | .var _ => 1
  | .list items => heightOfAll items + 1
  | .neg operand => operand.height + 1
  | .not operand => operand.height + 1
  | .binary _ left right => max left.height right.height + 1
  | .and left right => max left.height right.height + 1
  | .or left right => max left.height right.height + 1
  | .index target index => max target.height index.height + 1
  | .slice target start stop =>
      max target.height (max (heightOfOptional start) (heightOfOptional stop)) + 1
  | .attribute target _ => target.height + 1
  | .call callee args => max callee.height (heightOfAll args) + 1
  | .comprehension element _ source condition =>
      max element.height (max source.height (heightOfOptional condition)) + 1

/-- The height of the highest of some expressions. -/
def heightOfAll : List Expr → Nat
  | [] => 0
  | e :: rest => max e.height (heightOfAll rest)

/-- The height of an expression that may be missing. -/
def heightOfOptional : Option Expr → Nat
  | none => 0
  | some e => e.height

end

mutual

/-- The expressions that a statement evaluates or assigns to, its blocks included. -/
def Stmt.expressions : Stmt → List Expr
  | .mk _ act => act.expressions

/-- The expressions in what a statement does. -/
def Act.expressions : Act → List Expr
  | .eval e => [e]
  | .assign target value => [target, value]
  | .update target _ value => [target, value]
  | .choose arms => arms.expressions
  | .forEach _ source body => source :: expressionsOfAll body
  | .whileTrue condition body => condition :: expressionsOfAll body
  | .breakLoop => []
  | .continueLoop => []

/-- The expressions in the arms of a choice. -/
def Arms.expressions : Arms → List Expr
  | .when condition body rest => condition :: (expressionsOfAll body ++ rest.expressions)
  | .otherwise body => expressionsOfAll body
  | .done => []

/-- The expressions in statements. -/
def expressionsOfAll : List Stmt → List Expr
  | [] => []
  | s :: rest => s.expressions ++ expressionsOfAll rest

end

theorem mem_expressionsOfAll_assign (line : Nat) (target value : Expr) :
    value ∈ expressionsOfAll [.mk line (.assign target value)] := by
  simp [expressionsOfAll, Stmt.expressions, Act.expressions]

/-- Whether no expression among some is higher than a bound. -/
def AllWithin (bound : Nat) (es : List Expr) : Prop := ∀ e ∈ es, e.height ≤ bound

@[simp] theorem allWithin_nil {bound : Nat} : AllWithin bound [] := nofun

@[simp] theorem allWithin_cons {bound : Nat} {e : Expr} {es : List Expr} :
    AllWithin bound (e :: es) ↔ e.height ≤ bound ∧ AllWithin bound es := List.forall_mem_cons

@[simp] theorem allWithin_append {bound : Nat} {es more : List Expr} :
    AllWithin bound (es ++ more) ↔ AllWithin bound es ∧ AllWithin bound more :=
  List.forall_mem_append

/-- The height that expressions reach with a number of levels: one more level adds a link to each of
five chains, and brackets and a comparison. -/
def tallest : Nat → Nat
  | 0 => 0
  | n + 1 => tallest n + 5 * n + 2

theorem tallest_pred (n : Nat) : tallest (n - 1) + n ≤ tallest n + 1 := by
  cases n with
  | zero => decide
  | succ n =>
      rw [Nat.add_sub_cancel, tallest]
      omega

theorem tallest_pred_le (n : Nat) : tallest (n - 1) ≤ tallest n := by
  have hpred := tallest_pred n
  cases n with
  | zero => exact Nat.le_refl _
  | succ n => omega

theorem tallest_mono {m n : Nat} (h : m ≤ n) : tallest m ≤ tallest n := by
  induction h with
  | refl => exact Nat.le_refl _
  | step _ ih => exact Nat.le_trans ih (tallest_pred_le (_ + 1))

theorem Joins.height_eq {rank : Rank} {k : TokenKind} {join : Expr → Expr → Expr} {left right : Expr}
    (h : Joins rank k join) : (join left right).height = max left.height right.height + 1 := by
  cases h <;> rfl

/-! ### What readers return -/

namespace Reader

/-- Whether everything that a reader returns has a property. -/
def Ensures {α : Type} (r : Reader α) (P : α → Prop) : Prop := ∀ c a d, r c = .ok (a, d) → P a

section

variable {α β : Type} {P : α → Prop} {Q : β → Prop}

theorem Ensures.pure {a : α} (h : P a) : Ensures (Pure.pure a) P := by
  intro c b d hok
  cases hok
  exact h

theorem Ensures.fail {fault : SyntaxFault} : Ensures (Reader.fail fault) P := by
  intro c a d hok
  cases hok

theorem Ensures.bind {r : Reader β} {f : β → Reader α} (hr : Ensures r Q)
    (hf : ∀ b, Q b → Ensures (f b) P) : Ensures (r >>= f) P := by
  intro c a e hok
  obtain ⟨b, d, hb, ha⟩ := Reader.bind_eq_ok.1 hok
  exact hf b (hr c b d hb) d a e ha

/-- What a reader returns has a property whatever another has returned before it. -/
theorem Ensures.after {r : Reader β} {f : β → Reader α} (hf : ∀ b, Ensures (f b) P) :
    Ensures (r >>= f) P := .bind (Q := fun _ => True) (fun _ _ _ _ => trivial) fun b _ => hf b

theorem Ensures.ite {p : Prop} [Decidable p] {r s : Reader α} (hr : Ensures r P)
    (hs : Ensures s P) : Ensures (if p then r else s) P := by
  split
  · exact hr
  · exact hs

theorem Ensures.mono {r : Reader α} {P' : α → Prop} (h : Ensures r P') (hP : ∀ a, P' a → P a) :
    Ensures r P := fun c a d hok => hP a (h c a d hok)

end

end Reader

open Reader

/-! ### Expressions of a level -/

namespace Level

/-- Whether the readers of a level, with `n` levels to be entered, return no tree that is too high,
given what stands before them. A chain of `n` levels has fewer than `n` links. -/
structure Low (inner : Level) (n : Nat) : Prop where
  operand (rank : Rank) : Ensures (inner.operand rank) fun e =>
    0 < n ∧ e.height + n ≤ tallest n + 1
  links (rank : Rank) {before : Expr} {bound : Nat} : before.height ≤ bound → tallest (n - 1) ≤ bound →
    Ensures (inner.links rank before) fun e => e.height + 1 ≤ bound + n
  postfixed {target : Expr} {bound : Nat} : target.height ≤ bound → tallest (n - 1) ≤ bound →
    Ensures (inner.postfixed target) fun e => e.height ≤ bound + 1
  postfixes {target : Expr} {bound : Nat} : target.height ≤ bound → tallest (n - 1) ≤ bound →
    Ensures (inner.postfixes target) fun e => e.height + 1 ≤ bound + n
  braced (inLoop : Bool) : Ensures (inner.braced inLoop) fun body =>
    AllWithin (tallest n) (expressionsOfAll body)

namespace Low

theorem shut : shut.Low 0 where
  operand _ := .fail
  links _ _ _ _ _ := Ensures.fail
  postfixed _ _ := Ensures.fail
  postfixes _ _ := Ensures.fail
  braced _ := .fail

variable {inner : Level} {n : Nat} (hinner : inner.Low n)

include hinner

theorem expression : Ensures inner.expression fun e => e.height ≤ tallest n := by
  have hpred := tallest_pred n
  refine .bind (hinner.operand .disjunction) fun first ⟨hn, hfirst⟩ => ?_
  refine (hinner.links .disjunction (Nat.le_sub_of_add_le hfirst) (by omega)).mono fun e he => ?_
  omega

theorem items (close : Mark) (what : String) (room : Nat) :
    Ensures (inner.items close what room) fun es => heightOfAll es ≤ tallest n := by
  induction room with
  | zero => exact .after fun _ => .fail
  | succ room ih =>
      refine .bind hinner.expression fun first hfirst => .after fun _ => .ite (.pure ?_) ?_
      · exact Nat.max_le.2 ⟨hfirst, Nat.zero_le _⟩
      refine .after fun _ => .after fun _ => .ite (.pure ?_) ?_
      · exact Nat.max_le.2 ⟨hfirst, Nat.zero_le _⟩
      · exact .bind ih fun rest hrest => .pure (Nat.max_le.2 ⟨hfirst, hrest⟩)

theorem arguments : Ensures inner.arguments fun es => heightOfAll es ≤ tallest n :=
  .after fun _ => .ite (.pure (Nat.zero_le _)) (.after fun _ => hinner.items _ _ _)

theorem bound (close : Mark) :
    Ensures (inner.bound close) fun start => heightOfOptional start ≤ tallest n :=
  .after fun _ => .ite (.pure (Nat.zero_le _)) (.bind hinner.expression fun _ he => .pure he)

theorem indexOrSlice {target : Expr} {bound : Nat} (htarget : target.height ≤ bound)
    (hbound : tallest n ≤ bound) :
    Ensures (inner.indexOrSlice target) fun e => e.height ≤ bound + 1 := by
  refine .bind (hinner.bound .colon) fun start hstart => .after fun _ => .ite ?_ (.after fun _ => ?_)
  · refine .bind (hinner.bound .rightBracket) fun stop hstop => .after fun _ => .pure ?_
    simp only [Expr.height]
    omega
  · cases start with
    | none => exact .fail
    | some i =>
        refine .pure ?_
        simp only [heightOfOptional] at hstart
        simp only [Expr.height]
        omega

theorem listDisplay : Ensures inner.listDisplay fun e => e.height ≤ tallest n + 1 := by
  have hlist {es : List Expr} (h : heightOfAll es ≤ tallest n) :
      (Expr.list es).height ≤ tallest n + 1 := by
    simpa only [Expr.height] using Nat.succ_le_succ h
  have hsingle {e : Expr} (h : e.height ≤ tallest n) : heightOfAll [e] ≤ tallest n :=
    Nat.max_le.2 ⟨h, Nat.zero_le _⟩
  refine .after fun _ => .ite (.pure (hlist (Nat.zero_le _))) ?_
  refine .bind hinner.expression fun first hfirst => .after fun _ => .ite ?_ ?_
  · refine .after fun name => .after fun _ => .bind hinner.expression fun source hsource => ?_
    have hend {condition : Option Expr} (hcondition : heightOfOptional condition ≤ tallest n) :
        Ensures (do
          expect (.mark .rightBracket) "']'"
          return Expr.comprehension first name source condition) fun e => e.height ≤ tallest n + 1 := by
      refine .after fun _ => .pure ?_
      simp only [Expr.height]
      omega
    dsimp only
    refine .after fun _ => .ite ?_ ?_
    · rw [bind_map_left]
      exact .bind hinner.expression fun condition hcondition => hend hcondition
    · rw [pure_bind]
      exact hend (Nat.zero_le _)
  refine .after fun _ => .ite (.pure (hlist (hsingle hfirst))) ?_
  refine .after fun _ => .after fun _ => .ite (.pure (hlist (hsingle hfirst))) (.after fun _ => ?_)
  exact .bind (hinner.items _ _ _) fun rest hrest => .pure (hlist (Nat.max_le.2 ⟨hfirst, hrest⟩))

theorem primary : Ensures inner.primary fun e => e.height ≤ tallest n + 1 := by
  refine .after fun k => ?_
  split
  case h_8 =>
    refine .bind hinner.expression fun e he => .after fun _ => .pure (by omega)
  case h_9 => exact hinner.listDisplay
  case h_10 => exact .fail
  all_goals
    refine .pure ?_
    rw [Expr.height]
    omega

theorem readPostfixed {target : Expr} {bound : Nat} (htarget : target.height ≤ bound)
    (hbound : tallest n ≤ bound) :
    Ensures (inner.readPostfixed target) fun e => e.height ≤ bound + 1 := by
  refine .after fun k => ?_
  split
  · refine .bind hinner.arguments fun args hargs => .pure ?_
    simp only [Expr.height]
    omega
  · exact hinner.indexOrSlice htarget hbound
  · exact .after fun name => .pure (Nat.succ_le_succ htarget)

theorem readPostfixes {target : Expr} {bound : Nat} (htarget : target.height ≤ bound)
    (hbound : tallest n ≤ bound) :
    Ensures (inner.readPostfixes target) fun e => e.height ≤ bound + n := by
  have hpred : tallest (n - 1) ≤ bound := Nat.le_trans (tallest_pred_le n) hbound
  refine .after fun k => .ite ?_ (.pure (Nat.le_add_right_of_le htarget))
  refine .bind (hinner.postfixed htarget hpred) fun e he => ?_
  exact (hinner.postfixes he (Nat.le_succ_of_le hpred)).mono fun e' he' => by omega

theorem sign : Ensures inner.sign fun e => e.height ≤ tallest n + n + 1 := by
  refine .after fun _ => .ite ?_ ?_
  · refine .bind (hinner.operand .product) fun e ⟨hn, he⟩ => .pure ?_
    rw [Expr.height]
    omega
  · refine .bind hinner.primary fun e he => ?_
    exact (hinner.readPostfixes he (Nat.le_succ _)).mono fun e' he' => by omega

theorem readLinks (rank : Rank) {before : Expr} {bound : Nat} (hbefore : before.height ≤ bound)
    (hbound : tallest n ≤ bound) :
    Ensures (inner.readLinks rank before) fun e => e.height ≤ bound + n := by
  have hpred : tallest (n - 1) ≤ bound := Nat.le_trans (tallest_pred_le n) hbound
  refine .after fun k => ?_
  cases hjoin : rank.join? k with
  | none => exact .pure (Nat.le_add_right_of_le hbefore)
  | some join =>
      refine .after fun _ => .bind (hinner.operand rank) fun right ⟨hn, hright⟩ => ?_
      have hjoined : (join before right).height ≤ bound + 1 := by
        rw [(join?_eq_some_iff.1 hjoin).height_eq]
        omega
      exact (hinner.links rank hjoined (Nat.le_succ_of_le hpred)).mono fun e he => by omega

/-- A chain adds no more links to its first operand than there are levels. -/
theorem chain {r : Reader Expr} {bound : Nat} (rank : Rank) (hr : Ensures r fun e => e.height ≤ bound)
    (hbound : tallest n ≤ bound) :
    Ensures (do inner.readLinks rank (← r)) fun e => e.height ≤ bound + n :=
  .bind hr fun _ he => hinner.readLinks rank he hbound

theorem product : Ensures inner.product fun e => e.height ≤ tallest n + n + 1 + n :=
  hinner.chain .product hinner.sign (by omega)

theorem sum : Ensures inner.sum fun e => e.height ≤ tallest n + n + 1 + n + n :=
  hinner.chain .sum hinner.product (by omega)

theorem comparison : Ensures inner.comparison fun e => e.height ≤ tallest n + 3 * n + 2 := by
  refine .bind hinner.sum fun left hleft => .after fun beforeIn => .after fun k => ?_
  have hend (op : BinaryOp) : Ensures (do return Expr.binary op left (← inner.sum))
      fun e => e.height ≤ tallest n + 3 * n + 2 := by
    refine .bind hinner.sum fun right hright => .pure ?_
    rw [Expr.height]
    omega
  split
  · refine .after fun _ => .ite (.after fun _ => hend _) (hend _)
  · exact .pure (by omega)

theorem negation : Ensures inner.negation fun e => e.height ≤ tallest n + 3 * n + 2 := by
  refine .after fun _ => .ite ?_ hinner.comparison
  refine .bind (hinner.operand .conjunction) fun e ⟨hn, he⟩ => .pure ?_
  rw [Expr.height]
  omega

theorem conjunction : Ensures inner.conjunction fun e => e.height ≤ tallest n + 3 * n + 2 + n :=
  hinner.chain .conjunction hinner.negation (by omega)

theorem readOperand (rank : Rank) : Ensures (inner.readOperand rank) fun e =>
    0 < n + 1 ∧ e.height + (n + 1) ≤ tallest (n + 1) + 1 := by
  rw [tallest]
  cases rank with
  | disjunction => exact hinner.conjunction.mono fun e he => by omega
  | conjunction => exact hinner.negation.mono fun e he => by omega
  | sum => exact hinner.product.mono fun e he => by omega
  | product => exact hinner.sign.mono fun e he => by omega

/-! ### Statements of a level -/

theorem guarded (inLoop : Bool) : Ensures (inner.guarded inLoop) fun arm =>
    AllWithin (tallest n) (arm.1 :: expressionsOfAll arm.2) :=
  .bind hinner.expression fun _ he => .bind (hinner.braced inLoop) fun _ hbody =>
    .pure (allWithin_cons.2 ⟨he, hbody⟩)

theorem moreArms (inLoop : Bool) (room : Nat) : Ensures (inner.moreArms inLoop room) fun arms =>
    AllWithin (tallest n) arms.expressions := by
  induction room with
  | zero => exact .after fun _ => .fail
  | succ room ih =>
      have harm : Ensures (do
          let arm ← inner.guarded inLoop
          return Arms.when arm.1 arm.2 (← inner.moreArms inLoop room)) fun arms =>
          AllWithin (tallest n) arms.expressions := by
        refine .bind (hinner.guarded inLoop) fun arm harm => .bind ih fun rest hrest => .pure ?_
        exact allWithin_append.2 ⟨harm, hrest⟩
      refine .after fun before => .after fun _ => .after fun _ => .ite harm (.after fun _ => ?_)
      refine .ite (.after fun _ => .ite harm ?_) (.after fun _ => .pure allWithin_nil)
      exact .bind (hinner.braced inLoop) fun body hbody => .pure hbody

theorem choice (inLoop : Bool) : Ensures (inner.choice inLoop) fun act =>
    AllWithin (tallest n) act.expressions := by
  refine .bind (hinner.guarded inLoop) fun arm harm => .after fun room => ?_
  exact .bind (hinner.moreArms inLoop _) fun more hmore => .pure (allWithin_append.2 ⟨harm, hmore⟩)

theorem simpleStatement : Ensures inner.simpleStatement fun act =>
    AllWithin (tallest n) act.expressions := by
  refine .bind hinner.expression fun target htarget => .after fun k => ?_
  have hassigned {act : Expr → Act} (hact : ∀ value, (act value).expressions = [target, value]) :
      Ensures (do
        let _ ← Reader.advance
        unless target.isPlace do
          Reader.fail .badTarget
        return act (← inner.expression)) fun act => AllWithin (tallest n) act.expressions := by
    have hvalue : Ensures (do return act (← inner.expression)) fun act =>
        AllWithin (tallest n) act.expressions := by
      refine .bind hinner.expression fun value hvalue => .pure ?_
      rw [hact]
      simp [htarget, hvalue]
    exact .after fun _ => .ite hvalue (.after fun _ => hvalue)
  dsimp only
  split
  · exact hassigned fun _ => rfl
  · exact hassigned fun _ => rfl
  · exact hassigned fun _ => rfl
  · exact .pure (by simpa [Act.expressions] using htarget)

theorem act (inLoop : Bool) : Ensures (inner.act inLoop) fun act =>
    AllWithin (tallest n) act.expressions := by
  have hjump (word : Keyword) {act : Act} (hact : act.expressions = []) :
      Ensures (Level.act.jump inLoop word act) fun act => AllWithin (tallest n) act.expressions := by
    have hend : AllWithin (tallest n) act.expressions := hact ▸ allWithin_nil
    exact .ite (.after fun _ => .pure hend) (.after fun _ => .after fun _ => .pure hend)
  refine .after fun k => ?_
  split
  · exact .after fun _ => hinner.choice inLoop
  · refine .after fun _ => .after fun name => .after fun _ => ?_
    refine .bind hinner.expression fun source hsource => ?_
    exact .bind (hinner.braced true) fun body hbody => .pure (allWithin_cons.2 ⟨hsource, hbody⟩)
  · refine .after fun _ => .bind hinner.expression fun condition hcondition => ?_
    exact .bind (hinner.braced true) fun body hbody => .pure (allWithin_cons.2 ⟨hcondition, hbody⟩)
  · exact hjump _ rfl
  · exact hjump _ rfl
  · exact hinner.simpleStatement

theorem endedStatement (inLoop : Bool) : Ensures (inner.endedStatement inLoop) fun s =>
    AllWithin (tallest n) s.expressions := by
  refine .bind (Q := fun s => AllWithin (tallest n) s.expressions) ?_ fun s hs => ?_
  · exact .after fun line => .bind (hinner.act inLoop) fun act hact => .pure hact
  · exact .after fun _ => .after fun _ => .pure hs

theorem statements (inLoop : Bool) (room : Nat) : Ensures (inner.statements inLoop room) fun body =>
    AllWithin (tallest n) (expressionsOfAll body) := by
  induction room with
  | zero => exact .fail
  | succ room ih =>
      refine .after fun k => ?_
      split
      · exact .after fun _ => .pure allWithin_nil
      · exact .fail
      · refine .bind (hinner.endedStatement inLoop) fun first hfirst => .bind ih fun rest hrest => ?_
        exact .pure (allWithin_append.2 ⟨hfirst, hrest⟩)

theorem script (room : Nat) : Ensures (inner.script room) fun body =>
    AllWithin (tallest n) (expressionsOfAll body) := by
  induction room with
  | zero => exact .pure allWithin_nil
  | succ room ih =>
      refine .after fun k => ?_
      split
      · exact .pure allWithin_nil
      · refine .bind (hinner.endedStatement false) fun first hfirst => .bind ih fun rest hrest => ?_
        exact .pure (allWithin_append.2 ⟨hfirst, hrest⟩)

/-- The readers of a level return no tree that is too high if those of the level inside it do not. -/
theorem around : inner.around.Low (n + 1) where
  operand := hinner.readOperand
  links rank _ _ hbefore hbound := (hinner.readLinks rank hbefore hbound).mono fun _ he => by omega
  postfixed := hinner.readPostfixed
  postfixes htarget hbound := (hinner.readPostfixes htarget hbound).mono fun _ he => by omega
  braced inLoop := by
    refine .after fun _ => .after fun _ => .after fun room => ?_
    refine (hinner.statements inLoop _).mono fun body hbody e he => ?_
    exact Nat.le_trans (hbody e he) (tallest_pred_le (n + 1))

end Low

theorem low_within (n : Nat) : (within n).Low n := by
  induction n with
  | zero => exact .shut
  | succ n ih => exact ih.around

end Level

/-- No tree of a script that is read with `n` levels is higher than what `n` levels allow. -/
theorem height_le_of_readWithin {n : Nat} {c d : Cursor} {program : List Stmt}
    (h : readWithin n c = .ok (program, d)) {e : Expr} (he : e ∈ expressionsOfAll program) :
    e.height ≤ tallest n := by
  have hall : Ensures (readWithin n) fun body => AllWithin (tallest n) (expressionsOfAll body) :=
    .after fun _ => .after fun room => (Level.low_within n).script _
  exact hall c program d h e he

end PromptWeave.Script
