import PromptWeave.Proofs.Outcome
import PromptWeave.Script.Lexer
import PromptWeave.Script.Syntax

/-!
# Texts further down

A text that stands some lines further down has the same tokens, the same statements and the same
fault, each on a line that is as much greater. Behind an end of a line that is outside brackets a text
is read as if nothing stood before it.
-/
namespace PromptWeave.Script

/-! ### Moving down -/

/-- A token some lines further down. -/
def Token.down (lines : Nat) (t : Token) : Token := ⟨t.line + lines, t.kind⟩

/-- A fault some lines further down. -/
def SyntaxError.down (lines : Nat) (e : SyntaxError) : SyntaxError := ⟨e.line + lines, e.fault⟩

mutual

/-- A statement some lines further down, with all statements inside it. -/
def Stmt.down (lines : Nat) : Stmt → Stmt
  | .mk line act => .mk (line + lines) (act.down lines)

/-- What a statement does, with the statements inside some lines further down. -/
def Act.down (lines : Nat) : Act → Act
  | .choose arms => .choose (arms.down lines)
  | .forEach name items body => .forEach name items (downAll lines body)
  | .whileTrue condition body => .whileTrue condition (downAll lines body)
  | .eval e => .eval e
  | .assign target value => .assign target value
  | .update target op value => .update target op value
  | .breakLoop => .breakLoop
  | .continueLoop => .continueLoop

/-- The arms of a choice some lines further down. -/
def Arms.down (lines : Nat) : Arms → Arms
  | .when condition body rest => .when condition (downAll lines body) (rest.down lines)
  | .otherwise body => .otherwise (downAll lines body)
  | .done => .done

/-- Statements some lines further down. -/
def downAll (lines : Nat) : List Stmt → List Stmt
  | [] => []
  | s :: rest => s.down lines :: downAll lines rest

end

/-- What a reading comes to some lines further down. -/
def lowered {α β : Type} (lines : Nat) (f : α → β) : Except SyntaxError α → Except SyntaxError β
  | .ok a => .ok (f a)
  | .error e => .error (e.down lines)

@[simp] theorem Token.down_kind (lines : Nat) (t : Token) : (t.down lines).kind = t.kind := rfl

@[simp] theorem downAll_nil (lines : Nat) : downAll lines [] = [] := by simp [downAll]

@[simp] theorem downAll_cons (lines : Nat) (s : Stmt) (rest : List Stmt) :
    downAll lines (s :: rest) = s.down lines :: downAll lines rest := by simp [downAll]

mutual

@[simp] theorem Stmt.down_zero : (s : Stmt) → s.down 0 = s
  | .mk line act => by simp [Stmt.down, act.down_zero]

@[simp] theorem Act.down_zero : (act : Act) → act.down 0 = act
  | .choose arms => by simp [Act.down, arms.down_zero]
  | .forEach name items body => by simp [Act.down, downAll_zero body]
  | .whileTrue condition body => by simp [Act.down, downAll_zero body]
  | .eval _ => rfl
  | .assign _ _ => rfl
  | .update _ _ _ => rfl
  | .breakLoop => rfl
  | .continueLoop => rfl

@[simp] theorem Arms.down_zero : (arms : Arms) → arms.down 0 = arms
  | .when condition body rest => by simp [Arms.down, downAll_zero body, rest.down_zero]
  | .otherwise body => by simp [Arms.down, downAll_zero body]
  | .done => rfl

@[simp] theorem downAll_zero : (body : List Stmt) → downAll 0 body = body
  | [] => by simp
  | s :: rest => by simp [s.down_zero, downAll_zero rest]

end

section Lowered

variable {α β γ δ : Type} {lines : Nat}

@[simp] theorem lowered_ok (f : α → β) (a : α) : lowered lines f (.ok a) = .ok (f a) := rfl

theorem lowered_bind {x : Except SyntaxError α} {f : α → β} {g : α → Except SyntaxError γ}
    {g' : β → Except SyntaxError δ} {h : γ → δ} (hg : ∀ a, g' (f a) = lowered lines h (g a)) :
    (lowered lines f x).bind g' = lowered lines h (x.bind g) := by
  cases x with
  | ok a => exact hg a
  | error e => rfl

theorem lowered_map (x : Except SyntaxError α) {f : α → β} {g : α → γ} {g' : β → δ} {h : γ → δ}
    (hg : ∀ a, g' (f a) = h (g a)) : (lowered lines f x).map g' = lowered lines h (x.map g) := by
  cases x with
  | ok a => exact congrArg Except.ok (hg a)
  | error e => rfl

theorem lowered_ite {p : Prop} [Decidable p] {f : α → β} {x y : Except SyntaxError α}
    {x' y' : Except SyntaxError β} (hx : x' = lowered lines f x) (hy : y' = lowered lines f y) :
    (if p then x' else y') = lowered lines f (if p then x else y) := by
  split
  · exact hx
  · exact hy

end Lowered

/-! ### Reading further down -/

namespace LexState

variable {s : LexState} {lines : Nat} {before : List Token}

/-- What has been read where lines with the tokens `before` stand in front of the text. The tokens are
kept back to front. -/
def below (lines : Nat) (before : List Token) (s : LexState) : LexState :=
  ⟨s.line + lines, s.nesting, s.tokens.map (Token.down lines) ++ before, s.mode⟩

@[simp] theorem below_mode : (s.below lines before).mode = s.mode := rfl

theorem pushInt_below (read : List Char) :
    (s.below lines before).pushInt read = lowered lines (below lines before) (s.pushInt read) :=
  lowered_ite rfl rfl

theorem enter_below (c : Char) :
    (s.below lines before).enter c = lowered lines (below lines before) (s.enter c) := by
  dsimp only [enter]
  refine lowered_ite ?_ ?_
  · by_cases hs : s.nesting = 0
    all_goals simp [hs, below, push, Token.down, Nat.add_right_comm]
  · iterate 11 refine lowered_ite rfl ?_
    cases loneMark? c <;> rfl

theorem close_below :
    (s.below lines before).close = lowered lines (below lines before) s.close := by
  unfold close
  rw [below_mode]
  cases s.mode with
  | digits read => exact pushInt_below read
  | point read =>
      dsimp only
      rw [pushInt_below]
      exact lowered_map _ fun _ => rfl
  | extensible first =>
      dsimp only
      cases singleMark? first <;> rfl
  | _ => rfl

theorem closeThenEnter_below (c : Char) : (s.below lines before).closeThenEnter c =
    lowered lines (below lines before) (s.closeThenEnter c) := by
  unfold closeThenEnter
  rw [close_below]
  exact lowered_bind fun _ => enter_below c

theorem step_below (c : Char) :
    (s.below lines before).step c = lowered lines (below lines before) (s.step c) := by
  have hnext : (s.below lines before).closeThenEnter c =
      lowered lines (below lines before) (s.closeThenEnter c) := closeThenEnter_below c
  unfold step
  rw [below_mode]
  cases s.mode with
  | plain => exact enter_below c
  | comment => exact lowered_ite hnext rfl
  | str quote read => exact lowered_ite rfl (lowered_ite rfl (lowered_ite rfl rfl))
  | escape quote read =>
      dsimp only
      cases escaped? c <;> rfl
  | digits read => exact lowered_ite rfl (lowered_ite rfl hnext)
  | point read => exact lowered_ite rfl hnext
  | places read => exact lowered_ite rfl hnext
  | word read => exact lowered_ite rfl hnext
  | extensible first =>
      refine lowered_ite ?_ hnext
      cases doubleMark? first with
      | some m => rfl
      | none => exact hnext

theorem steps_cons (c : Char) (cs : List Char) : s.steps (c :: cs) = (s.step c).bind (·.steps cs) := rfl

theorem steps_append (cs ds : List Char) : s.steps (cs ++ ds) = (s.steps cs).bind (·.steps ds) :=
  List.foldlM_append

theorem steps_below (cs : List Char) :
    (s.below lines before).steps cs = lowered lines (below lines before) (s.steps cs) := by
  induction cs generalizing s with
  | nil => rfl
  | cons c cs ih =>
      rw [steps_cons, step_below, steps_cons]
      exact lowered_bind fun _ => ih

theorem finish_below : (s.below lines before).finish =
    lowered lines (fun ts => before.reverse ++ ts.map (Token.down lines)) s.finish := by
  rw [finish, close_below]
  exact lowered_map _ fun _ => by simp [below, Token.down]

/-! ### Behind the end of a line -/

/-- At an end of a line the token at hand is finished as it would be at the end of the text. -/
theorem step_newline {s' : LexState} (h : s.close = .ok s') : s.step '\n' = s'.enter '\n' := by
  have hnext : s.closeThenEnter '\n' = s'.enter '\n' := by rw [closeThenEnter, h]; rfl
  unfold close at h
  unfold step
  split at h
  case h_1 =>
    cases h
    rfl
  case h_3 => cases h
  case h_4 => cases h
  case h_9 => exact hnext
  all_goals exact hnext

/-- Behind an end of a line that is outside brackets, reading begins anew. -/
theorem enter_newline (h : s.nesting = 0) :
    s.enter '\n' = .ok (start.below s.line (⟨s.line, .newline⟩ :: s.tokens)) := by
  simp [enter, h, push, below, start, Nat.add_comm]

end LexState

/-- A text in which all brackets are closed at the end may be gone on with on the next line: what comes
there is read as if nothing stood before it. -/
theorem tokenize_append {a : String} {s s' : LexState} (hs : LexState.start.steps a.toList = .ok s)
    (hclose : s.close = .ok s') (h : s'.nesting = 0) (b : String) :
    tokenize (a ++ "\n" ++ b) = lowered s'.line (fun ts =>
      s'.tokens.reverse ++ ⟨s'.line, .newline⟩ :: ts.map (Token.down s'.line)) (tokenize b) := by
  have htext : (a ++ "\n" ++ b).toList = a.toList ++ '\n' :: b.toList := by simp
  have hrest : (LexState.start.steps a.toList).bind (·.steps ('\n' :: b.toList)) =
      (LexState.start.below s'.line (⟨s'.line, .newline⟩ :: s'.tokens)).steps b.toList := by
    have hstep := LexState.step_newline hclose
    rw [LexState.enter_newline h] at hstep
    change (LexState.start.steps a.toList).bind (fun s => (s.step '\n').bind (·.steps b.toList)) = _
    rw [hs]
    change (s.step '\n').bind (·.steps b.toList) = _
    rw [hstep]
    rfl
  rw [tokenize, htext, LexState.steps_append, hrest, LexState.steps_below]
  exact lowered_bind fun s => by simp [LexState.finish_below]

end PromptWeave.Script
