import PromptWeave.Proofs.Script.Grammar
import PromptWeave.Script.Evaluation

/-!
# Statements outside loops

The words `break` and `continue` are allowed only in a loop, and a loop lets neither out. So a statement
outside loops hands on to the next, and running statements one behind the other is running the first of
them and then the others.
-/
namespace PromptWeave.Script

namespace Action

variable {α β γ : Type} {x y : Action Flow}

theorem bind_of_pure (a : α) (f : α → Action β) : (pure a >>= f) = f a := rfl

theorem bind_bind (x : Action α) (f : α → Action β) (g : β → Action γ) :
    (x >>= f) >>= g = x >>= fun a => f a >>= g := by
  funext limits m
  simp only [bind_apply]
  rcases x limits m with ⟨_ | _, _⟩ <;> rfl

/-- Whether an action that succeeds hands on to the next statement. -/
def HandsOn (x : Action Flow) : Prop := ∀ limits m flow m', x limits m = (.ok flow, m') → flow = .next

theorem handsOn_pure : HandsOn (pure .next) := by
  rintro limits m _ _ ⟨⟩
  rfl

theorem handsOn_bind {x : Action α} {f : α → Action Flow} (h : ∀ a, HandsOn (f a)) :
    HandsOn (x >>= f) := by
  intro limits m flow m' hrun
  rw [bind_apply] at hrun
  split at hrun
  · exact h _ _ _ _ _ hrun
  · cases hrun

theorem handsOn_ite {p : Prop} [Decidable p] (hx : HandsOn x) (hy : HandsOn y) :
    HandsOn (if p then x else y) := by
  split
  · exact hx
  · exact hy

/-- After a statement that hands on, what follows is run. -/
theorem HandsOn.match_eq (h : HandsOn x) (y : Action Flow) :
    (do match ← x with
      | .next => y
      | flow => return flow) = (do let _ ← x; y) := by
  funext limits m
  rw [bind_apply, bind_apply]
  cases hx : x limits m with
  | mk result m' =>
      cases result with
      | error e => rfl
      | ok flow =>
          obtain rfl := h limits m flow m' hx
          rfl

end Action

open Action

variable {body others : List Stmt}

/-- Whether each of the statements hands on to the next. -/
def AllHandOn (body : List Stmt) : Prop := ∀ s ∈ body, HandsOn s.run

theorem runAll_cons {s : Stmt} (h : HandsOn s.run) (rest : List Stmt) :
    (runAll (s :: rest) : Action Flow) = (do let _ ← s.run; runAll rest) := by
  rw [runAll]
  exact h.match_eq (runAll rest)

theorem AllHandOn.handsOn (h : AllHandOn body) : HandsOn (runAll body) := by
  induction body with
  | nil =>
      rw [runAll]
      exact handsOn_pure
  | cons s rest ih =>
      rw [runAll_cons (h s List.mem_cons_self)]
      exact handsOn_bind fun _ => ih fun t ht => h t (List.mem_cons_of_mem s ht)

mutual

theorem Sentence.handsOn {inLoop : Bool} {ts : List Token} {act : Act} :
    Sentence inLoop ts act → inLoop = false → HandsOn act.run
  | .eval _, _ => by
      rw [Act.run]
      exact handsOn_bind fun _ => handsOn_pure
  | .assign _ _ _, _ => by
      rw [Act.run]
      exact handsOn_bind fun _ => handsOn_bind fun _ => handsOn_pure
  | .update _ _ _ _, _ => by
      rw [Act.run]
      exact handsOn_bind fun _ => handsOn_bind fun _ => handsOn_bind fun _ => handsOn_bind fun _ =>
        handsOn_pure
  | .choose h h', hout => by
      rw [Act.run, Arms.run]
      exact handsOn_bind fun _ => handsOn_ite (h.handsOn hout).handsOn (h'.handsOn hout)
  | .forEach _, _ => by
      rw [Act.run]
      exact handsOn_bind fun _ => handsOn_bind fun _ => handsOn_bind fun _ => handsOn_pure
  | .whileTrue _, _ => by
      rw [Act.run]
      exact handsOn_bind fun _ => handsOn_pure

theorem Guarded.handsOn {inLoop : Bool} {ts : List Token} {arm : Expr × List Stmt} :
    Guarded inLoop ts arm → inLoop = false → AllHandOn arm.2
  | .mk _ hbody, hout => hbody.handsOn hout

theorem MoreArms.handsOn {inLoop : Bool} {ts : List Token} {more : Arms} :
    MoreArms inLoop ts more → inLoop = false → HandsOn more.run
  | .done, _ => by
      rw [Arms.run]
      exact handsOn_pure
  | .elif _ h h', hout => by
      rw [Arms.run]
      exact handsOn_bind fun _ => handsOn_ite (h.handsOn hout).handsOn (h'.handsOn hout)
  | .elseIf _ h h', hout => by
      rw [Arms.run]
      exact handsOn_bind fun _ => handsOn_ite (h.handsOn hout).handsOn (h'.handsOn hout)
  | .otherwise _ hbody, hout => by
      rw [Arms.run]
      exact (hbody.handsOn hout).handsOn

theorem Block.handsOn {inLoop : Bool} {ts : List Token} {body : List Stmt} :
    Block inLoop ts body → inLoop = false → AllHandOn body
  | .mk _ hbody, hout => hbody.handsOn hout

theorem Body.handsOn {inLoop : Bool} {ts : List Token} {body : List Stmt} :
    Body inLoop ts body → inLoop = false → AllHandOn body
  | .none, _ => nofun
  | .last h, hout => by
      rintro _ (_ | ⟨_, ⟨⟩⟩)
      rw [Stmt.run]
      exact handsOn_bind fun _ => handsOn_bind fun _ => h.handsOn hout
  | .more h _ hrest, hout => by
      rintro s (_ | ⟨_, hs⟩)
      · rw [Stmt.run]
        exact handsOn_bind fun _ => handsOn_bind fun _ => h.handsOn hout
      · exact hrest.handsOn hout s hs

end

theorem AllHandOn.runAll_append (h : AllHandOn body) (others : List Stmt) :
    (runAll (body ++ others) : Action Flow) = (do let _ ← runAll body; runAll others) := by
  induction body with
  | nil =>
      rw [runAll, bind_of_pure]
      rfl
  | cons s rest ih =>
      have hrest : AllHandOn rest := fun t ht => h t (List.mem_cons_of_mem s ht)
      have hs := h s List.mem_cons_self
      rw [List.cons_append, runAll_cons hs, runAll_cons hs, ih hrest, bind_bind]

/-- Running a script with more behind it is running the script and, if it succeeds, what is behind. -/
theorem IsScript.runProgram_append {ts : List Token} (h : IsScript ts body) (others : List Stmt) :
    runProgram (body ++ others) = (do runProgram body; runProgram others) := by
  cases h with
  | mk _ hbody =>
      simp only [runProgram, perform, (hbody.handsOn rfl).runAll_append, bind_bind, bind_of_pure]

end PromptWeave.Script
