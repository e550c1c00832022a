import PromptWeave.Wildcard.Expansion

/-!
# Expansions step by step

Whatever is resolved and however deep, an expansion is a sequence of a few elementary steps. A relation
between an expansion and a later one that all of them respect holds between the beginning and the end.
-/
namespace PromptWeave.Wildcard

open PromptWeave.Prompt (splitTags)

variable {σ : Type}

/-- What the elementary steps of an expansion have to respect, so that every expansion does. -/
structure Stepwise (e : Expander σ) (R : Expansion σ → Expansion σ → Prop) : Prop where
  refl (x : Expansion σ) : R x x
  trans {x y z : Expansion σ} : R x y → R y z → R x z
  choose (x : Expansion σ) (chance : σ) (count index : Nat) :
    R x ({ x with chance }.note (.chosen count index))
  draw (name : String) (x : Expansion σ) : R x (e.draw name x).2
  advance (name : String) (x : Expansion σ) : R x (e.advance name x).2
  observe (watched name : String) (x : Expansion σ) : R x (e.observe watched name x).2
  cap (tag : String) (x : Expansion σ) : R x (x.note (.capped tag))
  /-- The tags of a line that are not kept are set aside. -/
  defer (line : List String) (x : Expansion σ) :
    R x (x.defer (sortOut (line.flatMap splitTags)).2)
  /-- What has been set aside in between is taken back. -/
  takeBack {x y : Expansion σ} : R x y → R x (y.takeBack x.context.deferred.length).2

namespace Stepwise

variable {e : Expander σ} {R : Expansion σ → Expansion σ → Prop} (h : Stepwise e R)
include h

theorem look (r : Reference) (x : Expansion σ) : R x (e.look r x).2 := by
  cases r with
  | chance name => exact h.draw name x
  | sequential name => exact h.advance name x
  | observer watched name => exact h.observe watched name x
  | malformed => exact h.refl x

section Further

variable {further : Expander.Resolver σ} (hfurther : ∀ token x, R x (further token x).2)
include hfurther

theorem resolveChoice (alternatives : List String) (x : Expansion σ) :
    R x (e.resolveChoice further alternatives x).2 := by
  unfold Expander.resolveChoice
  dsimp only
  split
  · exact h.choose x _ _ _
  · exact h.trans (h.choose x _ _ _) (hfurther _ _)

theorem resolveReference (token : String) (r : Reference) (x : Expansion σ) :
    R x (e.resolveReference further token r x).2 := by
  have hlook := h.look r x
  unfold Expander.resolveReference
  rcases hrun : e.look r x with ⟨_ | line, y⟩
  all_goals rw [hrun] at hlook
  · exact hlook
  · exact h.trans (h.trans hlook (hfurther line y)) (h.defer _ _)

theorem resolveBlock (name : String) (x : Expansion σ) :
    R x (e.resolveBlock further name x).2 := by
  have hdraw := h.draw (Text.trim name) x
  unfold Expander.resolveBlock
  rcases hrun : e.draw (Text.trim name) x with ⟨_ | line, y⟩
  all_goals rw [hrun] at hdraw
  · exact hdraw
  · exact h.trans hdraw (h.takeBack (hfurther line y))

theorem resolvePieces (written : String) (pieces : List Piece) (x : Expansion σ) :
    R x (e.resolvePieces further written pieces x).2 := by
  induction pieces generalizing written x with
  | nil => exact h.refl x
  | cons piece rest ih =>
      cases piece with
      | text s => exact ih _ _
      | block name => exact h.trans (h.resolveBlock hfurther name x) (ih _ _)

end Further

/-- One level further in, the levels that are left have respected the relation already. -/
theorem resolve (levels : Nat) (token : String) (x : Expansion σ) :
    R x (e.resolve levels token x).2 := by
  induction levels generalizing token x with
  | zero => exact h.cap token x
  | succ levels ih =>
      unfold Expander.resolve
      split
      · exact h.resolveChoice ih _ x
      · exact h.resolveReference ih token _ x
      · exact h.resolvePieces ih "" _ x
      · exact h.refl x

theorem expandFrom (done tags : List String) (x : Expansion σ) :
    R x (e.expandFrom done tags x).2 := by
  induction tags generalizing done x with
  | nil => exact h.refl x
  | cons tag rest ih =>
      have hfirst : R x (e.expandTag tag x).2 := h.resolve (e.maxDepth + 1) tag x
      rw [Expander.expandFrom]
      rcases hrun : e.expandTag tag x with ⟨resolved, y⟩
      rw [hrun] at hfirst
      exact h.trans hfirst (ih _ y)

/-- Every expansion of tags respects what its steps respect. -/
theorem expandTags (tags : List String) (x : Expansion σ) : R x (e.expandTags tags x).2 :=
  h.expandFrom [] tags x

end Stepwise
end PromptWeave.Wildcard
