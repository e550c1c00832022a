import PromptWeave.Proofs.Wildcard.Conservation
import PromptWeave.Proofs.Wildcard.Cutting

/-!
# Blocks stay within their tag

A tag with blocks stays one tag, and it sets nothing aside. Each block of a wildcard gives way to a text
that lists all tags of its line, those among them that were set aside on the way. Everything else of the
tag stays as it is. Main statement: `blocks_stay_within_their_tag`.
-/
namespace PromptWeave.Wildcard

open PromptWeave.Prompt (Context joinTags splitTags splitTags_joinTags)

variable {σ : Type}

/-- An expansion with other tags set aside. -/
def Expansion.withDeferred (x : Expansion σ) (tags : List String) : Expansion σ :=
  { x with context := { x.context with deferred := tags } }

namespace Expander

/-- What comes in place of a block, and the expansion afterwards. -/
inductive Replaces (e : Expander σ) (levels : Nat) (name : String) (x : Expansion σ) :
    String → Expansion σ → Prop where
  /-- A block that names no wildcard stays as it is. -/
  | unknown : e.table.get? (Text.trim name) = none → Replaces e levels name x ("__" ++ name ++ "__") x
  /-- The text lists the tags that the line is resolved to, and behind them those that it sets aside.
  Nothing of the latter stays set aside. -/
  | known {lines line drawn aside text} :
      e.table.get? (Text.trim name) = some lines → (e.chooser.InRange → line ∈ lines) →
      e.draw (Text.trim name) x = (some line, drawn) →
      (e.resolve levels line drawn).2.context.deferred = x.context.deferred ++ aside →
      splitTags text = (e.resolve levels line drawn).1.flatMap splitTags ++ aside.flatMap splitTags →
      Replaces e levels name x text
        ((e.resolve levels line drawn).2.withDeferred x.context.deferred)

/-- The texts that come in place of the pieces of a tag, and the expansion afterwards. -/
inductive Fills (e : Expander σ) (levels : Nat) :
    List Piece → Expansion σ → List String → Expansion σ → Prop where
  | none {x} : Fills e levels [] x [] x
  | text {s rest x texts y} :
      Fills e levels rest x texts y → Fills e levels (.text s :: rest) x (s :: texts) y
  | block {name rest x text mid texts y} :
      e.Replaces levels name x text mid → Fills e levels rest mid texts y →
      Fills e levels (.block name :: rest) x (text :: texts) y

end Expander

variable {e : Expander σ}

/-- A block is resolved to what comes in its place. -/
theorem replaces_resolveBlock (levels : Nat) (name : String) (x : Expansion σ) :
    e.Replaces levels name x (e.resolveBlock (e.resolve levels) name x).1
      (e.resolveBlock (e.resolve levels) name x).2 := by
  cases hlines : e.table.get? (Text.trim name) with
  | none =>
      have hdraw : e.draw (Text.trim name) x = (none, x) :=
        look_of_target (r := .chance (Text.trim name)) hlines x
      unfold Expander.resolveBlock
      rw [hdraw]
      exact .unknown hlines
  | some lines =>
      obtain ⟨line, _, drawn, hdraw, -, hline⟩ :=
        look_of_target_eq_some (e := e) (r := .chance (Text.trim name)) hlines x
      replace hdraw : e.draw (Text.trim name) x = (some line, drawn) := hdraw
      have hsame : drawn.context.deferred = x.context.deferred := by
        have hdeferred := deferred_draw (e := e) (Text.trim name) x
        rwa [hdraw] at hdeferred
      obtain ⟨aside, haside⟩ := (stepwise_deferred e).resolve levels line drawn
      rw [hsame] at haside
      let behind := (e.resolve levels line drawn).2
      have hdrop : behind.context.deferred.drop x.context.deferred.length = aside := by
        rw [← haside, List.drop_left]
      have htake : behind.context.deferred.take x.context.deferred.length = x.context.deferred := by
        rw [← haside, List.take_left]
      have hblock : e.resolveBlock (e.resolve levels) name x =
          (joinTags (((e.resolve levels line drawn).1 ++ aside).flatMap splitTags),
            behind.withDeferred x.context.deferred) := by
        simp only [Expander.resolveBlock, hdraw, Expansion.takeBack, hsame]
        rw [hdrop, htake]
        rfl
      rw [hblock]
      refine .known hlines hline hdraw haside.symm ?_
      rw [splitTags_joinTags isTag_of_mem_flatMap_splitTags, List.flatMap_append]

/-- The pieces of a tag are resolved to what comes in their places, one after the other. -/
theorem fills_resolvePieces (levels : Nat) (written : String) (parts : List Piece) (x : Expansion σ) :
    ∃ texts, e.Fills levels parts x texts (e.resolvePieces (e.resolve levels) written parts x).2 ∧
      (e.resolvePieces (e.resolve levels) written parts x).1 = written ++ String.join texts := by
  induction parts generalizing written x with
  | nil => exact ⟨[], .none, by simp [Expander.resolvePieces]⟩
  | cons piece rest ih =>
      cases piece with
      | text s =>
          obtain ⟨texts, hfills, hjoined⟩ := ih (written ++ s) x
          refine ⟨s :: texts, .text hfills, ?_⟩
          rw [String.join_cons, ← String.append_assoc]
          exact hjoined
      | block name =>
          let here := e.resolveBlock (e.resolve levels) name x
          obtain ⟨texts, hfills, hjoined⟩ := ih (written ++ here.1) here.2
          refine ⟨here.1 :: texts, .block (replaces_resolveBlock levels name x) hfills, ?_⟩
          rw [String.join_cons, ← String.append_assoc]
          exact hjoined

/-- Pieces without a block are filled with themselves. -/
theorem fills_of_no_block (levels : Nat) {parts : List Piece} (x : Expansion σ)
    (h : parts.any Piece.isBlock = false) : e.Fills levels parts x (parts.map Piece.written) x := by
  induction parts with
  | nil => exact .none
  | cons piece rest ih =>
      rw [List.any_cons, Bool.or_eq_false_iff] at h
      cases piece with
      | text s => exact .text (ih h.2)
      | block name => cases h.1

/-- Whatever a tag outside angle brackets holds, it stays one tag, and nothing is set aside for it. As
long as levels are left, the tag is cut at its blocks, of which each is the first that begins and the
shortest that begins there. In place of a block that names a wildcard comes a text whose tags are those
that a line of the wildcard is resolved to, with those behind them that were set aside meanwhile. The
other blocks and the text in between stay as they are. -/
theorem blocks_stay_within_their_tag (e : Expander σ) {token : String}
    (houtside : ∀ inner, ¬ InBrackets token inner) (levels : Nat) (x : Expansion σ) :
    let inner := e.resolve levels token x
    (∃ tag, inner.1 = [tag]) ∧ inner.2.context.deferred = x.context.deferred ∧
      ∀ further, levels = further + 1 → ∃ parts texts, Cuts token.toList parts ∧
        token = String.join (parts.map Piece.written) ∧
        e.Fills further parts x texts inner.2 ∧ inner.1 = [String.join texts] := by
  intro inner
  cases levels with
  | zero => exact ⟨⟨token, rfl⟩, rfl, fun further h => absurd h (Nat.succ_ne_zero _).symm⟩
  | succ levels =>
      have hcuts : Cuts token.toList (pieces token) := cuts_iff.2 rfl
      have hwhole : token = String.join ((pieces token).map Piece.written) := by
        rw [hcuts.join_written, String.ofList_toList]
      by_cases hblocks : (pieces token).any Piece.isBlock
      · have hrequest := Request.ofTag_blocks houtside hblocks
        obtain ⟨texts, hfills, hjoined⟩ := fills_resolvePieces (e := e) levels "" (pieces token) x
        rw [String.empty_append] at hjoined
        have hinner : inner = ([String.join texts],
            (e.resolvePieces (e.resolve levels) "" (pieces token) x).2) := by
          simp only [inner, Expander.resolve, hrequest, hjoined]
        rw [hinner]
        refine ⟨⟨_, rfl⟩, deferred_resolvePieces levels "" (pieces token) x, fun further h => ?_⟩
        cases h
        exact ⟨_, texts, hcuts, hwhole, hfills, rfl⟩
      · have hnone : (pieces token).any Piece.isBlock = false := Bool.eq_false_iff.2 hblocks
        have hrequest := Request.ofTag_plain houtside hnone
        have hinner : inner = ([token], x) := by
          simp only [inner, Expander.resolve, hrequest]
        rw [hinner]
        refine ⟨⟨token, rfl⟩, rfl, fun further h => ?_⟩
        cases h
        exact ⟨_, _, hcuts, hwhole, fills_of_no_block levels x hnone,
          congrArg (fun tag => [tag]) hwhole⟩

/-- Two blocks lead to a reference that sets a tag aside, and between them stands one that names nothing
and touches its neighbour. -/
theorem blocks_stay_within_their_tag_nested :
    let chooser : Chooser Unit := ⟨fun count chance => (count - 1, chance)⟩
    let e : Expander Unit := ⟨.ofList [("n", ["a", "b, c"]), ("m", ["<n>"])], chooser, 10⟩
    let x : Expansion Unit := ⟨{ Context.initial with deferred := ["z"] }, (), []⟩
    let token := "in __m____gone__ __ m __"
    let inner := e.resolve 3 token x
    (∀ inner, ¬ InBrackets token inner) ∧
      Cuts token.toList [.text "in ", .block "m", .block "gone", .text " ", .block " m "] ∧
      inner.1 = ["in b, c__gone__ b, c"] ∧ inner.2.context.deferred = ["z"] ∧
      ∃ texts, e.Fills 2 [.text "in ", .block "m", .block "gone", .text " ", .block " m "] x texts
        inner.2 ∧ String.join texts = "in b, c__gone__ b, c" := by
  intro chooser e x token inner
  have houtside : ∀ inner, ¬ InBrackets token inner := inner?_eq_none_iff.1 (by decide +kernel)
  have hpieces : pieces token =
      [.text "in ", .block "m", .block "gone", .text " ", .block " m "] := by decide +kernel
  have htag : inner.1 = ["in b, c__gone__ b, c"] := by decide +kernel
  have hdeferred : inner.2.context.deferred = ["z"] := by decide +kernel
  obtain ⟨-, -, hcut⟩ := blocks_stay_within_their_tag e houtside 3 x
  obtain ⟨parts, texts, hcuts, -, hfills, hjoined⟩ := hcut 2 rfl
  have hparts := (cuts_iff.1 hcuts).trans hpieces
  rw [hparts] at hcuts hfills
  have hjoined : [String.join texts] = ["in b, c__gone__ b, c"] := hjoined.symm.trans htag
  exact ⟨houtside, hcuts, htag, hdeferred, texts, hfills, List.head_eq_of_cons_eq hjoined⟩

end PromptWeave.Wildcard
