import Mathlib.Data.List.TakeWhile
import PromptWeave.Proofs.Wildcard.Cutting
import PromptWeave.Proofs.Wildcard.Depth
import PromptWeave.Proofs.Wildcard.Extension

/-!
# Tags that name nothing

A tag that refers to no wildcard in the table stands for itself, to the last character, and leaves
everything as it was. No other tag leaves everything as it was: a line that is found and a choice that is
made are noted. Main statements: `leadsNowhere_iff`, `unresolvable_tags_leave_no_trace`.
-/
namespace PromptWeave.Wildcard

open PromptWeave.Text (splitOnce? trim)

variable {σ : Type} {e : Expander σ}

/-- Whether the text in angle brackets, without the blanks around it, asks for a line that is not there.
A star asks for the next line, and a dollar sign for the line of what comes behind the first colon. -/
inductive LeadsNowhere (table : Table) : List Char → Prop where
  | chance {name} : name.head? ≠ some '*' → name.head? ≠ some '$' →
      table.get? (String.ofList name) = none → LeadsNowhere table name
  | sequential {name} : table.get? (trim (String.ofList name)) = none →
      LeadsNowhere table ('*' :: name)
  | observer {watched name} : ':' ∉ watched → table.get? (trim (String.ofList name)) = none →
      LeadsNowhere table ('$' :: (watched ++ ':' :: name))
  | malformed {spec} : ':' ∉ spec → LeadsNowhere table ('$' :: spec)

/-- Whether a tag names no wildcard in the table: it stands in angle brackets, offers no alternatives and
leads nowhere, or it stands outside of them and none of its blocks is in the table. -/
inductive NamesNothing (table : Table) (tag : String) : Prop where
  | reference {inner} : InBrackets tag inner → '|' ∉ inner.toList →
      LeadsNowhere table (trim inner).toList → NamesNothing table tag
  | blocks {parts} : (∀ inner, ¬ InBrackets tag inner) → Cuts tag.toList parts →
      (∀ name, .block name ∈ parts → table.get? (trim name) = none) → NamesNothing table tag

/-! ### References -/

/-- What comes before and behind the first mark. -/
theorem splitOnce?_of_not_mem {mark : Char} {front : List Char} (h : mark ∉ front) (rest : List Char) :
    splitOnce? mark (String.ofList (front ++ mark :: rest)) =
      some (String.ofList front, String.ofList rest) := by
  have hfront : ∀ c ∈ front, (c != mark) = true := fun c hc =>
    bne_iff_ne.2 fun he => h (he ▸ hc)
  simp only [splitOnce?, String.toList_ofList]
  rw [List.dropWhile_append_of_pos hfront, List.takeWhile_append_of_pos hfront]
  simp

theorem splitOnce?_eq_none {mark : Char} {cs : List Char} (h : mark ∉ cs) :
    splitOnce? mark (String.ofList cs) = none := by
  have hall : cs.dropWhile (· != mark) = [] :=
    List.dropWhile_eq_nil_iff.2 fun c hc => bne_iff_ne.2 fun he => h (he ▸ hc)
  simp [splitOnce?, hall]

theorem LeadsNowhere.target_missing {table : Table} {text : String}
    (h : LeadsNowhere table text.toList) : (Reference.ofText text).target?.bind table.get? = none := by
  generalize htext : text.toList = cs at h
  cases h with
  | chance hstar hdollar hname =>
      subst htext
      rw [String.ofList_toList] at hname
      unfold Reference.ofText
      split
      case h_1 hrest => exact absurd (congrArg List.head? hrest) hstar
      case h_2 hrest => exact absurd (congrArg List.head? hrest) hdollar
      case h_3 => exact hname
  | sequential hname =>
      simp only [Reference.ofText, htext]
      exact hname
  | observer hwatched hname =>
      simp only [Reference.ofText, htext, splitOnce?_of_not_mem hwatched]
      exact hname
  | malformed hspec =>
      simp only [Reference.ofText, htext, splitOnce?_eq_none hspec]
      rfl

theorem leadsNowhere_of_target_missing {table : Table} {text : String}
    (h : (Reference.ofText text).target?.bind table.get? = none) :
    LeadsNowhere table text.toList := by
  unfold Reference.ofText at h
  split at h
  case h_1 name htext =>
    rw [htext]
    exact .sequential h
  case h_2 spec htext =>
    rw [htext]
    by_cases hcolon : ':' ∈ spec
    · obtain ⟨watched, name, rfl, hwatched⟩ := List.eq_append_cons_of_mem hcolon
      rw [splitOnce?_of_not_mem hwatched] at h
      exact .observer hwatched h
    · exact .malformed hcolon
  case h_3 hstar hdollar =>
    have hname : table.get? (String.ofList text.toList) = none := by
      rw [String.ofList_toList]
      exact h
    refine .chance (fun hhead => ?_) (fun hhead => ?_) hname
    · obtain ⟨rest, hrest⟩ := List.head?_eq_some_iff.1 hhead
      exact hstar rest hrest
    · obtain ⟨rest, hrest⟩ := List.head?_eq_some_iff.1 hhead
      exact hdollar rest hrest

/-- The text in angle brackets leads nowhere exactly if its target is not in the table. -/
theorem leadsNowhere_iff {table : Table} {text : String} :
    LeadsNowhere table text.toList ↔ (Reference.ofText text).target?.bind table.get? = none :=
  ⟨LeadsNowhere.target_missing, leadsNowhere_of_target_missing⟩

/-! ### Tags that stand for themselves -/

/-- Blocks that name nothing are written as they are. -/
theorem resolvePieces_of_unknown {parts : List Piece}
    (h : ∀ name, .block name ∈ parts → e.table.get? (trim name) = none)
    (further : Expander.Resolver σ) (written : String) (x : Expansion σ) :
    e.resolvePieces further written parts x =
      (written ++ String.join (parts.map Piece.written), x) := by
  induction parts generalizing written with
  | nil => simp [Expander.resolvePieces]
  | cons piece rest ih =>
      replace ih := ih fun name hname => h name (List.mem_cons_of_mem _ hname)
      rw [List.map_cons, String.join_cons, ← String.append_assoc]
      cases piece with
      | text s => exact ih _
      | block name =>
          have hdraw : e.draw (trim name) x = (none, x) :=
            look_of_target (r := .chance (trim name)) (h name List.mem_cons_self) x
          have hblock : e.resolveBlock further name x = ("__" ++ name ++ "__", x) := by
            simp only [Expander.resolveBlock, hdraw]
          rw [Expander.resolvePieces, hblock]
          exact ih _

/-- A tag that names nothing stands for itself, and nothing has changed. -/
theorem resolve_of_namesNothing {token : String} (h : NamesNothing e.table token) (levels : Nat)
    (x : Expansion σ) : e.resolve (levels + 1) token x = ([token], x) := by
  cases h with
  | @reference inner hinner hbar hnowhere =>
      have hlook := look_of_target (leadsNowhere_iff.1 hnowhere) x
      simp only [Expander.resolve, Request.ofTag_reference hinner hbar, Expander.resolveReference, hlook]
  | @blocks parts houtside hcuts hunknown =>
      obtain rfl := cuts_iff.1 hcuts
      have hwhole : String.join ((pieces token).map Piece.written) = token := by
        rw [hcuts.join_written, String.ofList_toList]
      cases hblocks : (pieces token).any Piece.isBlock with
      | true =>
          simp only [Expander.resolve, Request.ofTag_blocks houtside hblocks,
            resolvePieces_of_unknown hunknown, hwhole, String.empty_append]
      | false => simp only [Expander.resolve, Request.ofTag_plain houtside hblocks]

/-! ### Tags that leave a trace -/

/-- A choice is noted, whatever comes behind it. -/
theorem length_events_lt_of_choice (levels : Nat) (alternatives : List String) (x : Expansion σ) :
    x.events.length < (e.resolveChoice (e.resolve levels) alternatives x).2.events.length := by
  unfold Expander.resolveChoice
  dsimp only
  split
  · exact Nat.lt_succ_self _
  · refine Nat.lt_of_lt_of_le ?_ ((stepwise_events e).resolve levels _ _).length_le
    exact Nat.lt_succ_self _

/-- A line that is found is noted, whatever comes behind it. -/
theorem length_events_lt_of_found {r : Reference} (hfound : r.target?.bind e.table.get? ≠ none)
    (levels : Nat) (token : String) (x : Expansion σ) :
    x.events.length < (e.resolveReference (e.resolve levels) token r x).2.events.length := by
  obtain ⟨lines, hlines⟩ := Option.ne_none_iff_exists'.1 hfound
  obtain ⟨line, event, y, hlook, hnoted, -⟩ := look_of_target_eq_some hlines x
  have hlonger := ((stepwise_events e).resolve levels line y).length_le
  rw [hnoted, List.length_cons] at hlonger
  simp only [Expander.resolveReference, hlook]
  exact hlonger

/-- A block that names a wildcard is noted, whatever comes behind it. -/
theorem length_events_lt_of_known {parts : List Piece} {name : String} (hname : .block name ∈ parts)
    (hknown : e.table.get? (trim name) ≠ none) (levels : Nat) (written : String) (x : Expansion σ) :
    x.events.length < (e.resolvePieces (e.resolve levels) written parts x).2.events.length := by
  have hkept := (stepwise_events e).resolve levels
  induction parts generalizing written x with
  | nil => cases hname
  | cons piece rest ih =>
      have hhere := (stepwise_events e).resolvePieces hkept written [piece] x
      rcases List.mem_cons.1 hname with rfl | hrest
      · obtain ⟨lines, hlines⟩ := Option.ne_none_iff_exists'.1 hknown
        obtain ⟨line, event, drawn, hdraw, hnoted, -⟩ :=
          look_of_target_eq_some (e := e) (r := .chance (trim name)) hlines x
        replace hdraw : e.draw (trim name) x = (some line, drawn) := hdraw
        have hblock : x.events.length <
            (e.resolveBlock (e.resolve levels) name x).2.events.length := by
          have hlonger := (hkept line drawn).length_le
          simp only [Expander.resolveBlock, hdraw, Expansion.takeBack]
          rw [hnoted, List.length_cons] at hlonger
          exact hlonger
        exact hblock.trans_le ((stepwise_events e).resolvePieces hkept _ rest _).length_le
      · cases piece with
        | text s => exact ih hrest _ _
        | block other => exact hhere.length_le.trans_lt (ih hrest _ _)

/-- A tag that stands for itself and leaves no trace names nothing. -/
theorem namesNothing_of_resolve {token : String} {levels : Nat} {x : Expansion σ}
    (h : e.resolve (levels + 1) token x = ([token], x)) : NamesNothing e.table token := by
  have hstill : ¬ x.events.length < (e.resolve (levels + 1) token x).2.events.length := by
    rw [h]
    exact Nat.lt_irrefl _
  by_cases hbrackets : ∃ inner, InBrackets token inner
  · obtain ⟨inner, hinner⟩ := hbrackets
    by_cases hbar : '|' ∈ inner.toList
    · refine absurd ?_ hstill
      simp only [Expander.resolve, Request.ofTag_choice hinner hbar]
      exact length_events_lt_of_choice levels _ x
    · refine .reference hinner hbar (leadsNowhere_iff.2 ?_)
      by_contra hfound
      refine hstill ?_
      simp only [Expander.resolve, Request.ofTag_reference hinner hbar]
      exact length_events_lt_of_found hfound levels token x
  · have houtside := not_exists.1 hbrackets
    refine .blocks houtside (cuts_iff.2 rfl) fun name hname => ?_
    by_contra hknown
    have hblocks : (pieces token).any Piece.isBlock = true := List.any_eq_true.2 ⟨_, hname, rfl⟩
    refine hstill ?_
    simp only [Expander.resolve, Request.ofTag_blocks houtside hblocks]
    exact length_events_lt_of_known hname hknown levels "" x

/-- The tags that name nothing are those that stand for themselves, to the last character and with all
blanks around them, and leave everything as it was: the prompt with its counters, progress, history and
deferred tags, and the source of choices. At the deepest level only the reaching of it is noted. -/
theorem unresolvable_tags_leave_no_trace (e : Expander σ) (token : String) (x : Expansion σ) :
    (∀ levels, e.resolve (levels + 1) token x = ([token], x) ↔ NamesNothing e.table token) ∧
    (NamesNothing e.table token → ∀ levels,
      let echo := e.resolve levels token x
      echo.1 = [token] ∧ echo.2.context = x.context ∧ echo.2.chance = x.chance ∧
        echo.2.choices = x.choices) := by
  refine ⟨fun levels => ⟨namesNothing_of_resolve, fun h => resolve_of_namesNothing h levels x⟩,
    fun h levels => ?_⟩
  cases levels with
  | zero => exact ⟨rfl, rfl, rfl, ((Alike.refl x).capped token).choices_eq.symm⟩
  | succ levels =>
      rw [resolve_of_namesNothing h levels x]
      exact ⟨rfl, rfl, rfl, rfl⟩

/-- A wildcard in the table watches over one that is not there, and a tag has one block that names nothing
and underscores that are no block. Both tags stand for themselves, the second at the deepest level, too. -/
theorem unresolvable_tags_leave_no_trace_observer :
    let chooser : Chooser Unit := ⟨fun count chance => (count - 1, chance)⟩
    let e : Expander Unit := ⟨.ofList [("n", ["a", "b"])], chooser, 10⟩
    let x : Expansion Unit := ⟨{ Prompt.Context.initial with counters := .ofList [("n", 3)] }, (), []⟩
    NamesNothing e.table " <$n : gone> " ∧ NamesNothing e.table "a __gone__ ____" ∧
      e.resolve 4 " <$n : gone> " x = ([" <$n : gone> "], x) ∧
      e.resolve 4 "a __gone__ ____" x = (["a __gone__ ____"], x) ∧
      (e.resolve 0 "a __gone__ ____" x).1 = ["a __gone__ ____"] ∧
      (e.resolve 0 "a __gone__ ____" x).2.choices = [] := by
  intro chooser e x
  have hbrackets : InBrackets " <$n : gone> " "$n : gone" :=
    inner?_eq_some_iff.1 (by decide +kernel)
  have hnowhere : LeadsNowhere e.table (trim "$n : gone").toList :=
    leadsNowhere_iff.2 (by decide +kernel)
  have hreference : NamesNothing e.table " <$n : gone> " :=
    .reference hbrackets (by decide) hnowhere
  have hpieces : pieces "a __gone__ ____" = [.text "a ", .block "gone", .text " ____"] := by
    decide +kernel
  have hblocks : NamesNothing e.table "a __gone__ ____" := by
    refine .blocks (inner?_eq_none_iff.1 (by decide +kernel)) (cuts_iff.2 rfl) fun name hname => ?_
    rw [hpieces] at hname
    obtain rfl : name = "gone" := by simpa using hname
    decide
  have hfirst := unresolvable_tags_leave_no_trace e " <$n : gone> " x
  have hsecond := unresolvable_tags_leave_no_trace e "a __gone__ ____" x
  obtain ⟨htag, -, -, hchoices⟩ := hsecond.2 hblocks 0
  exact ⟨hreference, hblocks, (hfirst.1 3).2 hreference, (hsecond.1 3).2 hblocks, htag, hchoices⟩

end PromptWeave.Wildcard
