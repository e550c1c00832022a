import PromptWeave.Proofs.Text.Slices
import PromptWeave.Proofs.Wildcard.Conservation
import PromptWeave.Proofs.Wildcard.Cutting

/-!
# Expansions with nothing to fall back on

An expansion takes lines and alternatives at places in lists, takes remainders and cuts parts out of tags.
Here each of these steps has a value only where it makes sense, and the tag is cut at bytes. If choices
pick one of the things that there are, nothing is ever missing. Main statements: `expandTag?_bare`,
`expandTags?_bare`.
-/
namespace PromptWeave.Wildcard

open PromptWeave.Prompt (joinTags piecesAt_ne_nil splitTags)
open PromptWeave.Text (slice? slice?_append)

variable {σ : Type}

/-! ### Steps that may have no value -/

/-- Chooses one of several things. There is no choice among nothing. -/
def Chooser.choose? (chooser : Chooser σ) (count : Nat) (chance : σ) : Option (Nat × σ) :=
  if count = 0 then none else some (chooser.choose count chance)

/-- The place of the line that a counter points at. There is none without lines. -/
def lineIndex? (counter count : Nat) : Option Nat := if count = 0 then none else some (counter % count)

/-- The tags that were set aside since there were `count` of them. There must have been as many. -/
def Expansion.takeBack? (x : Expansion σ) (count : Nat) : Option (List String × Expansion σ) :=
  if count ≤ x.context.deferred.length then some (x.takeBack count) else none

/-- Where a block stands in a tag, in bytes, and its name. -/
structure Span where
  start : Nat
  stop : Nat
  name : String
  deriving Repr, DecidableEq

/-- Where the blocks among pieces stand. `start` is the byte at which the pieces begin. -/
def spansFrom : (start : Nat) → List Piece → List Span
  | _, [] => []
  | start, .text s :: rest => spansFrom (start + s.utf8ByteSize) rest
  | start, .block name :: rest =>
      let stop := start + (Piece.block name).written.utf8ByteSize
      ⟨start, stop, name⟩ :: spansFrom stop rest

/-- Where the blocks of a tag stand. -/
def blockSpans (tag : String) : List Span := spansFrom 0 (pieces tag)

/-- Whether a text has an angle bracket at each end. -/
def hasBrackets (text : String) : Bool :=
  2 ≤ text.utf8ByteSize && Text.beginsWith "<" text && Text.endsWith ">" text

/-! ### Expanding -/

/-- What expansions go by if nothing says that every wildcard has a line. -/
structure BareExpander (σ : Type) where
  entries : Dictionary (List String)
  chooser : Chooser σ
  maxDepth : Nat

/-- What expansions go by, without what is known of it. -/
def Expander.bare (e : Expander σ) : BareExpander σ := ⟨e.table.entries, e.chooser, e.maxDepth⟩

namespace BareExpander

/-- Takes a line of a wildcard by chance. -/
def drawn? (e : BareExpander σ) (name : String) (x : Expansion σ) :
    Option (Option String × Expansion σ) :=
  match e.entries.get? name with
  | none => some (none, x)
  | some lines => do
      let (index, chance) ← e.chooser.choose? lines.length x.chance
      let line ← lines[index]?
      return (some line,
        ({ x with chance }.record name line).note (.drawn name lines.length index line))

/-- Takes the next line of a wildcard; after the last comes the first. -/
def advanced? (e : BareExpander σ) (name : String) (x : Expansion σ) :
    Option (Option String × Expansion σ) :=
  match e.entries.get? name with
  | none => some (none, x)
  | some lines => do
      let counter := x.counter name
      let index ← lineIndex? counter.toNat lines.length
      let line ← lines[index]?
      return (some line,
        (((x.setCounter name (counter + 1)).showProgress name ⟨index + 1, lines.length⟩).record
          name line).note (.advanced name line))

/-- Takes the line of a wildcard that stands where another wildcard was used last. -/
def observed? (e : BareExpander σ) (watched name : String) (x : Expansion σ) :
    Option (Option String × Expansion σ) :=
  match e.entries.get? name with
  | none => some (none, x)
  | some lines => do
      let index ← lineIndex? ((x.counter watched).toNat - 1) lines.length
      let line ← lines[index]?
      return (some line,
        ((x.showProgress name ⟨index + 1, lines.length⟩).record name line).note
          (.observed watched name line))

/-- Takes the line that a reference asks for. -/
def look? (e : BareExpander σ) (r : Reference) (x : Expansion σ) :
    Option (Option String × Expansion σ) :=
  match r with
  | .chance name => e.drawn? name x
  | .sequential name => e.advanced? name x
  | .observer watched name => e.observed? watched name x
  | .malformed => some (none, x)

/-- What resolving a tag gives, if every step on the way has a value. -/
abbrev Resolver (σ : Type) := String → Expansion σ → Option (List String × Expansion σ)

/-- Chooses one of several alternatives and resolves it. -/
def resolveChoice? (e : BareExpander σ) (further : Resolver σ) (alternatives : List String)
    (x : Expansion σ) : Option (List String × Expansion σ) := do
  let (index, chance) ← e.chooser.choose? alternatives.length x.chance
  let choice ← alternatives[index]?
  let x := { x with chance }.note (.chosen alternatives.length index)
  if choice.isEmpty then return ([], x) else further choice x

/-- Resolves a reference. -/
def resolveReference? (e : BareExpander σ) (further : Resolver σ) (token : String) (r : Reference)
    (x : Expansion σ) : Option (List String × Expansion σ) := do
  match ← e.look? r x with
  | (none, x) => return ([token], x)
  | (some line, x) =>
      let (resolved, x) ← further line x
      let (kept, aside) := sortOut (resolved.flatMap splitTags)
      return (kept, x.defer aside)

/-- Resolves a block to text. A block that names no wildcard is cut out of its tag. -/
def resolveSpan? (e : BareExpander σ) (further : Resolver σ) (token : String) (s : Span)
    (x : Expansion σ) : Option (String × Expansion σ) := do
  match ← e.drawn? (Text.trim s.name) x with
  | (none, x) => return (← slice? token s.start s.stop, x)
  | (some line, x) =>
      let (resolved, after) ← further line x
      let (aside, after) ← after.takeBack? x.context.deferred.length
      return (joinTags ((resolved ++ aside).flatMap splitTags), after)

/-- Resolves the blocks of a tag. `written` is the text so far, and `last` is the byte behind the last
block. -/
def resolveSpans? (e : BareExpander σ) (further : Resolver σ) (token : String) :
    (written : String) → (last : Nat) → List Span → Expansion σ → Option (String × Expansion σ)
  | written, last, [], x => do
      return (written ++ (← slice? token last token.utf8ByteSize), x)
  | written, last, s :: rest, x => do
      let before ← slice? token last s.start
      let (text, x) ← e.resolveSpan? further token s x
      e.resolveSpans? further token (written ++ before ++ text) s.stop rest x

/-- Resolves a tag when `levels` levels are left. -/
def resolve? (e : BareExpander σ) : (levels : Nat) → Resolver σ
  | 0, token, x => some ([token], x.note (.capped token))
  | levels + 1, token, x =>
      let trimmed := Text.trim token
      if hasBrackets trimmed then do
        let inner ← slice? trimmed 1 (trimmed.utf8ByteSize - 1)
        if inner.toList.any isBar then
          e.resolveChoice? (e.resolve? levels)
            ((Text.piecesAt isBar inner.toList).map fun cs => Text.trim (String.ofList cs)) x
        else e.resolveReference? (e.resolve? levels) token (.ofText (Text.trim inner)) x
      else
        let spans := blockSpans token
        if spans.isEmpty then some ([token], x)
        else do
          let (text, x) ← e.resolveSpans? (e.resolve? levels) token "" 0 spans x
          return ([text], x)

/-- Resolves one tag. -/
def expandTag? (e : BareExpander σ) : Resolver σ := e.resolve? (e.maxDepth + 1)

/-- Resolves tags one after the other. `done` holds the tags so far. -/
def expandFrom? (e : BareExpander σ) :
    (done : List String) → List String → Expansion σ → Option (List String × Expansion σ)
  | done, [], x => some (done, x)
  | done, tag :: rest, x => do
      let (tags, x) ← e.expandTag? tag x
      e.expandFrom? (done ++ tags) rest x

/-- Resolves tags one after the other. -/
def expandTags? (e : BareExpander σ) (tags : List String) (x : Expansion σ) :
    Option (List String × Expansion σ) := e.expandFrom? [] tags x

end BareExpander

/-! ### Lines -/

theorem Chooser.choose?_of_pos {count : Nat} (chooser : Chooser σ) (hcount : 0 < count) (chance : σ) :
    chooser.choose? count chance = some (chooser.choose count chance) :=
  if_neg (Nat.ne_of_gt hcount)

theorem lineIndex?_of_pos {count : Nat} (counter : Nat) (hcount : 0 < count) :
    lineIndex? counter count = some (lineIndex counter count) := if_neg (Nat.ne_of_gt hcount)

section InRange

variable {e : Expander σ} (hrange : e.chooser.InRange)

include hrange in
theorem drawn?_bare (name : String) (x : Expansion σ) : e.bare.drawn? name x = some (e.draw name x) := by
  cases hlines : e.table.entries.get? name with
  | none => simp [BareExpander.drawn?, Expander.draw, Expander.bare, Table.get?, hlines]
  | some lines =>
      have hpos := e.table.length_pos hlines
      have hline := hrange.getD_choose hpos x.chance
      simp only [BareExpander.drawn?, Expander.draw, Expander.bare, Table.get?, hlines,
        Chooser.choose?_of_pos _ hpos, hline, Option.bind_eq_bind, Option.bind_some, Option.pure_def]

theorem advanced?_bare (name : String) (x : Expansion σ) :
    e.bare.advanced? name x = some (e.advance name x) := by
  cases hlines : e.table.entries.get? name with
  | none => simp [BareExpander.advanced?, Expander.advance, Expander.bare, Table.get?, hlines]
  | some lines =>
      have hpos := e.table.length_pos hlines
      simp only [BareExpander.advanced?, Expander.advance, Expander.bare, Table.get?, hlines,
        lineIndex?_of_pos _ hpos, e.table.getD_lineIndex hlines, Option.bind_eq_bind, Option.bind_some,
        Option.pure_def]

theorem observed?_bare (watched name : String) (x : Expansion σ) :
    e.bare.observed? watched name x = some (e.observe watched name x) := by
  cases hlines : e.table.entries.get? name with
  | none => simp [BareExpander.observed?, Expander.observe, Expander.bare, Table.get?, hlines]
  | some lines =>
      have hpos := e.table.length_pos hlines
      simp only [BareExpander.observed?, Expander.observe, Expander.bare, Table.get?, hlines,
        lineIndex?_of_pos _ hpos, e.table.getD_lineIndex hlines, Option.bind_eq_bind, Option.bind_some,
        Option.pure_def]

include hrange

theorem look?_bare (r : Reference) (x : Expansion σ) : e.bare.look? r x = some (e.look r x) := by
  cases r with
  | chance name => exact drawn?_bare hrange name x
  | sequential name => exact advanced?_bare name x
  | observer watched name => exact observed?_bare watched name x
  | malformed => rfl

end InRange

/-! ### Parts of a tag -/

theorem hasBrackets_iff {text : String} :
    hasBrackets text = true ↔ ∃ inner, text = "<" ++ inner ++ ">" := by
  simp only [hasBrackets, Bool.and_eq_true, decide_eq_true_eq, Text.beginsWith, Text.endsWith,
    List.isPrefixOf_iff_prefix]
  constructor
  · rintro ⟨⟨-, rest, hfront⟩, back, hback⟩
    have hback : text.toList = back.reverse ++ ['>'] := by
      simpa using congrArg List.reverse hback.symm
    -- The bracket at the back is not the one at the front, so something stands before it.
    cases hinner : back.reverse with
    | nil => simp [hback, hinner] at hfront
    | cons c inner =>
        have hc : '<' = c := by
          rw [hback, hinner] at hfront
          exact (List.cons.inj hfront).1
        refine ⟨String.ofList inner, ?_⟩
        rw [← String.toList_inj, hback, hinner, ← hc]
        simp
  · rintro ⟨inner, rfl⟩
    have hsize : "<".utf8ByteSize + ">".utf8ByteSize = 2 := rfl
    refine ⟨⟨?_, by simp⟩, by simp⟩
    simp only [String.utf8ByteSize_append]
    omega

/-- Between the bytes of the angle brackets stands what they hold. -/
theorem slice?_brackets (inner : String) :
    slice? ("<" ++ inner ++ ">") 1 (("<" ++ inner ++ ">").utf8ByteSize - 1) = some inner := by
  have hsize : ("<" ++ inner ++ ">").utf8ByteSize - 1 = 1 + inner.utf8ByteSize := by
    simp only [String.utf8ByteSize_append]
    rfl
  rw [hsize]
  exact slice?_append "<" inner ">"

theorem isEmpty_spansFrom (start : Nat) (parts : List Piece) :
    (spansFrom start parts).isEmpty = !parts.any Piece.isBlock := by
  induction parts generalizing start with
  | nil => rfl
  | cons piece rest ih =>
      cases piece with
      | text s => simpa [spansFrom, Piece.isBlock] using ih _
      | block name => rfl

section Levels

variable {e : Expander σ} (hrange : e.chooser.InRange) {levels : Nat}
  (hfurther : ∀ token x, e.bare.resolve? levels token x = some (e.resolve levels token x))
include hrange hfurther

theorem resolveChoice?_bare {alternatives : List String} (hpos : 0 < alternatives.length)
    (x : Expansion σ) :
    e.bare.resolveChoice? (e.bare.resolve? levels) alternatives x =
      some (e.resolveChoice (e.resolve levels) alternatives x) := by
  have hchoice := hrange.getD_choose hpos x.chance
  simp only [BareExpander.resolveChoice?, Expander.resolveChoice, Expander.bare,
    Chooser.choose?_of_pos _ hpos, hchoice, Option.bind_eq_bind, Option.bind_some, Option.pure_def]
  split
  · rfl
  · exact hfurther _ _

theorem resolveReference?_bare (token : String) (r : Reference) (x : Expansion σ) :
    e.bare.resolveReference? (e.bare.resolve? levels) token r x =
      some (e.resolveReference (e.resolve levels) token r x) := by
  unfold BareExpander.resolveReference? Expander.resolveReference
  rw [look?_bare hrange]
  rcases e.look r x with ⟨_ | line, y⟩
  · rfl
  · simp [hfurther]

/-- A block that names no wildcard stands in its tag where its bytes are. -/
theorem resolveSpan?_bare {token : String} {s : Span}
    (hcut : slice? token s.start s.stop = some (Piece.block s.name).written) (x : Expansion σ) :
    e.bare.resolveSpan? (e.bare.resolve? levels) token s x =
      some (e.resolveBlock (e.resolve levels) s.name x) := by
  unfold BareExpander.resolveSpan? Expander.resolveBlock
  rw [drawn?_bare hrange]
  rcases e.draw (Text.trim s.name) x with ⟨_ | line, y⟩
  · simp [hcut, Piece.written]
  · have hgrown := ((stepwise_deferred e).resolve levels line y).length_le
    simp [hfurther, Expansion.takeBack?, hgrown]

/-- Before the pieces that are left, `front` reaches to the end of the last block, and `between` stands
behind it. -/
theorem resolveSpans?_bare {token : String} (front between written : String) {parts : List Piece}
    (htoken : token = front ++ between ++ String.join (parts.map Piece.written)) (x : Expansion σ) :
    e.bare.resolveSpans? (e.bare.resolve? levels) token written front.utf8ByteSize
        (spansFrom (front ++ between).utf8ByteSize parts) x =
      some (e.resolvePieces (e.resolve levels) (written ++ between) parts x) := by
  induction parts generalizing front between written x with
  | nil =>
      have hend : slice? token front.utf8ByteSize token.utf8ByteSize = some between := by
        have hcut := slice?_append front between ""
        rw [String.append_empty, ← String.utf8ByteSize_append] at hcut
        rwa [htoken, List.map_nil, String.join_nil, String.append_empty]
      simp [BareExpander.resolveSpans?, spansFrom, Expander.resolvePieces, hend]
  | cons piece rest ih =>
      rw [List.map_cons, String.join_cons] at htoken
      cases piece with
      -- Text only widens what stands behind the last block; no span ends here.
      | text s =>
          have hspans : spansFrom (front ++ between).utf8ByteSize (.text s :: rest) =
              spansFrom (front ++ (between ++ s)).utf8ByteSize rest := by
            simp only [← String.append_assoc, String.utf8ByteSize_append, spansFrom]
          have hwhole : token =
              front ++ (between ++ s) ++ String.join (rest.map Piece.written) := by
            rw [htoken]
            simp only [Piece.written, String.append_assoc]
          rw [hspans, ih front (between ++ s) written hwhole x, ← String.append_assoc]
          rfl
      | block name =>
          let block := (Piece.block name).written
          let behind := String.join (rest.map Piece.written)
          let start := (front ++ between).utf8ByteSize
          let span : Span := ⟨start, start + block.utf8ByteSize, name⟩
          have hbefore : slice? token front.utf8ByteSize span.start = some between := by
            rw [htoken]
            simp only [span, start, String.utf8ByteSize_append]
            exact slice?_append front between (block ++ behind)
          have hcut : slice? token span.start span.stop = some block := by
            rw [htoken, ← String.append_assoc]
            exact slice?_append (front ++ between) block behind
          have hhere := resolveSpan?_bare hrange hfurther hcut x
          let here := e.resolveBlock (e.resolve levels) name x
          have hrest := ih (front ++ between ++ block) "" (written ++ between ++ here.1)
            (by rw [htoken, String.append_empty, ← String.append_assoc]) here.2
          rw [String.append_empty, String.append_empty, String.utf8ByteSize_append] at hrest
          have hspans : spansFrom start (.block name :: rest) = span :: spansFrom span.stop rest := rfl
          rw [hspans, BareExpander.resolveSpans?, hbefore, hhere]
          exact hrest

end Levels

/-! ### Tags -/

section Tags

variable {e : Expander σ} (hrange : e.chooser.InRange)
include hrange

theorem resolve?_bare (levels : Nat) (token : String) (x : Expansion σ) :
    e.bare.resolve? levels token x = some (e.resolve levels token x) := by
  induction levels generalizing token x with
  | zero => rfl
  | succ levels ih =>
      rw [BareExpander.resolve?, Expander.resolve]
      by_cases hinner : ∃ inner, InBrackets token inner
      · have hbrackets : hasBrackets (Text.trim token) = true := hasBrackets_iff.2 hinner
        obtain ⟨inner, hinner⟩ := hinner
        have htrimmed : Text.trim token = "<" ++ inner ++ ">" := hinner
        have hslice : slice? (Text.trim token) 1 ((Text.trim token).utf8ByteSize - 1) = some inner := by
          rw [htrimmed]
          exact slice?_brackets inner
        simp only [hbrackets, if_true, hslice, Option.bind_eq_bind, Option.bind_some]
        by_cases hbar : '|' ∈ inner.toList
        · rw [Request.ofTag_choice hinner hbar, if_pos (any_isBar_iff.2 hbar)]
          refine resolveChoice?_bare hrange ih ?_ x
          rw [List.length_map]
          exact List.length_pos_iff.2 (piecesAt_ne_nil isBar inner.toList)
        · rw [Request.ofTag_reference hinner hbar, if_neg (mt any_isBar_iff.1 hbar)]
          exact resolveReference?_bare hrange ih token _ x
      · have hbrackets : hasBrackets (Text.trim token) = false :=
          Bool.eq_false_iff.2 (mt hasBrackets_iff.1 hinner)
        have houtside := not_exists.1 hinner
        have htoken : token = "" ++ "" ++ String.join ((pieces token).map Piece.written) := by
          rw [(cuts_iff.2 rfl).join_written]
          simp
        have hspans : e.bare.resolveSpans? (e.bare.resolve? levels) token "" 0 (blockSpans token) x =
            some (e.resolvePieces (e.resolve levels) "" (pieces token) x) :=
          resolveSpans?_bare hrange ih "" "" "" htoken x
        have hblocks : (blockSpans token).isEmpty = !(pieces token).any Piece.isBlock :=
          isEmpty_spansFrom 0 (pieces token)
        cases hany : (pieces token).any Piece.isBlock with
        | false => simp [hbrackets, hblocks, hany, Request.ofTag_plain houtside hany]
        | true => simp [hbrackets, hblocks, hany, hspans, Request.ofTag_blocks houtside hany]

theorem expandTag?_bare (token : String) (x : Expansion σ) :
    e.bare.expandTag? token x = some (e.expandTag token x) :=
  resolve?_bare hrange (e.maxDepth + 1) token x

theorem expandFrom?_bare (done tags : List String) (x : Expansion σ) :
    e.bare.expandFrom? done tags x = some (e.expandFrom done tags x) := by
  induction tags generalizing done x with
  | nil => rfl
  | cons tag rest ih =>
      rw [BareExpander.expandFrom?, expandTag?_bare hrange]
      exact ih _ _

theorem expandTags?_bare (tags : List String) (x : Expansion σ) :
    e.bare.expandTags? tags x = some (e.expandTags tags x) := expandFrom?_bare hrange [] tags x

end Tags

/-- Among the lines of a wildcard without lines there is none that its counter points at. -/
example : ((⟨.ofList [("a", [])], ⟨fun _ chance => (0, chance)⟩, 10⟩ : BareExpander Unit).expandTag?
    "<*a>" ⟨.initial, (), []⟩).isNone = true := by decide +kernel

end PromptWeave.Wildcard
