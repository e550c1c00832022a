import PromptWeave.Proofs.Prompt.NormalTags
import PromptWeave.Proofs.Wildcard.Cycling

/-!
# Expansions only add to their prompt

An expansion sets tags aside, writes down the lines that it takes, and moves counters and progress on.
It takes nothing away from any of these and touches nothing else, although the blocks in between take
back what their own lines have set aside.
-/
namespace PromptWeave.Wildcard

open PromptWeave.Prompt (Context IsTag Progress isTag_of_mem_splitTags splitTags)

/-- Whether a source of choices always picks one of the things that there are. -/
def Chooser.InRange {σ : Type} (chooser : Chooser σ) : Prop :=
  ∀ count s, 0 < count → (chooser.choose count s).1 < count

theorem Chooser.InRange.getD_choose {σ : Type} {chooser : Chooser σ} (h : chooser.InRange)
    {items : List String} (hpos : 0 < items.length) (s : σ) :
    items[(chooser.choose items.length s).1]? =
      some (items.getD (chooser.choose items.length s).1 "") :=
  getElem?_eq_some_getD (h items.length s hpos)

/-! ### The lines that references find -/

section Look

variable {σ : Type} {e : Expander σ}

/-- The wildcard of which a reference asks for a line. -/
def Reference.target? : Reference → Option String
  | chance name => some name
  | sequential name => some name
  | observer _ name => some name
  | malformed => none

/-- A reference whose target is not in the table finds no line, and nothing has changed. -/
theorem look_of_target {r : Reference} (h : r.target?.bind e.table.get? = none)
    (x : Expansion σ) : e.look r x = (none, x) := by
  cases r with
  | malformed => rfl
  | _ =>
      replace h : e.table.get? _ = none := h
      simp only [Expander.look, Expander.draw, Expander.advance, Expander.observe, h]

/-- A reference whose target is in the table finds one of its lines, which is noted, if choices pick one
of the things that there are. -/
theorem look_of_target_eq_some {r : Reference} {lines : List String}
    (h : r.target?.bind e.table.get? = some lines) (x : Expansion σ) :
    ∃ line event y, e.look r x = (some line, y) ∧ y.events = event :: x.events ∧
      (e.chooser.InRange → line ∈ lines) := by
  cases r with
  | malformed => cases h
  | chance name =>
      replace h : e.table.get? name = some lines := h
      simp only [Expander.look, Expander.draw, h]
      exact ⟨_, _, _, rfl, rfl, fun hrange =>
        List.mem_of_getElem? (hrange.getD_choose (e.table.length_pos h) x.chance)⟩
  | sequential name =>
      replace h : e.table.get? name = some lines := h
      simp only [Expander.look, Expander.advance, h]
      exact ⟨_, _, _, rfl, rfl, fun _ => List.mem_of_getElem? (e.table.getD_lineIndex h _)⟩
  | observer watched name =>
      replace h : e.table.get? name = some lines := h
      simp only [Expander.look, Expander.observe, h]
      exact ⟨_, _, _, rfl, rfl, fun _ => List.mem_of_getElem? (e.table.getD_lineIndex h _)⟩

end Look

/-! ### What an expansion adds -/

/-- Whether a text is a tag in normal form without a star in front. -/
structure IsUnstarred (tag : String) : Prop extends IsTag tag where
  noStar : tag.toList.head? ≠ some '*'

/-- The lines that a wildcard has given. -/
def given (history : Dictionary (List String)) (name : String) : List String :=
  (history.get? name).getD []

/-- How a prompt stands to an earlier one if an expansion lies between them. -/
structure Extends (table : Table) (c d : Context) : Prop where
  frame : d = { c with deferred := d.deferred, counters := d.counters, progress := d.progress,
                       history := d.history }
  deferred : ∃ added, d.deferred = c.deferred ++ added ∧ ∀ tag ∈ added, IsUnstarred tag
  history : ∀ name, ∃ added, given d.history name = given c.history name ++ added ∧
    ∀ line ∈ added, ∃ lines, table.get? name = some lines ∧ line ∈ lines
  counters : ∀ name, c.counters.contains name → d.counters.contains name
  progress : ∀ name, c.progress.contains name → d.progress.contains name

/-! ### What is set aside -/

/-- A text begins with a star exactly if something comes after the star. -/
theorem isSome_after?_star (tag : String) :
    (Text.after? "*" tag).isSome = (tag.toList.head? == some '*') := by
  unfold Text.after? Text.beginsWith
  rcases htag : tag.toList with _ | ⟨c, cs⟩
  · rfl
  · by_cases hc : c = '*'
    · subst hc
      rfl
    · have hne : ('*' == c) = false := beq_eq_false_iff_ne.2 (Ne.symm hc)
      have hstar : "*".toList = ['*'] := rfl
      simp [hstar, List.isPrefixOf, hne, hc]

/-- The tags of a line that are not kept are among its tags and have no star. -/
theorem not_starred_of_mem_sortOut {tags : List String} {tag : String} (h : tag ∈ (sortOut tags).2) :
    tag ∈ tags ∧ tag.toList.head? ≠ some '*' := by
  unfold sortOut at h
  simp only [Option.isSome_map, isSome_after?_star] at h
  split at h
  · obtain ⟨hmem, hnone⟩ := List.mem_filter.1 h
    refine ⟨hmem, fun hstar => ?_⟩
    have hsome : (Text.after? "*" tag).isSome = true := by
      rw [isSome_after?_star, hstar]
      rfl
    rw [Option.isNone_map, Option.isNone_iff_eq_none] at hnone
    rw [hnone] at hsome
    cases hsome
  · rename_i hany
    have hmem : tag ∈ tags := List.mem_of_mem_drop h
    refine ⟨hmem, fun hstar => hany ?_⟩
    exact List.any_eq_true.2 ⟨tag, hmem, by rw [hstar]; rfl⟩

/-- What a line sets aside are tags in normal form without a star. -/
theorem isUnstarred_of_mem_sortOut {line : List String} {tag : String}
    (h : tag ∈ (sortOut (line.flatMap splitTags)).2) : IsUnstarred tag := by
  obtain ⟨hmem, hstar⟩ := not_starred_of_mem_sortOut h
  obtain ⟨text, _, htag⟩ := List.mem_flatMap.1 hmem
  exact { isTag_of_mem_splitTags htag with noStar := hstar }

/-! ### The steps of an expansion -/

theorem contains_insert {α : Type} {d : Dictionary α} {key : String} {value : α} {name : String}
    (h : d.contains name) : (d.insert key value).contains name := by
  unfold Dictionary.contains at h ⊢
  rw [Dictionary.get?_insert]
  split
  · rfl
  · exact h

theorem given_insert (history : Dictionary (List String)) (key name : String)
    (lines : List String) :
    given (history.insert key lines) name = if key = name then lines else given history name := by
  unfold given
  rw [Dictionary.get?_insert]
  split <;> rfl

namespace Extends

variable {table : Table} {c d : Context}

theorem refl (c : Context) : Extends table c c where
  frame := rfl
  deferred := ⟨[], (List.append_nil _).symm, fun _ h => absurd h List.not_mem_nil⟩
  history _ := ⟨[], (List.append_nil _).symm, fun _ h => absurd h List.not_mem_nil⟩
  counters _ h := h
  progress _ h := h

theorem trans {last : Context} (hcd : Extends table c d) (hdl : Extends table d last) :
    Extends table c last where
  frame := by
    have hlast := hdl.frame
    rw [hcd.frame] at hlast
    exact hlast
  deferred := by
    obtain ⟨first, hfirst, hfirsts⟩ := hcd.deferred
    obtain ⟨rest, hrest, hrests⟩ := hdl.deferred
    refine ⟨first ++ rest, by rw [hrest, hfirst, List.append_assoc], fun tag htag => ?_⟩
    exact (List.mem_append.1 htag).elim (hfirsts tag) (hrests tag)
  history name := by
    obtain ⟨first, hfirst, hfirsts⟩ := hcd.history name
    obtain ⟨rest, hrest, hrests⟩ := hdl.history name
    refine ⟨first ++ rest, by rw [hrest, hfirst, List.append_assoc], fun line hline => ?_⟩
    exact (List.mem_append.1 hline).elim (hfirsts line) (hrests line)
  counters name h := hdl.counters name (hcd.counters name h)
  progress name h := hdl.progress name (hcd.progress name h)

theorem insertCounter (c : Context) (name : String) (n : UInt64) :
    Extends table c { c with counters := c.counters.insert name n } :=
  have hsame : Extends table c c := refl c
  { hsame with frame := rfl, counters := fun _ h => contains_insert h }

theorem insertProgress (c : Context) (name : String) (p : Progress) :
    Extends table c { c with progress := c.progress.insert name p } :=
  have hsame : Extends table c c := refl c
  { hsame with frame := rfl, progress := fun _ h => contains_insert h }

/-- A line of a wildcard is added to what the wildcard has given. -/
theorem record (c : Context) {name line : String} {lines : List String}
    (hlines : table.get? name = some lines) (hline : line ∈ lines) :
    Extends table c (c.record name line) :=
  have hsame : Extends table c c := refl c
  { hsame with
    frame := rfl
    history := by
      intro other
      have hgiven : given (c.record name line).history other =
          if name = other then given c.history name ++ [line] else given c.history other :=
        given_insert c.history name other _
      by_cases hname : name = other
      · rw [if_pos hname] at hgiven
        subst hname
        refine ⟨[line], hgiven, fun l hl => ?_⟩
        obtain rfl : l = line := by simpa using hl
        exact ⟨lines, hlines, hline⟩
      · rw [if_neg hname] at hgiven
        exact ⟨[], by rw [hgiven, List.append_nil], fun _ h => absurd h List.not_mem_nil⟩ }

/-- Tags are set aside behind those that have been set aside. -/
theorem append (c : Context) {tags : List String} (htags : ∀ tag ∈ tags, IsUnstarred tag) :
    Extends table c { c with deferred := c.deferred ++ tags } :=
  have hsame : Extends table c c := refl c
  { hsame with frame := rfl, deferred := ⟨tags, rfl, htags⟩ }

/-- Taking back what has been set aside in between leaves what had been set aside before. -/
theorem takeBack (h : Extends table c d) :
    Extends table c { d with deferred := d.deferred.take c.deferred.length } := by
  obtain ⟨added, hadded, -⟩ := h.deferred
  have hbefore : d.deferred.take c.deferred.length = c.deferred := by
    rw [hadded, List.take_left]
  rw [hbefore]
  refine { h with frame := ?_, deferred := ?_ }
  · exact congrArg (fun d : Context => { d with deferred := c.deferred }) h.frame
  · exact ⟨[], (List.append_nil _).symm, fun _ h => absurd h List.not_mem_nil⟩

end Extends

/-- Every step of an expansion only adds to its prompt, if choices pick one of the things that there
are. -/
theorem stepwise_extends {σ : Type} (e : Expander σ) (hchooser : e.chooser.InRange) :
    Stepwise e fun x y => Extends e.table x.context y.context where
  refl x := .refl _
  trans hxy hyz := hxy.trans hyz
  choose x chance count index := .refl _
  draw name x := by
    unfold Expander.draw
    cases hlines : e.table.get? name with
    | none => exact .refl _
    | some lines =>
        have hline := hchooser.getD_choose (e.table.length_pos hlines) x.chance
        exact .record x.context hlines (List.mem_of_getElem? hline)
  advance name x := by
    unfold Expander.advance
    cases hlines : e.table.get? name with
    | none => exact .refl _
    | some lines =>
        have hline := List.mem_of_getElem? (e.table.getD_lineIndex hlines (x.counter name).toNat)
        exact ((Extends.insertCounter x.context name _).trans (.insertProgress _ name _)).trans
          (.record _ hlines hline)
  observe watched name x := by
    unfold Expander.observe
    cases hlines : e.table.get? name with
    | none => exact .refl _
    | some lines =>
        have hline := List.mem_of_getElem?
          (e.table.getD_lineIndex hlines ((x.counter watched).toNat - 1))
        exact (Extends.insertProgress x.context name _).trans (.record _ hlines hline)
  cap tag x := .refl _
  defer line x := .append _ fun tag htag => isUnstarred_of_mem_sortOut htag
  takeBack hxy := hxy.takeBack

/-- A counter that has room for the lines that its wildcard gives in order does not go down. -/
theorem Tallied.counterOf_le {table : Table} {counters last : Dictionary UInt64}
    {events : List Event} (h : Tallied table counters events last) {name : String}
    (hroom : (counterOf counters name).toNat + (taken name events).length < words64) :
    counterOf counters name ≤ counterOf last name := by
  have hlast := h.toNat_counterOf_last hroom
  rw [UInt64.le_iff_toNat_le]
  omega

/-- An expansion only adds to its prompt, whatever the tags, the wildcards and the choices. Tags are
set aside behind those that have been, in normal form and without a star; what a wildcard has given
goes on with lines of that wildcard; no counter and no progress is lost, and no counter goes down as
long as it has room for the lines taken in order; and nothing else of the prompt changes. -/
theorem expansion_extends_context {σ : Type} (e : Expander σ) (hchooser : e.chooser.InRange)
    (tags : List String) (c : Context) (chance : σ) :
    let last := (e.expandTags tags ⟨c, chance, []⟩).2
    let d := last.context
    d = { c with deferred := d.deferred, counters := d.counters, progress := d.progress,
                 history := d.history } ∧
    (∃ added, d.deferred = c.deferred ++ added ∧ ∀ tag ∈ added, IsUnstarred tag) ∧
    (∀ name, ∃ added, given d.history name = given c.history name ++ added ∧
      ∀ line ∈ added, ∃ lines, e.table.get? name = some lines ∧ line ∈ lines) ∧
    (∀ name, (c.counters.contains name → d.counters.contains name) ∧
      (c.progress.contains name → d.progress.contains name)) ∧
    ∀ name, (counterOf c.counters name).toNat + (taken name last.events.reverse).length < words64 →
      counterOf c.counters name ≤ counterOf d.counters name := by
  intro last d
  have hextends : Extends e.table c d :=
    (stepwise_extends e hchooser).expandTags tags ⟨c, chance, []⟩
  obtain ⟨since, hevents, htallied⟩ := (stepwise_grows e).expandTags tags ⟨c, chance, []⟩
  have hsince : last.events.reverse = since := by
    rw [hevents, List.append_nil, List.reverse_reverse]
  refine ⟨hextends.frame, hextends.deferred, hextends.history,
    fun name => ⟨hextends.counters name, hextends.progress name⟩, fun name hroom => ?_⟩
  rw [hsince] at hroom
  exact htallied.counterOf_le hroom

/-- A reference sets a tag aside behind the one that is there, and the same reference in a block sets
none aside. The lines of both are written down. -/
theorem expansion_extends_context_block :
    let chooser : Chooser Unit := ⟨fun count chance => (count - 1, chance)⟩
    let e : Expander Unit := ⟨.ofList [("n", ["a", "b, c"]), ("m", ["<n>"])], chooser, 10⟩
    let c : Context := { Context.initial with deferred := ["z"] }
    let d := (e.expandTags ["<n>", "__m__"] ⟨c, (), []⟩).2.context
    e.chooser.InRange ∧ d.deferred = ["z", "c"] ∧ IsUnstarred "c" ∧
      given d.history "n" = given c.history "n" ++ ["b, c", "b, c"] := by
  intro chooser e c d
  have hrange : e.chooser.InRange := fun count _ hcount => Nat.sub_lt hcount Nat.one_pos
  have hdeferred : d.deferred = ["z", "c"] := by decide +kernel
  have hgiven : given d.history "n" = ["b, c", "b, c"] := by decide +kernel
  obtain ⟨-, ⟨added, hadded, hunstarred⟩, -⟩ :=
    expansion_extends_context e hrange ["<n>", "__m__"] c ()
  have hadded : ["z"] ++ ["c"] = ["z"] ++ added := hdeferred.symm.trans hadded
  obtain rfl : ["c"] = added := List.append_cancel_left hadded
  exact ⟨hrange, hdeferred, hunstarred "c" List.mem_cons_self, hgiven⟩

end PromptWeave.Wildcard
