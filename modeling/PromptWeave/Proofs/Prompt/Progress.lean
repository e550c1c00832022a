import PromptWeave.Proofs.Prompt.Sessions

/-!
# Progress agrees with the counters

The progress that is shown for a wildcard is computed in two ways: anew from its counter when a request
begins, and from the counter before its use whenever a line is taken in order. A wildcard that watches
another shows the place of the other instead. What is shown always is a place among the lines of the
wildcard, and for a wildcard that has not watched another in the meantime both ways give the same.
-/
namespace PromptWeave.Prompt

open PromptWeave.Wildcard

/-! ### What is shown -/

/-- Whether all progress that is shown is a place among the lines of a wildcard in the table. -/
def Context.ShowsPlaces (table : Table) (c : Context) : Prop :=
  ∀ name shown, c.progress.get? name = some shown → ∃ lines, table.get? name = some lines ∧
    shown.total = lines.length ∧ 1 ≤ shown.current ∧ shown.current ≤ shown.total

/-- Whether the progress of a wildcard is the one that its counter stands for, if it stands for any. -/
def Context.InStep (table : Table) (name : String) (c : Context) : Prop :=
  ∀ lines, table.get? name = some lines → counterOf c.counters name ≠ 0 →
    c.progress.get? name = Context.progressAt? lines (counterOf c.counters name)

/-- Whether a wildcard watched no other during the events. -/
def Unobserved (name : String) (events : List Event) : Prop :=
  ∀ watched line, .observed watched name line ∉ events

theorem Context.progressAt?_of_ne_zero (lines : List String) {counter : UInt64} (h : counter ≠ 0) :
    Context.progressAt? lines counter =
      some ⟨(counter.toNat - 1) % lines.length + 1, lines.length⟩ := if_neg h

/-- The place of a line is a place among the lines. -/
theorem showsPlaces_insert {table : Table} {c : Context} {name : String} {lines : List String}
    (h : c.ShowsPlaces table) (hlines : table.get? name = some lines) (counter : Nat) :
    { c with progress :=
        c.progress.insert name ⟨lineIndex counter lines.length + 1, lines.length⟩ }.ShowsPlaces
      table := by
  intro other shown hshown
  rw [Dictionary.get?_insert] at hshown
  by_cases hname : name = other
  · subst hname
    rw [if_pos rfl] at hshown
    cases hshown
    have hindex : lineIndex counter lines.length < lines.length := Nat.mod_lt _ (table.length_pos hlines)
    exact ⟨lines, hlines, rfl, Nat.le_add_left 1 _, hindex⟩
  · rw [if_neg hname] at hshown
    exact h other shown hshown

/-- The progress that is computed anew is what the counters stand for. -/
theorem Context.get?_rebuildProgress (c : Context) (table : Table) {name : String}
    {lines : List String} (hlines : table.get? name = some lines)
    (hcounter : counterOf c.counters name ≠ 0) :
    (c.rebuildProgress table).progress.get? name =
      Context.progressAt? lines (counterOf c.counters name) := by
  simp only [Context.rebuildProgress, Dictionary.get?_filterMap]
  cases hget : c.counters.get? name with
  | none => simp [counterOf, hget] at hcounter
  | some counter => simp [counterOf, hget, hlines]

theorem Context.inStep_rebuildProgress (c : Context) (table : Table) (name : String) :
    (c.rebuildProgress table).InStep table name := fun _ hlines hcounter =>
  c.get?_rebuildProgress table hlines hcounter

theorem Context.showsPlaces_rebuildProgress (c : Context) (table : Table) :
    (c.rebuildProgress table).ShowsPlaces table := by
  intro name shown hshown
  simp only [Context.rebuildProgress, Dictionary.get?_filterMap] at hshown
  obtain ⟨counter, -, hbound⟩ := Option.bind_eq_some_iff.1 hshown
  obtain ⟨lines, hlines, hplace⟩ := Option.bind_eq_some_iff.1 hbound
  have hne : counter ≠ 0 := by
    rintro rfl
    cases hplace
  rw [Context.progressAt?_of_ne_zero lines hne] at hplace
  cases hplace
  have hindex := Nat.mod_lt (counter.toNat - 1) (table.length_pos hlines)
  exact ⟨lines, hlines, rfl, Nat.le_add_left 1 _, hindex⟩

/-! ### What an expansion keeps -/

/-- How a later expansion stands to an earlier one: progress stays within the lines, and it stays in
step with the counter of each wildcard that has not watched another since then. -/
structure KeepsStep {σ : Type} (table : Table) (x y : Expansion σ) : Prop where
  places : x.context.ShowsPlaces table → y.context.ShowsPlaces table
  since : ∃ since, y.events = since ++ x.events ∧
    ∀ name, Unobserved name since → x.context.InStep table name → y.context.InStep table name

namespace KeepsStep

variable {σ : Type} {table : Table} {x y z : Expansion σ}

/-- The counters and the progress stand still. -/
theorem still (since : List Event) (hevents : y.events = since ++ x.events)
    (hsession : y.context.session = x.context.session) : KeepsStep table x y := by
  have hcounters : y.context.counters = x.context.counters := congrArg Session.counters hsession
  have hprogress : y.context.progress = x.context.progress := congrArg Session.progress hsession
  refine ⟨fun h => ?_, since, hevents, fun name _ h => ?_⟩
  · rw [Context.ShowsPlaces, hprogress]
    exact h
  · rw [Context.InStep, hcounters, hprogress]
    exact h

theorem trans (hxy : KeepsStep table x y) (hyz : KeepsStep table y z) : KeepsStep table x z := by
  obtain ⟨first, hfirst, hkept⟩ := hxy.since
  obtain ⟨rest, hrest, hkept'⟩ := hyz.since
  refine ⟨fun h => hyz.places (hxy.places h), rest ++ first, ?_, fun name hname h => ?_⟩
  · rw [hrest, hfirst, List.append_assoc]
  · have hboth : Unobserved name rest ∧ Unobserved name first :=
      ⟨fun watched line hmem => hname watched line (List.mem_append_left _ hmem),
        fun watched line hmem => hname watched line (List.mem_append_right _ hmem)⟩
    exact hkept' name hboth.1 (hkept name hboth.2 h)

/-- The line after the last one is taken: what is shown is the place of the counter before, which is
what the counter stands for afterwards. -/
theorem advance (e : Expander σ) (name : String) (x : Expansion σ) :
    KeepsStep e.table x (e.advance name x).2 := by
  unfold Expander.advance
  cases hlines : e.table.get? name with
  | none => exact .still [] rfl rfl
  | some lines =>
      refine ⟨fun h => showsPlaces_insert h hlines _, [.advanced name _], rfl, fun other _ h => ?_⟩
      intro others hothers hne
      have hcounter := counterOf_insert x.context.counters name other (x.counter name + 1)
      have hshown := Dictionary.get?_insert x.context.progress name
        ⟨lineIndex (x.counter name).toNat lines.length + 1, lines.length⟩ other
      change counterOf (x.context.counters.insert name (x.counter name + 1)) other ≠ 0 at hne
      change (x.context.progress.insert name _).get? other = Context.progressAt? others
        (counterOf (x.context.counters.insert name (x.counter name + 1)) other)
      rw [hshown, hcounter]
      rw [hcounter] at hne
      by_cases hname : name = other
      · subst hname
        obtain rfl : lines = others := Option.some.inj (hlines.symm.trans hothers)
        rw [if_pos rfl] at hne
        rw [if_pos rfl, if_pos rfl, Context.progressAt?_of_ne_zero lines hne]
        -- A counter that has run over stands at zero and shows nothing.
        have hnext : (x.counter name + 1).toNat = (x.counter name).toNat + 1 := by
          have hsum := UInt64.toNat_add (x.counter name) 1
          have hlt := UInt64.toNat_lt (x.counter name)
          have hpos : (x.counter name + 1).toNat ≠ 0 := fun hzero =>
            hne (UInt64.toNat_inj.1 hzero)
          have hone : (1 : UInt64).toNat = 1 := rfl
          omega
        rw [hnext]
        rfl
      · rw [if_neg hname] at hne
        rw [if_neg hname, if_neg hname]
        exact h others hothers hne

/-- A wildcard that watches another shows a place among its lines; all others show what they did. -/
theorem observe (e : Expander σ) (watched name : String) (x : Expansion σ) :
    KeepsStep e.table x (e.observe watched name x).2 := by
  unfold Expander.observe
  cases hlines : e.table.get? name with
  | none => exact .still [] rfl rfl
  | some lines =>
      refine ⟨fun h => showsPlaces_insert h hlines _, [.observed watched name _], rfl,
        fun other hother h => ?_⟩
      intro others hothers hne
      have hname : name ≠ other := by
        rintro rfl
        exact hother watched _ List.mem_cons_self
      have hshown := Dictionary.get?_insert x.context.progress name
        ⟨lineIndex ((x.counter watched).toNat - 1) lines.length + 1, lines.length⟩ other
      rw [if_neg hname] at hshown
      exact hshown.trans (h others hothers hne)

end KeepsStep

/-- Every step of an expansion keeps the progress in step with the counters. -/
theorem stepwise_keepsStep {σ : Type} (e : Expander σ) : Stepwise e (KeepsStep e.table) where
  refl x := .still [] rfl rfl
  trans hxy hyz := hxy.trans hyz
  choose x chance count index := .still [.chosen count index] rfl rfl
  draw name x := by
    unfold Expander.draw
    cases e.table.get? name with
    | none => exact .still [] rfl rfl
    | some lines => exact .still [_] rfl rfl
  advance name x := .advance e name x
  observe watched name x := .observe e watched name x
  cap tag x := .still [.capped tag] rfl rfl
  defer line x := .still [] rfl rfl
  takeBack hxy := hxy.trans (.still [] rfl rfl)

/-! ### Requests -/

namespace Processor

variable {σ : Type} (p : Processor σ)

/-- The progress that a request starts from is computed from the counters alone. -/
theorem process_withProgress (x : Expansion σ) (stale : Dictionary Progress) :
    p.process { x with context := { x.context with progress := stale } } = p.process x := rfl

theorem keepsStep_expandLeading (x : Expansion σ) :
    KeepsStep p.expander.table x (p.expandLeading x) := by
  let start : Expansion σ := { x with context := { x.context with leading := [] } }
  have hout : KeepsStep p.expander.table x start := .still [] rfl rfl
  have hexpanded := (stepwise_keepsStep p.expander).expandTags x.context.leading start
  have hback : KeepsStep p.expander.table (p.expander.expandTags x.context.leading start).2
      (p.expandLeading x) := .still [] rfl rfl
  exact (hout.trans hexpanded).trans hback

theorem keepsStep_expandTrailing (x : Expansion σ) :
    KeepsStep p.expander.table x (p.expandTrailing x) := by
  let start : Expansion σ := { x with context := { x.context with trailing := [] } }
  have hout : KeepsStep p.expander.table x start := .still [] rfl rfl
  have hexpanded := (stepwise_keepsStep p.expander).expandTags x.context.trailing start
  have hback : KeepsStep p.expander.table (p.expander.expandTags x.context.trailing start).2
      (p.expandTrailing x) := .still [] rfl rfl
  exact (hout.trans hexpanded).trans hback

/-- Behind the progress that is computed anew, all stages of a request keep it in step. -/
theorem keepsStep_process (h : p.hooks.OnlyScripts) (x : Expansion σ) :
    KeepsStep p.expander.table
      { x with context := x.context.rebuildProgress p.expander.table } (p.process x) := by
  let rebuilt : Expansion σ := { x with context := x.context.rebuildProgress p.expander.table }
  let start : Expansion σ := { rebuilt with context := rebuilt.context.fitResolution }
  let prepared := p.runHooks .postProcessing (p.runHooks .preProcessing start)
  let expanded := p.expandTrailing (p.expandLeading prepared)
  have hhooks (point : HookPoint) (y : Expansion σ) : KeepsStep p.expander.table y (p.runHooks point y) :=
    .still [] rfl (h.session_run _ _ _)
  have hstart : KeepsStep p.expander.table rebuilt start :=
    .still [] rfl (Context.session_fitResolution _)
  have hprepared : KeepsStep p.expander.table start prepared :=
    (hhooks .preProcessing start).trans (hhooks .postProcessing _)
  have hexpanded : KeepsStep p.expander.table prepared expanded :=
    (p.keepsStep_expandLeading prepared).trans (p.keepsStep_expandTrailing _)
  have hfinished : KeepsStep p.expander.table (p.runHooks .afterWildcard expanded) (p.process x) :=
    .still [] rfl rfl
  exact ((hstart.trans hprepared).trans hexpanded).trans ((hhooks .afterWildcard _).trans hfinished)

end Processor

/-- The progress that is shown after a request agrees with the counters, whatever the wildcards, the
scripts, the request and the session that it goes on with. All progress is a place among the lines of
a wildcard in the table. A wildcard whose counter is not zero, and which watched no other during the
request, shows the place of the line before the one that its counter calls for, as it would if the
progress were computed anew. What progress the session has carried in does not matter. -/
theorem progress_agrees_with_counters {σ : Type} (p : Processor σ) (hscripts : p.hooks.OnlyScripts)
    (c : Context) (s : Session) (chance : σ) :
    let table := p.expander.table
    let last := p.process ⟨c.withSession s, chance, []⟩
    let d := last.context
    (∀ name shown, d.progress.get? name = some shown → ∃ lines, table.get? name = some lines ∧
      shown.total = lines.length ∧ 1 ≤ shown.current ∧ shown.current ≤ shown.total) ∧
    (∀ name lines, table.get? name = some lines → 0 < counterOf d.counters name →
      (∀ watched line, .observed watched name line ∉ last.events) →
      d.progress.get? name =
        some ⟨((counterOf d.counters name).toNat - 1) % lines.length + 1, lines.length⟩ ∧
      d.progress.get? name = (d.rebuildProgress table).progress.get? name) ∧
    ∀ stale, p.process ⟨c.withSession { s with progress := stale }, chance, []⟩ = last := by
  intro table last d
  have hkeeps := p.keepsStep_process hscripts ⟨c.withSession s, chance, []⟩
  obtain ⟨since, hevents, hkept⟩ := hkeeps.since
  have hsince : last.events = since := by rw [hevents, List.append_nil]
  have hplaces : d.ShowsPlaces table :=
    hkeeps.places (Context.showsPlaces_rebuildProgress _ _)
  refine ⟨hplaces, fun name lines hlines hpos hunobserved => ?_, fun stale => ?_⟩
  · have hne : counterOf d.counters name ≠ 0 := by
      intro hzero
      rw [hzero] at hpos
      exact absurd hpos (by decide)
    rw [hsince] at hunobserved
    have hstep := hkept name hunobserved (Context.inStep_rebuildProgress _ _ _) lines hlines hne
    have hrebuilt := d.get?_rebuildProgress table hlines hne
    refine ⟨?_, hstep.trans hrebuilt.symm⟩
    rw [hstep, Context.progressAt?_of_ne_zero lines hne]
  · exact p.process_withProgress ⟨c.withSession s, chance, []⟩ stale

/-- A wildcard has been used four times of its three lines; a script runs, the next line is taken, and
another wildcard watches. The session was made with other wildcards. -/
theorem progress_agrees_with_counters_watched :
    let table : Table := .ofList [("n", ["a", "b", "c"]), ("m", ["x", "y"])]
    let chooser : Chooser Unit := ⟨fun _ chance => (0, chance)⟩
    let hook : Hook :=
      ⟨pipelineName, .preProcessing, 1, scriptHandler ⟨⟨100, 100⟩, 0⟩ "main_tags.append('z')"⟩
    let p : Processor Unit := ⟨⟨table, chooser, 10⟩, Registry.empty.register hook⟩
    let c : Context := Context.initial.withText "<*n>, <$n:m>" "" ""
    let s : Session := ⟨.ofList [("n", 4)], .ofList [("n", ⟨7, 9⟩), ("gone", ⟨1, 1⟩)]⟩
    let d := (p.process ⟨c.withSession s, (), []⟩).context
    p.hooks.OnlyScripts ∧ counterOf d.counters "n" = 5 ∧ d.progress.get? "n" = some ⟨2, 3⟩ ∧
      d.progress.get? "gone" = none := by
  intro table chooser hook p c s d
  have hscripts : p.hooks.OnlyScripts :=
    Registry.onlyScripts_empty.register pipelineName .preProcessing 1 ⟨⟨100, 100⟩, 0⟩
      "main_tags.append('z')"
  have hagrees := progress_agrees_with_counters p hscripts c s ()
  have hcounter : counterOf d.counters "n" = 5 := by decide +kernel
  have hunobserved : ∀ watched line,
      .observed watched "n" line ∉ (p.process ⟨c.withSession s, (), []⟩).events := by
    have hall : ((p.process ⟨c.withSession s, (), []⟩).events.all fun
        | .observed _ name _ => name != "n"
        | _ => true) = true := by decide +kernel
    intro watched line hmem
    have hname := List.all_eq_true.1 hall _ hmem
    simp at hname
  have hlines : table.get? "n" = some ["a", "b", "c"] := by decide
  have hgone : table.get? "gone" = none := by decide
  refine ⟨hscripts, hcounter, ?_, ?_⟩
  · have hpos : 0 < counterOf d.counters "n" := by rw [hcounter]; decide
    have hshown := (hagrees.2.1 "n" ["a", "b", "c"] hlines hpos hunobserved).1
    rw [hshown, hcounter]
    decide
  · cases hshown : d.progress.get? "gone" with
    | none => rfl
    | some shown =>
        obtain ⟨lines, hlines, -⟩ := hagrees.1 "gone" shown hshown
        have hnone : table.get? "gone" = some lines := hlines
        rw [hgone] at hnone
        cases hnone

end PromptWeave.Prompt
