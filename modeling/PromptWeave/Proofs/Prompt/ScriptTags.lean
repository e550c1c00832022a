import PromptWeave.Proofs.Outcome
import PromptWeave.Prompt.ScriptHook

/-!
# Tags that pass through a script

A script may do with the tags of a prompt what it likes, but none vanishes: what is in no bucket any
more is listed as removed. A script that fails at any step leaves no prompt at all.
-/
namespace PromptWeave.Script

/-! ### Ascending lists -/

/-- Putting a text in front that is no greater than the others keeps a list strictly ascending. -/
theorem pairwise_putUnlessFirst {text : String} {texts : List String}
    (hascending : texts.Pairwise (· < ·)) (hleast : ∀ other ∈ texts, text ≤ other) :
    (putUnlessFirst text texts).Pairwise (· < ·) := by
  cases texts with
  | nil => exact List.pairwise_singleton _ _
  | cons first rest =>
      rw [putUnlessFirst]
      split
      · exact hascending
      · rename_i hne
        have hle : text ≤ first := hleast first List.mem_cons_self
        have hfirst : text < first := by
          rcases Decidable.em (text < first) with hlt | hnot
          · exact hlt
          · exact absurd (String.le_antisymm hle (String.not_lt.1 hnot)) hne
        refine List.pairwise_cons.2 ⟨fun other hother => ?_, hascending⟩
        rcases List.mem_cons.1 hother with rfl | hrest
        · exact hfirst
        · exact String.lt_trans hfirst ((List.pairwise_cons.1 hascending).1 other hrest)

theorem mem_putUnlessFirst {text tag : String} {texts : List String} :
    tag ∈ putUnlessFirst text texts ↔ tag = text ∨ tag ∈ texts := by
  cases texts with
  | nil => simp [putUnlessFirst]
  | cons first rest =>
      rw [putUnlessFirst]
      split
      · rename_i heq
        subst heq
        simp
      · exact List.mem_cons

theorem mem_foldr_putUnlessFirst {tag : String} {texts : List String} :
    tag ∈ texts.foldr putUnlessFirst [] ↔ tag ∈ texts := by
  induction texts with
  | nil => rfl
  | cons text rest ih => rw [List.foldr_cons, mem_putUnlessFirst, ih, List.mem_cons]

theorem pairwise_foldr_putUnlessFirst {texts : List String} (h : texts.Pairwise (· ≤ ·)) :
    (texts.foldr putUnlessFirst []).Pairwise (· < ·) := by
  induction texts with
  | nil => exact List.Pairwise.nil
  | cons text rest ih =>
      obtain ⟨hleast, hrest⟩ := List.pairwise_cons.1 h
      refine pairwise_putUnlessFirst (ih hrest) fun other hother => ?_
      exact hleast other (mem_foldr_putUnlessFirst.1 hother)

/-- Putting texts in order neither adds nor loses any. -/
theorem mem_ascending {tag : String} {texts : List String} : tag ∈ ascending texts ↔ tag ∈ texts := by
  unfold ascending
  rw [mem_foldr_putUnlessFirst, List.mem_mergeSort]

/-- Texts in order are strictly ascending. -/
theorem pairwise_ascending (texts : List String) : (ascending texts).Pairwise (· < ·) := by
  have hsorted : (texts.mergeSort fun a b => a ≤ b).Pairwise fun a b => decide (a ≤ b) = true := by
    refine List.pairwise_mergeSort (fun a b c hab hbc => ?_) (fun a b => ?_) texts
    · exact decide_eq_true (String.le_trans (of_decide_eq_true hab) (of_decide_eq_true hbc))
    · simpa using String.le_total a b
  exact pairwise_foldr_putUnlessFirst (hsorted.imp of_decide_eq_true)

/-! ### Reading variables back -/

/-- The tags in a variable after a run; where there is no such variable they are as they were. -/
def Machine.tagsIn (m : Machine) (name : String) (before : List String) :
    Except ScriptError (List String) :=
  match m.get? name with
  | some v => readTags name v
  | none => .ok before

/-- The tags that a script has listed as removed itself: the texts of the items of its variable for
them, or the text in it. -/
def Machine.listedTags (m : Machine) : List String :=
  match m.get? removedVariable with
  | some (.list items) => items.map Value.text
  | some (.str s) => [s]
  | _ => []

/-- Whether a value is neither a list nor a text. -/
def HoldsNoTags : Value → Prop
  | .list _ => False
  | .str _ => False
  | _ => True

theorem readTags_eq_error_iff {name : String} {v : Value} {e : ScriptError} :
    readTags name v = .error e ↔ HoldsNoTags v ∧ e = .invalidVariable name v.kind := by
  cases v <;> simp [readTags, HoldsNoTags, eq_comm]

theorem Machine.tagsIn_eq_error_iff {m : Machine} {name : String} {before : List String}
    {e : ScriptError} : m.tagsIn name before = .error e ↔
      ∃ v, m.get? name = some v ∧ HoldsNoTags v ∧ e = .invalidVariable name v.kind := by
  unfold Machine.tagsIn
  cases m.get? name with
  | none => simp
  | some v => simp [readTags_eq_error_iff]

theorem Machine.tagsIn_eq_ok_iff {m : Machine} {name : String} {before : List String} :
    (∃ tags, m.tagsIn name before = .ok tags) ↔
      ∀ v, m.get? name = some v → ¬ HoldsNoTags v := by
  unfold Machine.tagsIn
  cases m.get? name with
  | none => simp
  | some v => cases v <;> simp [readTags, HoldsNoTags]

/-- The tags that a script has listed are what is read from its variable for them. -/
theorem Machine.listedTags_of_tagsIn {m : Machine} {listed : List String}
    (h : m.tagsIn removedVariable [] = .ok listed) : m.listedTags = listed := by
  unfold Machine.tagsIn at h
  unfold Machine.listedTags
  cases hget : m.get? removedVariable with
  | none =>
      rw [hget] at h
      exact Except.ok.inj h
  | some v =>
      rw [hget] at h
      cases v with
      | list items => exact Except.ok.inj h
      | str s => exact Except.ok.inj h
      | _ => cases h

/-- Reading back goes over the variables and then takes the tags that the script has listed. -/
theorem readBack_eq (m : Machine) (vars : TagVariables) :
    readBack m vars = do
      let entries ← vars.toList.mapM fun b => (b.1, ·) <$> m.tagsIn b.1 b.2
      let listed ← m.tagsIn removedVariable []
      return (Dictionary.ofList entries).insert removedVariable
        (removedTags vars (.ofList entries) listed) := by
  unfold readBack
  congr 1
  · congr 1
    funext b
    obtain ⟨name, before⟩ := b
    dsimp only [Machine.tagsIn]
    cases m.get? name <;> rfl
  · funext entries
    unfold Machine.tagsIn
    cases m.get? removedVariable <;> rfl

theorem pair_eq_ok {name : String} {x : Except ScriptError (List String)}
    {entry : String × List String} :
    (name, ·) <$> x = .ok entry ↔ ∃ tags, x = .ok tags ∧ entry = (name, tags) := by
  cases x <;> simp [Functor.map, Except.map, eq_comm]

theorem pair_eq_error {name : String} {x : Except ScriptError (List String)} {e : ScriptError} :
    ((name, ·) <$> x : Except ScriptError (String × List String)) = .error e ↔ x = .error e := by
  cases x <;> simp [Functor.map, Except.map]

end PromptWeave.Script

namespace PromptWeave.Prompt

open PromptWeave.Script

/-- The tags in the three buckets of a prompt. -/
def Context.bucketTags (c : Context) : List String := c.leading ++ c.main ++ c.trailing

/-- The variables for tags, in the order in which they are read back, and what they hold at first. -/
theorem toList_scriptVariables (c : Context) : c.scriptVariables.toList =
    [(mainVariable, c.main), (trailingVariable, c.trailing), (leadingVariable, c.leading),
      (removedVariable, c.removed)] := by
  -- The order of the names is not that in which they are bound.
  have hmain : mainVariable < leadingVariable := by decide +kernel
  have htrailing : trailingVariable < leadingVariable ∧
    ¬ trailingVariable < mainVariable ∧ trailingVariable ≠ mainVariable := by decide +kernel
  have hremoved : ∀ name ∈ [mainVariable, trailingVariable, leadingVariable],
    ¬ removedVariable < name ∧ removedVariable ≠ name := by decide +kernel
  simp only [List.forall_mem_cons] at hremoved
  simp only [Context.scriptVariables, Dictionary.ofList, List.foldl, Dictionary.insert,
    Dictionary.insertBinding, Dictionary.empty, hmain, htrailing, hremoved, if_true, if_false]

theorem bucketTags_scriptVariables (c : Context) :
    Script.bucketTags c.scriptVariables = c.bucketTags := by
  simp [Script.bucketTags, Context.bucketTags, Context.scriptVariables, Dictionary.ofList,
    Dictionary.get?_insert, mainVariable, trailingVariable, leadingVariable, removedVariable]

/-- The prompt that comes of what a script leaves. Its removed tags are those that are in no bucket
any more and those that the script has listed. -/
theorem withVariables_of_readBack {m : Machine} {c : Context} {vars : TagVariables}
    (h : readBack m c.scriptVariables = .ok vars) :
    let after := c.withVariables vars
    after.removed = ascending (c.bucketTags.filter (!after.bucketTags.contains ·) ++ m.listedTags) := by
  rw [readBack_eq, toList_scriptVariables, bind_eq_ok] at h
  obtain ⟨entries, hentries, h⟩ := h
  obtain ⟨listed, hlisted, h⟩ := bind_eq_ok.1 h
  obtain rfl := Except.ok.inj h
  rw [m.listedTags_of_tagsIn hlisted]
  simp only [mapM_eq_ok, List.forall₂_cons_left_iff, List.forall₂_nil_left_iff, pair_eq_ok] at hentries
  obtain ⟨-, -, ⟨main, -, rfl⟩, ⟨-, -, ⟨trailing, -, rfl⟩, ⟨-, -, ⟨leading, -, rfl⟩,
    ⟨-, -, ⟨removed, -, rfl⟩, rfl, rfl⟩, rfl⟩, rfl⟩, rfl⟩ := hentries
  unfold removedTags
  rw [bucketTags_scriptVariables]
  simp [Script.bucketTags, Context.bucketTags, Context.withVariables, Dictionary.ofList,
    Dictionary.get?_insert, mainVariable, trailingVariable, leadingVariable, removedVariable]

/-- The variables for tags in the order in which they are read back. -/
def tagVariables : List String :=
  [mainVariable, trailingVariable, leadingVariable, removedVariable]

theorem keys_scriptVariables (c : Context) :
    c.scriptVariables.toList.map Prod.fst = tagVariables := by
  rw [toList_scriptVariables]
  rfl

/-- Reading back fails exactly at the first variable that holds neither a list nor a text. -/
theorem readBack_eq_error_iff {m : Machine} {c : Context} {e : ScriptError} :
    readBack m c.scriptVariables = .error e ↔
      ∃ before name after v, tagVariables = before ++ name :: after ∧
        (∀ other ∈ before, ∀ w, m.get? other = some w → ¬ HoldsNoTags w) ∧
        m.get? name = some v ∧ HoldsNoTags v ∧ e = .invalidVariable name v.kind := by
  rw [readBack_eq, bind_eq_error, mapM_eq_error, ← keys_scriptVariables c]
  constructor
  · rintro (⟨before, item, after, hvars, hbefore, hitem⟩ | ⟨entries, hentries, hlisted⟩)
    · obtain ⟨v, hget, hv, rfl⟩ := Machine.tagsIn_eq_error_iff.1 (pair_eq_error.1 hitem)
      refine ⟨before.map Prod.fst, item.1, after.map Prod.fst, v, ?_, ?_, hget, hv, rfl⟩
      · rw [hvars, List.map_append, List.map_cons]
      · intro other hother
        obtain ⟨b, hb, rfl⟩ := List.mem_map.1 hother
        obtain ⟨entry, hentry⟩ := hbefore b hb
        obtain ⟨tags, htags, -⟩ := pair_eq_ok.1 hentry
        exact Machine.tagsIn_eq_ok_iff.1 ⟨tags, htags⟩
    · -- the variable for removed tags has been read before what the script has listed is read
      rw [toList_scriptVariables, mapM_eq_ok] at hentries
      simp only [List.forall₂_cons_left_iff, pair_eq_ok] at hentries
      obtain ⟨-, -, -, ⟨-, -, -, ⟨-, -, -, ⟨-, -, ⟨removed, hremoved, -⟩, -⟩, -⟩, -⟩, -⟩ := hentries
      obtain ⟨listed, hok⟩ := Machine.tagsIn_eq_ok_iff.2 (Machine.tagsIn_eq_ok_iff.1 ⟨removed, hremoved⟩)
      rw [hok] at hlisted
      cases hlisted
  · rintro ⟨before, name, after, v, hvars, hbefore, hget, hv, rfl⟩
    obtain ⟨before, rest, hsplit, rfl, hrest⟩ := List.map_eq_append_iff.1 hvars
    obtain ⟨item, after, rfl, rfl, rfl⟩ := List.map_eq_cons_iff.1 hrest
    refine Or.inl ⟨before, item, after, hsplit, fun other hother => ?_, ?_⟩
    · obtain ⟨tags, htags⟩ := Machine.tagsIn_eq_ok_iff.2 (hbefore other.1 (List.mem_map_of_mem hother))
      exact ⟨(other.1, tags), pair_eq_ok.2 ⟨tags, htags, rfl⟩⟩
    · exact pair_eq_error.2 (Machine.tagsIn_eq_error_iff.2 ⟨v, hget, hv, rfl⟩)

/-! ### The hook -/

/-- Whether a script is let in, can be read, and runs to its end over the tags of a prompt, where it
leaves a machine. -/
def Finishes (runner : Runner) (source : String) (c : Context) (m : Machine) : Prop :=
  screen source = .ok () ∧ ∃ program, parse source = .ok program ∧
    runProgram program runner.limits (.withTags (.ofSeed runner.seed) c.scriptVariables) = (.ok (), m)

/-- The step at which a script over the tags of a prompt fails, and its error. -/
inductive FailsWith (runner : Runner) (source : String) (c : Context) : ScriptError → Prop where
  | denied {word : String} : deniedWord? source = some word →
      FailsWith runner source c (.denied word)
  | malformed {cause : SyntaxError} : screen source = .ok () → parse source = .error cause →
      FailsWith runner source c (.malformed cause)
  | stopped {program : List Stmt} {stop : Stop} {m : Machine} : screen source = .ok () →
      parse source = .ok program →
      runProgram program runner.limits (.withTags (.ofSeed runner.seed) c.scriptVariables) =
        (.error stop, m) → FailsWith runner source c (.stopped stop)
  /-- A variable for tags holds neither a list nor a text, and those read before it do. -/
  | unreadable {m : Machine} {before after : List String} {name : String} {v : Value} :
      Finishes runner source c m → tagVariables = before ++ name :: after →
      (∀ other ∈ before, ∀ w, m.get? other = some w → ¬ HoldsNoTags w) →
      m.get? name = some v → HoldsNoTags v →
      FailsWith runner source c (.invalidVariable name v.kind)

/-- A script that is let in and read yields what its run yields. -/
theorem run_of_parsed {runner : Runner} {source : String} {c : Context} {program : List Stmt}
    (hscreen : screen source = .ok ()) (hparse : parse source = .ok program) :
    runner.run source c.scriptVariables =
      match runProgram program runner.limits
          (.withTags (.ofSeed runner.seed) c.scriptVariables) with
      | (.error stop, _) => .error (.stopped stop)
      | (.ok (), m) => (readBack m c.scriptVariables).map fun vars => ⟨m.output, vars⟩ := by
  unfold Runner.run
  rw [hscreen, hparse]
  rfl

/-- A script that finishes yields what can be read back. -/
theorem Finishes.run_eq {runner : Runner} {source : String} {c : Context} {m : Machine}
    (h : Finishes runner source c m) : runner.run source c.scriptVariables =
      (readBack m c.scriptVariables).map fun vars => ⟨m.output, vars⟩ := by
  obtain ⟨hscreen, program, hparse, hrun⟩ := h
  rw [run_of_parsed hscreen hparse, hrun]

/-- A script that fails at a step gives the error of that step. -/
theorem FailsWith.run_eq {runner : Runner} {source : String} {c : Context} {e : ScriptError}
    (h : FailsWith runner source c e) : runner.run source c.scriptVariables = .error e := by
  cases h with
  | @denied word hword =>
      have hscreen : screen source = .error (.denied word) := by
        unfold screen
        rw [hword]
      unfold Runner.run
      rw [hscreen]
      rfl
  | malformed hscreen hparse =>
      unfold Runner.run
      rw [hscreen, hparse]
      rfl
  | stopped hscreen hparse hrun => rw [run_of_parsed hscreen hparse, hrun]
  | unreadable hfinishes hvars hbefore hget hv =>
      rw [hfinishes.run_eq, readBack_eq_error_iff.2 ⟨_, _, _, _, hvars, hbefore, hget, hv, rfl⟩]
      rfl

/-- A script either fails at a step or finishes with variables that can be read back. -/
theorem failsWith_or_finishes (runner : Runner) (source : String) (c : Context) :
    (∃ e, FailsWith runner source c e) ∨
      ∃ m vars, Finishes runner source c m ∧ readBack m c.scriptVariables = .ok vars := by
  cases hword : deniedWord? source with
  | some word => exact Or.inl ⟨_, .denied hword⟩
  | none =>
      have hscreen : screen source = .ok () := by
        unfold screen
        rw [hword]
      cases hparse : parse source with
      | error cause => exact Or.inl ⟨_, .malformed hscreen hparse⟩
      | ok program =>
          rcases hrun : runProgram program runner.limits
            (.withTags (.ofSeed runner.seed) c.scriptVariables) with ⟨stop | _, m⟩
          · exact Or.inl ⟨_, .stopped hscreen hparse hrun⟩
          · have hfinishes : Finishes runner source c m := ⟨hscreen, program, hparse, hrun⟩
            cases hread : readBack m c.scriptVariables with
            | ok vars => exact Or.inr ⟨m, vars, hfinishes, hread⟩
            | error e =>
                obtain ⟨_, _, _, _, hvars, hbefore, hget, hv, rfl⟩ := readBack_eq_error_iff.1 hread
                exact Or.inl ⟨_, .unreadable hfinishes hvars hbefore hget hv⟩

/-- How the prompt after a script accounts for the tags before it, if the script leaves a machine. -/
structure Accounts (c : Context) (m : Machine) (after : Context) : Prop where
  kept : ∀ tag ∈ c.bucketTags, tag ∈ after.bucketTags ∨ tag ∈ after.removed
  ascending : after.removed.Pairwise (· < ·)
  removed : ∀ tag, tag ∈ after.removed ↔
    tag ∈ c.bucketTags ∧ tag ∉ after.bucketTags ∨ tag ∈ m.listedTags
  frame : after = { c with leading := after.leading, main := after.main,
                           trailing := after.trailing, removed := after.removed,
                           metadata := after.metadata }
  metadata : ∀ key, key ≠ scriptOutputKey → after.metadata.get? key = c.metadata.get? key

/-- Keeping the output of a script changes one entry of the metadata at most. -/
theorem withScriptOutput_cases (c : Context) (output : String) :
    ∃ metadata, c.withScriptOutput output = { c with metadata } ∧
      ∀ key, key ≠ scriptOutputKey → metadata.get? key = c.metadata.get? key := by
  unfold Context.withScriptOutput
  split
  · exact ⟨c.metadata, rfl, fun _ _ => rfl⟩
  · refine ⟨_, rfl, fun key hkey => ?_⟩
    rw [Dictionary.get?_insert, if_neg (Ne.symm hkey)]

/-- The prompt that comes of what a script leaves accounts for all tags. -/
theorem accounts_of_readBack {m : Machine} {c : Context} {vars : TagVariables}
    (h : readBack m c.scriptVariables = .ok vars) (output : String) :
    Accounts c m ((c.withVariables vars).withScriptOutput output) := by
  obtain ⟨metadata, hafter, hmetadata⟩ := withScriptOutput_cases (c.withVariables vars) output
  have hremoved := withVariables_of_readBack h
  have hmem : ∀ tag, tag ∈ (c.withVariables vars).removed ↔
      tag ∈ c.bucketTags ∧ tag ∉ (c.withVariables vars).bucketTags ∨ tag ∈ m.listedTags := by
    intro tag
    rw [hremoved, mem_ascending, List.mem_append, List.mem_filter]
    simp
  rw [hafter]
  exact {
    kept := by
      intro tag htag
      rcases Decidable.em (tag ∈ (c.withVariables vars).bucketTags) with hin | hout
      · exact Or.inl hin
      · exact Or.inr ((hmem tag).2 (Or.inl ⟨htag, hout⟩))
    ascending := hremoved ▸ pairwise_ascending _
    removed := hmem
    frame := rfl
    metadata := hmetadata }

/-- No tag vanishes silently in a script. If the hook of a script gives a prompt, then the script has
run to its end, each tag of the three buckets is in one of them afterwards or among the removed tags,
which are strictly ascending and are the tags lost from the buckets and those that the script has
listed as removed itself, and nothing else of the prompt changes but the entry for the output. If a
step fails, the hook gives the error of that step, and the prompt goes on as it was. One of the two is
the case. -/
theorem script_hook_loses_no_tag (runner : Runner) (source : String) (c : Context) :
    (∀ after, scriptHandler runner source c = .ok after →
      ∃ m, Finishes runner source c m ∧ Accounts c m after) ∧
    (∀ e, FailsWith runner source c e →
      scriptHandler runner source c = .error (.failed e.message) ∧
        Registry.runHandlers [scriptHandler runner source] c = c) ∧
    ((∃ after, scriptHandler runner source c = .ok after) ∨ ∃ e, FailsWith runner source c e) := by
  have hfails : ∀ e, FailsWith runner source c e →
      scriptHandler runner source c = .error (.failed e.message) := by
    intro e he
    unfold scriptHandler
    rw [he.run_eq]
  have hfinishes : ∀ m vars, Finishes runner source c m →
      readBack m c.scriptVariables = .ok vars → scriptHandler runner source c =
        .ok ((c.withVariables vars).withScriptOutput m.output) := by
    intro m vars hm hvars
    unfold scriptHandler
    rw [hm.run_eq, hvars]
    rfl
  refine ⟨fun after hafter => ?_, fun e he => ⟨hfails e he, ?_⟩, ?_⟩
  · rcases failsWith_or_finishes runner source c with ⟨e, he⟩ | ⟨m, vars, hm, hvars⟩
    · rw [hfails e he] at hafter
      cases hafter
    · rw [hfinishes m vars hm hvars] at hafter
      obtain rfl := Except.ok.inj hafter
      exact ⟨m, hm, accounts_of_readBack hvars m.output⟩
  · have hrun : Registry.runHandlers [scriptHandler runner source] c =
        (scriptHandler runner source c).toOption.getD c := rfl
    rw [hrun, hfails e he]
    rfl
  · rcases failsWith_or_finishes runner source c with he | ⟨m, vars, hm, hvars⟩
    · exact Or.inr he
    · exact Or.inl ⟨_, hfinishes m vars hm hvars⟩

end PromptWeave.Prompt
