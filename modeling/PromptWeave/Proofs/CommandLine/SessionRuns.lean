import Mathlib.Data.List.Chain
import PromptWeave.Proofs.CommandLine.SessionFiles

/-!
# Sessions over several commands

Each command that processes a request as part of a session reads the session from a file and writes it
back. So commands one after the other come to the same prompts as their requests one after the other
in memory. Main statement: `session_files_carry_on_sessions`.
-/
namespace PromptWeave.CommandLine

open PromptWeave.Files (FileTree)
open PromptWeave.Prompt
open PromptWeave.Random (Generator)
open PromptWeave.Wildcard (Table counterOf)

/-! ### Commands and jobs -/

/-- A command that processes a request as part of a session, with what it finds around it. -/
structure Turn where
  env : Environment
  /-- Where the request is. -/
  request : String
  /-- The files as the command finds them. -/
  found : FileTree

namespace Turn

variable (c : Configuration) (path : String) (t : Turn)

/-- What a command comes to when the session is in the file at `path`. -/
def result : Except Failure Context :=
  (outcome (processFile FileTree.disk t.env c t.request (some path)) t.found).1

/-- The files as a command leaves them. -/
def left : FileTree := (outcome (processFile FileTree.disk t.env c t.request (some path)) t.found).2

/-- The request that a command reads, if it can. -/
def request? : Option Request :=
  (outcome (readDocument FileTree.disk .request Request.decode t.request) t.found).1.toOption

/-- Whether the wildcards that a command reads, if it can, have a property. -/
def Loads (p : Table → Prop) : Prop :=
  ∀ table u, outcome (readWildcards FileTree.disk c) t.found = (.ok table, u) → p table

end Turn

/-- Whether each wildcard has fewer lines than there are numbers of 64 bits. -/
def LinesInWords (table : Table) : Prop :=
  ∀ name lines, table.get? name = some lines → lines.length < words64

theorem LinesInWords.of_forall {table : Table} (h : ∀ b ∈ table.toList, b.2.length < words64) :
    LinesInWords table := by
  intro name lines hget
  rw [Table.get?, Dictionary.get?] at hget
  obtain ⟨b, hfind, rfl⟩ := Option.map_eq_some_iff.1 hget
  exact h b (List.mem_of_find?_eq_some hfind)

/-- A request with a processor and scripts that are made anew from a configuration with a seed. -/
def Request.job (c : Configuration) (table : Table) (seed : UInt64) (r : Request) : Job where
  σ := Generator
  processor := ⟨⟨table, .random, c.maxDepth⟩, r.hooks ⟨c.limits, seed⟩⟩
  chance := .ofSeed seed
  context := (Context.new r.row (r.settings.getD c.settings)).withText r.leading r.main r.trailing

/-- The prompts of requests that are processed one after the other in memory, each with the session of
the prompt before. -/
def contextsOf : Session → List Job → List Context
  | _, [] => []
  | s, j :: rest =>
      let context := (j.run s).context
      context :: contextsOf context.session rest

theorem context_run_job (env : Environment) {c : Configuration} {seed : UInt64}
    (hseed : c.seed = some seed) (r : Request) (table : Table) (s : Session) :
    ((r.job c table seed).run s).context = r.run env c table (r.hooks (env.runner c)) s := by
  have hfor : env.seedFor c = seed := by rw [Environment.seedFor, hseed, Option.getD_some]
  rw [Request.run, Environment.runner, Environment.start, hfor]
  rfl

/-! ### One command -/

variable {c : Configuration} {path : String} {t : Turn}

/-- A command that comes to a prompt has found what it needs, and writes the session of the prompt. -/
theorem Turn.exists_found {context : Context} (h : t.result c path = .ok context) :
    ∃ m u, Found t.found t.env c t.request path m u ∧
      context = m.request.run t.env c m.table m.hooks m.session ∧
      u.Writes (t.left c path) path (Text.encode (sessionText context.session)) := by
  rw [Turn.result] at h
  rw [Turn.left]
  rcases processFile_cases t.found t.env c t.request path with ⟨e, u, heq, -⟩ | ⟨m, u, hfound, hrest⟩
  · rw [heq] at h
    cases h
  · rcases hrest with ⟨v, hwrites, heq⟩ | heq
    · rw [heq] at h ⊢
      cases h
      exact ⟨m, u, hfound, rfl, hwrites⟩
    · rw [heq] at h
      cases h

/-- A command that fails, and not because it cannot write, fails before the pipeline. -/
theorem Turn.fails_before {e : Failure} (h : t.result c path = .error e)
    (hwritten : e ≠ .unwritableSession path) : BeforePipeline c t.request path e ∧
      t.found.Grows (t.left c path) ∧ ¬Ready t.found c t.request path := by
  rw [Turn.result] at h
  rw [Turn.left]
  rcases processFile_cases t.found t.env c t.request path with
    ⟨e', u, heq, hfails⟩ | ⟨m, u, -, hrest⟩
  · rw [heq] at h ⊢
    cases h
    exact hfails
  · rcases hrest with ⟨v, -, heq⟩ | heq
    · rw [heq] at h
      cases h
    · rw [heq] at h
      cases h
      exact absurd rfl hwritten

/-- The session of a prompt is read from the file into which it has been written. -/
theorem Turn.sessionIn_left {context : Context} (h : t.result c path = .ok context)
    (hlines : t.Loads c LinesInWords) :
    sessionIn (t.left c path) path = .ok context.session := by
  obtain ⟨m, u, hfound, rfl, hwrites⟩ := t.exists_found h
  refine sessionIn_of_writes (inWords_process _ ?_ ?_ _) hwrites
  · change m.hooks.OnlyScripts
    rw [hfound.hooks]
    exact onlyScripts_hooks _ _
  · have hread : outcome (readWildcards FileTree.disk c) t.found = (.ok m.table, u) := by
      rw [outcome_readWildcards, hfound.wildcards]
    exact hlines m.table u hread

/-! ### Commands one after the other -/

/-- Whether each command finds what lies at a path as the command before has left it. -/
def LeftAlone (c : Configuration) (path : String) (turns : List Turn) : Prop :=
  turns.IsChain fun t next => next.found.entry? path = FileTree.entry? (t.left c path) path

/-- The requests of the commands that come to a prompt, as they are processed in memory. -/
def jobsOf (c : Configuration) (path : String) (table : Table) (seed : UInt64) (turns : List Turn) :
    List Job :=
  (turns.filter fun t => (t.result c path).isOk).filterMap fun t =>
    t.request?.map (Request.job c table seed)

section

variable {table : Table} {seed : UInt64} {start : Session}

/-- A command that fails has no job. -/
theorem jobsOf_cons_of_error {e : Failure} (h : t.result c path = .error e) (rest : List Turn) :
    jobsOf c path table seed (t :: rest) = jobsOf c path table seed rest := by
  have hfails : ¬(t.result c path).isOk := by
    rw [h]
    exact Bool.false_ne_true
  rw [jobsOf, List.filter_cons, if_neg hfails]
  rfl

/-- A command that comes to a prompt has the job of the request that it reads. -/
theorem jobsOf_cons_of_ok {context : Context} {r : Request} (h : t.result c path = .ok context)
    (hrequest : t.request? = some r) (rest : List Turn) : jobsOf c path table seed (t :: rest) =
      r.job c table seed :: jobsOf c path table seed rest := by
  have hdone : (t.result c path).isOk := by
    rw [h]
    rfl
  have hjob : t.request?.map (Request.job c table seed) = some (r.job c table seed) := by
    rw [hrequest, Option.map_some]
  rw [jobsOf, List.filter_cons, if_pos hdone, List.filterMap_cons, hjob]
  rfl

/-- A command goes on with the session that can be read, and leaves the session of its prompt. When it
fails, the session is as it was or can no longer be read. -/
theorem Turn.step (hseed : c.seed = some seed) (hlines : t.Loads c LinesInWords)
    (hwritten : t.result c path ≠ .error (.unwritableSession path)) (htable : t.Loads c (· = table))
    (hstart : ∀ s, sessionIn t.found path = .ok s → s = start) :
    (∃ e, t.result c path = .error e ∧ ∀ s, sessionIn (t.left c path) path = .ok s → s = start) ∨
    ∃ r, t.result c path = .ok ((r.job c table seed).run start).context ∧ t.request? = some r ∧
      sessionIn (t.left c path) path = .ok ((r.job c table seed).run start).context.session := by
  cases hresult : t.result c path with
  | error e =>
      have hne : e ≠ .unwritableSession path := fun he => hwritten (he ▸ hresult)
      obtain ⟨-, hgrows, -⟩ := t.fails_before hresult hne
      exact .inl ⟨e, rfl, fun s hs => hstart s (sessionIn_of_grows hgrows hs)⟩
  | ok context =>
      obtain ⟨m, u, hfound, hcontext, -⟩ := t.exists_found hresult
      have hsession : m.session = start := hstart _ (sessionIn_of_grows hfound.grows hfound.session)
      have hloaded : m.table = table :=
        htable m.table u (by rw [outcome_readWildcards, hfound.wildcards])
      have hjob : context = ((m.request.job c table seed).run start).context := by
        rw [context_run_job t.env hseed, hcontext, hfound.hooks, hsession, hloaded]
      have hrequest : t.request? = some m.request := by
        rw [Turn.request?, outcome_readDocument, hfound.request]
        rfl
      refine .inr ⟨m.request, by rw [hjob], hrequest, ?_⟩
      rw [← hjob]
      exact t.sessionIn_left hresult hlines

/-- Commands one after the other come to the prompts of their requests in memory. -/
theorem contexts_of_turns (hseed : c.seed = some seed) {turns : List Turn}
    (hlines : ∀ t ∈ turns, t.Loads c LinesInWords)
    (hwritten : ∀ t ∈ turns, t.result c path ≠ .error (.unwritableSession path))
    (htable : ∀ t ∈ turns, t.Loads c (· = table)) (halone : LeftAlone c path turns)
    (hstart : ∀ t ∈ turns.head?, ∀ s, sessionIn t.found path = .ok s → s = start) :
    turns.filterMap (fun t => (t.result c path).toOption) =
      contextsOf start (jobsOf c path table seed turns) := by
  induction turns generalizing start with
  | nil => rfl
  | cons t rest ih =>
      obtain ⟨hnext, halone⟩ := List.isChain_cons.1 halone
      have hrest {last : Session} (hlast : ∀ s, sessionIn (t.left c path) path = .ok s → s = last) :
          rest.filterMap (fun t => (t.result c path).toOption) =
            contextsOf last (jobsOf c path table seed rest) := by
        refine ih (fun t ht => hlines t (List.mem_cons_of_mem _ ht))
          (fun t ht => hwritten t (List.mem_cons_of_mem _ ht))
          (fun t ht => htable t (List.mem_cons_of_mem _ ht)) halone fun next hmem s hs => hlast s ?_
        rwa [← sessionIn_congr (hnext next hmem)]
      rcases t.step hseed (hlines t List.mem_cons_self) (hwritten t List.mem_cons_self)
        (htable t List.mem_cons_self) (hstart t rfl) with
        ⟨e, hresult, hsame⟩ | ⟨r, hresult, hrequest, hsession⟩
      · rw [List.filterMap_cons, hresult, jobsOf_cons_of_error hresult]
        exact hrest hsame
      · have hlast : ∀ s, sessionIn (t.left c path) path = .ok s →
            s = ((r.job c table seed).run start).context.session := fun s hs =>
          Except.ok.inj (hs.symm.trans hsession)
        rw [List.filterMap_cons, hresult, jobsOf_cons_of_ok hresult hrequest, contextsOf]
        exact congrArg _ (hrest hlast)

end

/-- The session in a file is carried on as one in memory is. When a command fails, it fails before the
pipeline, because something that it needs is not there, and no file has changed. When it comes to a
prompt, the session of the prompt is what is read from the file afterwards, and no other file has
changed. So commands one after the other, over one table and with one seed, come to the same prompts
as their requests in memory, where each is processed with the session of the prompt before; commands
that fail do not count. It is taken for granted that the session can be written, and that no wildcard
has more lines than can be counted. -/
theorem session_files_carry_on_sessions (c : Configuration) (path : String) (turns : List Turn)
    (hlines : ∀ t ∈ turns, t.Loads c LinesInWords)
    (hwritten : ∀ t ∈ turns, t.result c path ≠ .error (.unwritableSession path)) :
    (∀ t ∈ turns,
      (Ready t.found c t.request path ↔ ∃ context, t.result c path = .ok context) ∧
      (∀ e, t.result c path = .error e → BeforePipeline c t.request path e ∧
        ∀ file, (t.left c path).read? file = t.found.read? file) ∧
      ∀ context, t.result c path = .ok context →
        outcome (readSession FileTree.disk path) (t.left c path) =
          (.ok context.session, t.left c path) ∧
        ∀ file, t.found.resolve file ≠ t.found.resolve path →
          (t.left c path).read? file = t.found.read? file) ∧
    ∀ seed table start, c.seed = some seed → (∀ t ∈ turns, t.Loads c (· = table)) →
      LeftAlone c path turns →
      (∀ t ∈ turns.head?, ∀ s u, outcome (readSession FileTree.disk path) t.found = (.ok s, u) →
        s = start) →
      turns.filterMap (fun t => (t.result c path).toOption) =
        contextsOf start (jobsOf c path table seed turns) := by
  refine ⟨fun t ht => ⟨⟨fun hready => ?_, ?_⟩, fun e he => ?_, fun context hcontext => ?_⟩, ?_⟩
  · cases hresult : t.result c path with
    | ok context => exact ⟨context, rfl⟩
    | error e =>
        have hne : e ≠ .unwritableSession path := fun he => hwritten t ht (he ▸ hresult)
        exact absurd hready (t.fails_before hresult hne).2.2
  · rintro ⟨context, hcontext⟩
    obtain ⟨m, u, hfound, -⟩ := t.exists_found hcontext
    exact hfound.ready
  · have hne : e ≠ .unwritableSession path := fun hunwritable => hwritten t ht (hunwritable ▸ he)
    obtain ⟨hbefore, hgrows, -⟩ := t.fails_before he hne
    exact ⟨hbefore, hgrows.read?⟩
  · refine ⟨?_, fun file hfile => ?_⟩
    · rw [outcome_readSession, t.sessionIn_left hcontext (hlines t ht)]
    · obtain ⟨m, u, hfound, -, hwrites⟩ := t.exists_found hcontext
      rw [← hfound.grows.resolve, ← hfound.grows.resolve path] at hfile
      rw [hwrites.read?_other hfile, hfound.grows.read?]
  · intro seed table start hseed htable halone hstart
    refine contexts_of_turns hseed hlines hwritten htable halone fun t ht s hs => ?_
    exact hstart t ht s t.found (by rw [outcome_readSession, hs])

/-- A request is processed, then one with a script for a point that there is not, and then the first
once more: it goes on with the counter that the first has left. -/
theorem session_files_carry_on_sessions_past_failure :
    let c : Configuration := { Configuration.ofDirectory "w" with seed := some 1 }
    let tree : FileTree := ⟨.ofList [("w", .directory), ("w/n.txt", .file (Text.encode "a\nb")),
      ("r.json", .file (Text.encode "\x7b\"prefix\":\"<*n>\"\x7d")),
      ("b.json", .file (Text.encode
        "\x7b\"scripts\":[\x7b\"hook_point\":\"never\",\"source\":\"\"\x7d]\x7d"))], ""⟩
    let first : Turn := ⟨⟨none, 7⟩, "r.json", tree⟩
    let bad : Turn := ⟨⟨none, 8⟩, "b.json", first.left c "s.json"⟩
    let again : Turn := ⟨⟨none, 9⟩, "r.json", bad.left c "s.json"⟩
    let turns := [first, bad, again]
    let contexts := turns.filterMap fun t => (t.result c "s.json").toOption
    let failures := turns.filterMap fun t =>
      match t.result c "s.json" with
      | .error e => some e
      | .ok _ => none
    failures = [.badPoint 0] ∧
      contexts = contextsOf .initial (jobsOf c "s.json" (.ofList [("n", ["a", "b"])]) 1 turns) ∧
      contexts.map (fun context => counterOf context.counters "n") = [1, 2] := by
  intro c tree first bad again turns contexts failures
  -- The three commands are run once for all that is seen of them.
  have hruns : (turns.all fun t =>
      (outcome (readWildcards FileTree.disk c) t.found).1.toOption.map Table.toList =
        some [("n", ["a", "b"])]) = true ∧ failures = [.badPoint 0] ∧
      contexts.map (fun context => counterOf context.counters "n") = [1, 2] := by
    decide +kernel
  obtain ⟨hread, hfailures, hcounters⟩ := hruns
  have htoList (t : Turn) (ht : t ∈ turns) : t.Loads c (·.toList = [("n", ["a", "b"])]) := by
    intro table u htable
    have hall := of_decide_eq_true (List.all_eq_true.1 hread t ht)
    rw [htable] at hall
    exact Option.some.inj hall
  have hcarry := session_files_carry_on_sessions c "s.json" turns
    (fun t ht table u htable => .of_forall (by rw [htoList t ht table u htable]; decide))
    (fun t ht hresult => by
      have hfails : Failure.unwritableSession "s.json" ∈ failures :=
        List.mem_filterMap.2 ⟨t, ht, by rw [hresult]⟩
      rw [hfailures] at hfails
      simp at hfails)
  refine ⟨hfailures, ?_, hcounters⟩
  refine hcarry.2 1 _ .initial rfl (fun t ht table u htable => ?_) ?_ ?_
  · exact Table.ext ((htoList t ht table u htable).trans (by decide +kernel))
  · have hbad : bad.found = first.left c "s.json" := by with_reducible rfl
    have hagain : again.found = bad.left c "s.json" := by with_reducible rfl
    exact .cons_cons (by rw [hbad]) (.cons_cons (by rw [hagain]) (.singleton _))
  · intro t ht s u hs
    cases ht
    have hnothing : (tree.entry? "s.json").isSome = false := by decide +kernel
    rw [outcome_readSession, sessionIn, hnothing] at hs
    cases hs
    rfl

end PromptWeave.CommandLine
