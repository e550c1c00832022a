import PromptWeave.CommandLine.Processing
import PromptWeave.Proofs.Files.Changes
import PromptWeave.Proofs.Prompt.Progress
import PromptWeave.Proofs.Prompt.SessionText
import PromptWeave.Proofs.Text.Bytes
import PromptWeave.Proofs.Wildcard.Scans

/-!
# Sessions in files

A command that processes a request as part of a session reads the request, the wildcards and the
session, runs the pipeline and writes the session. Over a tree of files each step comes to a result and
a tree, so what a whole command comes to is said once, and then divided into the cases that there are.

Main statements: `outcome_processFile`, `processFile_cases`, `sessionIn_of_writes`.
-/
namespace PromptWeave.CommandLine

open PromptWeave.Files (FileTree keepIfDone)
open PromptWeave.Prompt
open PromptWeave.Script (Runner)
open PromptWeave.Wildcard (Store Table)

section

variable {α β : Type}

/-- What something that is done to a tree of files comes to, and the tree that it leaves. -/
def outcome (x : ExceptT Failure (StateM FileTree) α) (t : FileTree) : Except Failure α × FileTree :=
  x.run t

@[simp] theorem outcome_pure (a : α) (t : FileTree) : outcome (pure a) t = (.ok a, t) := rfl

@[simp] theorem outcome_lift (x : StateM FileTree α) (t : FileTree) :
    outcome (liftM x) t = (.ok (x t).1, (x t).2) := rfl

@[simp] theorem outcome_exceptLift (x : StateM FileTree α) (t : FileTree) :
    outcome (ExceptT.lift x) t = (.ok (x t).1, (x t).2) := rfl

@[simp] theorem outcome_liftExcept (x : Except Failure α) (t : FileTree) :
    outcome (liftExcept x) t = (x, t) := by
  cases x <;> rfl

theorem outcome_bind (x : ExceptT Failure (StateM FileTree) α)
    (f : α → ExceptT Failure (StateM FileTree) β) (t : FileTree) :
    outcome (x >>= f) t =
      match outcome x t with
      | (.ok a, u) => outcome (f a) u
      | (.error e, u) => (.error e, u) := by
  simp only [outcome, ExceptT.run, bind, ExceptT.bind, ExceptT.mk, StateT.bind, ExceptT.bindCont]
  cases x t with
  | mk result u => cases result <;> rfl

/-- What a document in a tree of files holds. -/
def documentIn (t : FileTree) (source : Source) (decode : Json.Decoder α) (path : String) :
    Except Failure α :=
  match (t.read? path).bind Text.decode? with
  | none => .error (.unreadable source path)
  | some text =>
      match Json.decodeDocument? decode text with
      | some a => .ok a
      | none => .error (.invalid source path)

theorem outcome_readDocument (source : Source) (decode : Json.Decoder α) (path : String)
    (t : FileTree) : outcome (readDocument FileTree.disk source decode path) t =
      (documentIn t source decode path, t) := by
  have hread : FileTree.disk.read path t = (t.read? path, t) := rfl
  unfold documentIn
  simp only [readDocument, readSource, outcome_bind, outcome_lift, hread]
  cases (t.read? path).bind Text.decode? with
  | none => rfl
  | some text =>
      simp only [outcome_pure]
      cases Json.decodeDocument? decode text <;> rfl

/-- The session in a tree of files; where nothing lies at its path it has not begun. -/
def sessionIn (t : FileTree) (path : String) : Except Failure Session :=
  if (t.entry? path).isSome then documentIn t .session Session.decode path else .ok .initial

theorem outcome_readSession (path : String) (t : FileTree) :
    outcome (readSession FileTree.disk path) t = (sessionIn t path, t) := by
  have hholds : FileTree.disk.holds path t = ((t.entry? path).isSome, t) := rfl
  simp only [readSession, outcome_bind, outcome_lift, hholds, sessionIn]
  split
  · exact outcome_readDocument _ _ _ _
  · rfl

/-- The wildcards of a directory in a tree of files, and the tree with that directory. -/
def wildcardsIn (t : FileTree) (c : Configuration) : Except Failure Table × FileTree :=
  match t.makeDirectory? c.wildcardDirectory with
  | none => (.error (.badWildcards c.wildcardDirectory), t)
  | some u =>
      if u.isDirectory c.wildcardDirectory then
        (.ok (.ofFiles (u.filesIn c.wildcardDirectory)), u)
      else (.error (.badWildcards c.wildcardDirectory), u)

theorem outcome_readWildcards (c : Configuration) (t : FileTree) :
    outcome (readWildcards FileTree.disk c) t = wildcardsIn t c := by
  have hload : (Store.new c.wildcardDirectory).load FileTree.disk t =
      match Store.scan FileTree.disk c.wildcardDirectory t with
      | (.error e, u) => ((.error e, .new c.wildcardDirectory), u)
      | (.ok table, u) => ((.ok table.size, ⟨c.wildcardDirectory, table, 0⟩), u) := by
    rw [Store.load_apply, Store.new]
    cases Store.scan FileTree.disk c.wildcardDirectory t with
    | mk result u => cases result <;> rfl
  unfold wildcardsIn
  rw [readWildcards, outcome_bind, outcome_exceptLift, hload, Store.scan_disk]
  cases t.makeDirectory? c.wildcardDirectory with
  | none => rfl
  | some u =>
      by_cases hdirectory : u.isDirectory c.wildcardDirectory
      · simp only [if_pos hdirectory]
        rfl
      · simp only [if_neg hdirectory]
        rfl

theorem outcome_writeSession (path : String) (s : Session) (t : FileTree) :
    outcome (writeSession FileTree.disk path s) t =
      match t.write? path (Text.encode (sessionText s)) with
      | some u => (.ok (), u)
      | none => (.error (.unwritableSession path), t) := by
  have hwrite : FileTree.disk.write path (Text.encode (sessionText s)) =
      keepIfDone (·.write? path (Text.encode (sessionText s))) := by
    rw [FileTree.disk]
  simp only [writeSession, outcome_bind, outcome_lift, hwrite, keepIfDone]
  cases t.write? path (Text.encode (sessionText s)) <;> rfl

/-! ### What a command needs -/

/-- What a command has read before the pipeline. -/
structure Materials where
  request : Request
  table : Table
  hooks : Registry
  session : Session

/-- What a command reads before the pipeline, and the tree with the directory of wildcards. -/
def materialsIn (t : FileTree) (env : Environment) (c : Configuration) (request path : String) :
    Except Failure Materials × FileTree :=
  match documentIn t .request Request.decode request with
  | .error e => (.error e, t)
  | .ok r =>
      match wildcardsIn t c with
      | (.error e, u) => (.error e, u)
      | (.ok table, u) =>
          match registerScripts (env.runner c) 0 r.scripts .empty with
          | .error e => (.error e, u)
          | .ok hooks => ((sessionIn u path).map fun s => ⟨r, table, hooks, s⟩, u)

/-- Processing reads what it needs, runs the pipeline and writes the session. -/
theorem outcome_processFile (env : Environment) (c : Configuration) (request path : String)
    (t : FileTree) : outcome (processFile FileTree.disk env c request (some path)) t =
      match materialsIn t env c request path with
      | (.error e, u) => (.error e, u)
      | (.ok m, u) =>
          let context := m.request.run env c m.table m.hooks m.session
          match u.write? path (Text.encode (sessionText context.session)) with
          | some v => (.ok context, v)
          | none => (.error (.unwritableSession path), u) := by
  unfold materialsIn
  rw [processFile, outcome_bind, outcome_readDocument]
  cases documentIn t .request Request.decode request with
  | error e => rfl
  | ok r =>
      simp only [outcome_bind, outcome_readWildcards]
      cases wildcardsIn t c with
      | mk result u =>
          cases result with
          | error e => rfl
          | ok table =>
              simp only [outcome_liftExcept]
              cases registerScripts (env.runner c) 0 r.scripts .empty with
              | error e => rfl
              | ok hooks =>
                  simp only [outcome_readSession]
                  cases sessionIn u path with
                  | error e => rfl
                  | ok s =>
                      simp only [outcome_writeSession, Except.map]
                      cases u.write? path _ <;> rfl

end

/-! ### Failures before the pipeline -/

/-- Why a command fails before the pipeline. -/
inductive BeforePipeline (c : Configuration) (request path : String) : Failure → Prop where
  | noRequest : BeforePipeline c request path (.unreadable .request request)
  | badRequest : BeforePipeline c request path (.invalid .request request)
  | badWildcards : BeforePipeline c request path (.badWildcards c.wildcardDirectory)
  | badPoint (index : Nat) : BeforePipeline c request path (.badPoint index)
  | noSession : BeforePipeline c request path (.unreadable .session path)
  | badSession : BeforePipeline c request path (.invalid .session path)

/-- Whether the point of a script is one of those that there are. -/
def ScriptRequest.Known (s : ScriptRequest) : Prop := ∃ point, HookPoint.ofName? s.point = .ok point

/-- Registers a script at its point. -/
def ScriptRequest.registerIn (runner : Runner) (hooks : Registry) (s : ScriptRequest) : Registry :=
  match HookPoint.ofName? s.point with
  | .ok point =>
      hooks.register
        ⟨pipelineName, point, s.priority.getD defaultPriority, scriptHandler runner s.source⟩
  | .error _ => hooks

/-- The scripts of a request as hooks, registered in their order. -/
def Request.hooks (runner : Runner) (r : Request) : Registry :=
  r.scripts.foldl (ScriptRequest.registerIn runner) .empty

section

variable {runner : Runner} {scripts : List ScriptRequest}

theorem registerScripts_of_known (h : ∀ s ∈ scripts, s.Known) (index : Nat) (hooks : Registry) :
    registerScripts runner index scripts hooks =
      .ok (scripts.foldl (ScriptRequest.registerIn runner) hooks) := by
  induction scripts generalizing index hooks with
  | nil => rfl
  | cons s rest ih =>
      obtain ⟨point, hpoint⟩ := h s List.mem_cons_self
      have hhook : scriptHook runner index s = .ok
          ⟨pipelineName, point, s.priority.getD defaultPriority, scriptHandler runner s.source⟩ := by
        rw [scriptHook, hpoint]
      have hregister : ScriptRequest.registerIn runner hooks s = hooks.register
          ⟨pipelineName, point, s.priority.getD defaultPriority, scriptHandler runner s.source⟩ := by
        rw [ScriptRequest.registerIn, hpoint]
      rw [registerScripts, hhook, List.foldl_cons, hregister]
      exact ih (fun other hother => h other (List.mem_cons_of_mem s hother)) _ _

/-- Registering scripts fails at one whose point there is not. -/
theorem registerScripts_cases (runner : Runner) (scripts : List ScriptRequest) (index : Nat)
    (hooks : Registry) : (∀ s ∈ scripts, s.Known) ∨
      ∃ place, registerScripts runner index scripts hooks = .error (.badPoint place) := by
  induction scripts generalizing index hooks with
  | nil => exact .inl (by simp)
  | cons s rest ih =>
      cases hpoint : HookPoint.ofName? s.point with
      | error e =>
          refine .inr ⟨index, ?_⟩
          rw [registerScripts, scriptHook, hpoint]
      | ok point =>
          have hrest := ih (index + 1) (hooks.register
            ⟨pipelineName, point, s.priority.getD defaultPriority, scriptHandler runner s.source⟩)
          rw [registerScripts, scriptHook, hpoint]
          exact hrest.imp (fun h => List.forall_mem_cons.2 ⟨⟨point, hpoint⟩, h⟩) id

end

section

variable {t u : FileTree} {env : Environment} {c : Configuration} {request path : String}
  {e : Failure}

theorem eq_or_eq_of_documentIn {α : Type} {source : Source} {decode : Json.Decoder α}
    {place : String} (h : documentIn t source decode place = .error e) :
    e = .unreadable source place ∨ e = .invalid source place := by
  unfold documentIn at h
  split at h
  · exact .inl (Except.error.inj h).symm
  · split at h
    · cases h
    · exact .inr (Except.error.inj h).symm

theorem eq_or_eq_of_sessionIn (h : sessionIn t path = .error e) :
    e = .unreadable .session path ∨ e = .invalid .session path := by
  unfold sessionIn at h
  split at h
  · exact eq_or_eq_of_documentIn h
  · cases h

/-- Reading wildcards makes directories at most. -/
theorem grows_wildcardsIn (t : FileTree) (c : Configuration) : t.Grows (wildcardsIn t c).2 := by
  unfold wildcardsIn
  cases hmake : t.makeDirectory? c.wildcardDirectory with
  | none => exact .refl t
  | some u =>
      have hgrows := FileTree.grows_of_makeDirectory? hmake
      by_cases hdirectory : u.isDirectory c.wildcardDirectory
      · simpa only [if_pos hdirectory] using hgrows
      · simpa only [if_neg hdirectory] using hgrows

theorem eq_of_wildcardsIn (h : (wildcardsIn t c).1 = .error e) :
    e = .badWildcards c.wildcardDirectory := by
  unfold wildcardsIn at h
  split at h
  · exact (Except.error.inj h).symm
  · split at h
    · cases h
    · exact (Except.error.inj h).symm

/-- Whether a command finds all that it needs: a request whose scripts are for points that there are,
then wildcards, and then a session. -/
structure Ready (t : FileTree) (c : Configuration) (request path : String) : Prop where
  request : ∃ r, outcome (readDocument FileTree.disk .request Request.decode request) t = (.ok r, t) ∧
    ∀ s ∈ r.scripts, s.Known
  session : ∃ table u s, outcome (readWildcards FileTree.disk c) t = (.ok table, u) ∧
    outcome (readSession FileTree.disk path) u = (.ok s, u)

/-- What a command has found before the pipeline. -/
structure Found (t : FileTree) (env : Environment) (c : Configuration) (request path : String)
    (m : Materials) (u : FileTree) : Prop where
  request : documentIn t .request Request.decode request = .ok m.request
  known : ∀ s ∈ m.request.scripts, s.Known
  wildcards : wildcardsIn t c = (.ok m.table, u)
  hooks : m.hooks = m.request.hooks (env.runner c)
  session : sessionIn u path = .ok m.session

/-- A command reads all that it needs where it finds it. -/
theorem Ready.exists_materialsIn (h : Ready t c request path) (env : Environment) :
    ∃ m u, materialsIn t env c request path = (.ok m, u) := by
  obtain ⟨r, hrequest, hknown⟩ := h.request
  obtain ⟨table, u, s, htable, hsession⟩ := h.session
  rw [outcome_readDocument, Prod.mk.injEq] at hrequest
  rw [outcome_readWildcards] at htable
  rw [outcome_readSession, Prod.mk.injEq] at hsession
  refine ⟨⟨r, table, r.hooks (env.runner c), s⟩, u, ?_⟩
  unfold materialsIn
  simp only [hrequest.1, htable, registerScripts_of_known hknown, hsession.1]
  rfl

/-- Before the pipeline a command finds all that it needs, or fails. -/
theorem materialsIn_cases (t : FileTree) (env : Environment) (c : Configuration)
    (request path : String) :
    (∃ m u, materialsIn t env c request path = (.ok m, u) ∧ Found t env c request path m u) ∨
      ∃ e u, materialsIn t env c request path = (.error e, u) ∧
        BeforePipeline c request path e ∧ t.Grows u := by
  have hgrows := grows_wildcardsIn t c
  unfold materialsIn
  cases hrequest : documentIn t .request Request.decode request with
  | error e =>
      refine .inr ⟨e, t, rfl, ?_, .refl t⟩
      rcases eq_or_eq_of_documentIn hrequest with rfl | rfl
      · exact .noRequest
      · exact .badRequest
  | ok r =>
      cases hwildcards : wildcardsIn t c with
      | mk result u =>
          rw [hwildcards] at hgrows
          cases result with
          | error e =>
              obtain rfl := eq_of_wildcardsIn (congrArg Prod.fst hwildcards)
              exact .inr ⟨_, u, rfl, .badWildcards, hgrows⟩
          | ok table =>
              simp only
              rcases registerScripts_cases (env.runner c) r.scripts 0 .empty with
                hknown | ⟨place, hplace⟩
              · rw [registerScripts_of_known hknown]
                cases hsession : sessionIn u path with
                | error e =>
                    refine .inr ⟨e, u, rfl, ?_, hgrows⟩
                    rcases eq_or_eq_of_sessionIn hsession with rfl | rfl
                    · exact .noSession
                    · exact .badSession
                | ok s =>
                    exact .inl ⟨⟨r, table, _, s⟩, u, rfl, hrequest, hknown, hwildcards, rfl, hsession⟩
              · rw [hplace]
                exact .inr ⟨_, u, rfl, .badPoint place, hgrows⟩

namespace Found

variable {m : Materials}

theorem ready (h : Found t env c request path m u) : Ready t c request path where
  request := ⟨m.request, by rw [outcome_readDocument, h.request], h.known⟩
  session := ⟨m.table, u, m.session, by rw [outcome_readWildcards, h.wildcards],
    by rw [outcome_readSession, h.session]⟩

theorem grows (h : Found t env c request path m u) : t.Grows u := by
  have hgrows := grows_wildcardsIn t c
  rwa [h.wildcards] at hgrows

end Found

/-- A command fails before the pipeline, or takes what it has found through the pipeline and writes the
session of the prompt. -/
theorem processFile_cases (t : FileTree) (env : Environment) (c : Configuration)
    (request path : String) :
    (∃ e u, outcome (processFile FileTree.disk env c request (some path)) t = (.error e, u) ∧
      BeforePipeline c request path e ∧ t.Grows u ∧ ¬Ready t c request path) ∨
    ∃ m u, Found t env c request path m u ∧
      let context := m.request.run env c m.table m.hooks m.session
      (∃ v, u.Writes v path (Text.encode (sessionText context.session)) ∧
        outcome (processFile FileTree.disk env c request (some path)) t = (.ok context, v)) ∨
      outcome (processFile FileTree.disk env c request (some path)) t =
        (.error (.unwritableSession path), u) := by
  rw [outcome_processFile]
  rcases materialsIn_cases t env c request path with
    ⟨m, u, hmaterials, hfound⟩ | ⟨e, u, hmaterials, hbefore, hgrows⟩
  · refine .inr ⟨m, u, hfound, ?_⟩
    rw [hmaterials]
    dsimp only
    generalize m.request.run env c m.table m.hooks m.session = context
    cases hwrite : u.write? path (Text.encode (sessionText context.session)) with
    | none => exact .inr rfl
    | some v => exact .inl ⟨v, FileTree.writes_of_write? hwrite, rfl⟩
  · have hunready : ¬Ready t c request path := fun hready => by
      obtain ⟨m, v, hready⟩ := hready.exists_materialsIn env
      cases hmaterials.symm.trans hready
    rw [hmaterials]
    exact .inl ⟨e, u, rfl, hbefore, hgrows, hunready⟩

end

/-! ### Sessions that are written -/

section

variable {t u : FileTree} {path : String} {s : Session}

/-- A session that has been written is the one that is read. -/
theorem sessionIn_of_writes (hs : s.InWords)
    (h : t.Writes u path (Text.encode (sessionText s))) : sessionIn u path = .ok s := by
  have hdocument : documentIn u .session Session.decode path = .ok s := by
    unfold documentIn
    rw [h.read?_eq, Option.bind_some, Text.decode?_encode]
    simp only [sessionText, Session.decodeDocument?_render hs]
  unfold sessionIn
  rw [h.file, hdocument]
  rfl

/-- What is read as a session is what lies at its path. -/
theorem sessionIn_congr (h : u.entry? path = t.entry? path) : sessionIn u path = sessionIn t path := by
  unfold sessionIn documentIn
  rw [FileTree.read?, FileTree.read?, h]

/-- Directories that are made bring no session. -/
theorem sessionIn_of_grows (h : t.Grows u) (hs : sessionIn u path = .ok s) :
    sessionIn t path = .ok s := by
  rcases h.entry? path with hsame | ⟨-, hmade⟩
  · rw [← sessionIn_congr hsame, hs]
  · have hnone : u.read? path = none := by
      rw [FileTree.read?, hmade]
    unfold sessionIn documentIn at hs
    rw [hmade, hnone] at hs
    cases hs

end

theorem onlyScripts_hooks (runner : Runner) (r : Request) : (r.hooks runner).OnlyScripts := by
  rw [Request.hooks]
  have hstart : Registry.empty.OnlyScripts := Registry.onlyScripts_empty
  generalize Registry.empty = hooks at hstart
  induction r.scripts generalizing hooks with
  | nil => exact hstart
  | cons s rest ih =>
      refine ih _ ?_
      unfold ScriptRequest.registerIn
      split
      · exact hstart.register _ _ _ _ _
      · exact hstart

/-- The session of a prompt has numbers of 64 bits if the wildcards have fewer lines than there are
such numbers. -/
theorem inWords_process {σ : Type} (p : Processor σ) (hscripts : p.hooks.OnlyScripts)
    (htable : ∀ name lines, p.expander.table.get? name = some lines → lines.length < words64)
    (x : Wildcard.Expansion σ) : (p.process x).context.session.InWords := by
  have hplaces := (p.keepsStep_process hscripts x).places (Context.showsPlaces_rebuildProgress _ _)
  intro b hb
  obtain ⟨lines, hlines, htotal, -, hcurrent⟩ := hplaces b.1 b.2 (Dictionary.get?_of_mem hb)
  have hlength := htable b.1 lines hlines
  exact ⟨by omega, by omega⟩

end PromptWeave.CommandLine
