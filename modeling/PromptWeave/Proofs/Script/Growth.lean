import Mathlib
import PromptWeave.Proofs.Script.Keeping
import PromptWeave.Script.Execution

/-!
# How values grow too large

As long as the texts that are written in a program fit, a run makes a value that is too large for the
limits only where nothing measures what it makes: the value of a list display or of one of the
unchecked calls is too large, or a list in which an item was replaced.
-/
namespace PromptWeave.Script

open PromptWeave.Script.Value

/-! ### The texts in a program -/

mutual

/-- The texts that are written in an expression. -/
def Expr.texts : Expr → List String
  | .str s => [s]
  | .list items => textsOfAll items
  | .neg operand => operand.texts
  | .not operand => operand.texts
  | .binary _ left right => left.texts ++ right.texts
  | .and left right => left.texts ++ right.texts
  | .or left right => left.texts ++ right.texts
  | .index target index => target.texts ++ index.texts
  | .slice target start stop => target.texts ++ (textsOfOptional start ++ textsOfOptional stop)
  | .attribute target _ => target.texts
  | .call callee args => callee.texts ++ textsOfAll args
  | .comprehension element _ source condition =>
      element.texts ++ (source.texts ++ textsOfOptional condition)
  | _ => []

/-- The texts that are written in expressions. -/
def textsOfAll : List Expr → List String
  | [] => []
  | e :: rest => e.texts ++ textsOfAll rest

/-- The texts that are written in an expression that may be missing. -/
def textsOfOptional : Option Expr → List String
  | none => []
  | some e => e.texts

end

mutual

/-- The texts that are written in a statement. -/
def Stmt.texts : Stmt → List String
  | .mk _ act => act.texts

/-- The texts that are written in what a statement does. -/
def Act.texts : Act → List String
  | .eval e => e.texts
  | .assign target value => target.texts ++ value.texts
  | .update target _ value => target.texts ++ value.texts
  | .choose arms => arms.texts
  | .forEach _ source body => source.texts ++ textsOfProgram body
  | .whileTrue condition body => condition.texts ++ textsOfProgram body
  | .breakLoop => []
  | .continueLoop => []

/-- The texts that are written in arms. -/
def Arms.texts : Arms → List String
  | .when condition body rest => condition.texts ++ (textsOfProgram body ++ rest.texts)
  | .otherwise body => textsOfProgram body
  | .done => []

/-- The texts that are written in statements. -/
def textsOfProgram : List Stmt → List String
  | [] => []
  | s :: rest => s.texts ++ textsOfProgram rest

end

/-- Whether no text has more bytes than a text may have. -/
def Fit (texts : List String) : Prop := ∀ s ∈ texts, s.utf8ByteSize ≤ maxTextBytes

theorem fit_append {texts more : List String} : Fit (texts ++ more) ↔ Fit texts ∧ Fit more :=
  List.forall_mem_append

namespace Keeps

/-! ### Parts of expressions -/

theorem forEach {body : Value → Course Flow} (hbody : ∀ v, v.Within → Keeps (fun _ => True) (body v))
    {items : List Value} (hitems : ∀ v ∈ items, v.Within) :
    Keeps (fun _ => True) (Host.forEach body items) := by
  induction items with
  | nil => exact .pure trivial
  | cons v rest ih =>
      refine (hbody v (hitems v List.mem_cons_self)).bind fun flow _ => ?_
      have hrest := ih fun w hw => hitems w (List.mem_cons_of_mem _ hw)
      cases flow with
      | breakLoop => exact .pure trivial
      | next => exact hrest
      | continueLoop => exact hrest

/-- The room and the number of the values that are collected are checked value by value. -/
theorem collect {element : Value → Course (Option Value)}
    (helement : ∀ v, v.Within → Keeps (fun w => ∀ u, w = some u → u.Within) (element v))
    {bytes count : Nat} {kept items : List Value} (hitems : ∀ v ∈ items, v.Within)
    (hbytes : bytes = listSizeBytes kept) (hcount : count = kept.length)
    (hkept : (Value.list kept).Within) :
    Keeps (fun values => (Value.list values).Within)
      (Host.collect element bytes count kept items) := by
  induction items generalizing bytes count kept with
  | nil => exact .pure (hkept.of_perm (List.reverse_perm kept))
  | cons v rest ih =>
      have hrest : ∀ w ∈ rest, w.Within := fun w hw => hitems w (List.mem_cons_of_mem _ hw)
      refine (helement v (hitems v List.mem_cons_self)).bind fun w hw => ?_
      cases w with
      | none => exact ih hrest hbytes hcount hkept
      | some u =>
          refine (Keeps.ofOutcome (gives_checkBytes _)).bind fun _ hroom => ?_
          refine (Keeps.ofOutcome (gives_checkItems _)).bind fun _ hnumber => ?_
          refine ih hrest ?_ ?_ ?_
          · rw [listSizeBytes_cons, hbytes, Nat.add_comm]
          · rw [List.length_cons, hcount]
          · rw [hbytes] at hroom
            rw [hcount] at hnumber
            exact within_of_perm_cons hkept (hw u rfl) (.refl _) hnumber hroom

theorem readVariable (name : String) : Keeps Within (Script.readVariable name : Course Value) := by
  refine (lookUp name).bind fun v hv => ?_
  cases v with
  | some v => exact .pure (hv v rfl)
  | none =>
      dsimp only
      split
      · exact .fail _
      · exact .fail _

theorem readAttribute (v : Value) (name : String) :
    Keeps Within (Script.readAttribute v name : Course Value) := by
  cases v with
  | library l => exact .ofOutcome (gives_constantOf l name)
  | _ => exact .fail _

/-- What an expression gives is within the limits, if it is so without a check or nothing measures
it. -/
theorem evaluating (e : Expr) {x : Course Value}
    (hx : Keeps (fun v => e.isUnchecked = false → v.Within) x) :
    Keeps Within (Script.evaluating e x) :=
  tick.bind fun _ _ => hx.bind fun _ hv => (report (r := .gave e _) hv).bind fun _ hw => .pure hw

/-- An expression whose value is measured. -/
theorem evaluating_checked (e : Expr) {x : Course Value} (hx : Keeps Within x) :
    Keeps Within (Script.evaluating e x) :=
  .evaluating e (hx.imp fun _ hv _ => hv)

theorem callBuiltin (name : String) {args : List Value} (hargs : ∀ a ∈ args, a.Within) :
    Keeps (fun v => isUncheckedBuiltin name = false → v.Within)
      (Script.callBuiltin name args : Course Value) := by
  unfold Script.callBuiltin
  cases hbuiltin : Builtin.ofName? name with
  | none => exact .fail _
  | some builtin =>
      cases builtin with
      | print => exact (writeLine _).bind fun _ _ => .pure fun _ => Within.absent
      | function f =>
          have hname : isUncheckedBuiltin name = f.isUnchecked := by
            rw [isUncheckedBuiltin, hbuiltin]
          rw [hname]
          cases hchecked : f.isUnchecked with
          | true => exact (Keeps.ofOutcome (gives_any _)).imp fun _ _ h => by cases h
          | false => exact (Keeps.ofOutcome (gives_function hchecked hargs)).imp fun _ hv _ => hv

theorem callMember {receiver : Value} (name : String) {args : List Value}
    (hreceiver : receiver.Within) (hargs : ∀ a ∈ args, a.Within) :
    Keeps (fun v => isUncheckedMember name = false → v.Within)
      (Script.callMember receiver name args : Course Value) := by
  unfold Script.callMember
  cases hname : isUncheckedMember name with
  | true =>
      split
      · exact .draw fun g => (gives_any _).imp fun _ _ h => by cases h
      · exact (Keeps.ofOutcome (gives_any _)).imp fun _ _ h => by cases h
  | false =>
      split
      · exact .draw fun g => (gives_callLibrary _ hname hargs g).imp fun _ hv _ => hv
      · exact (Keeps.ofOutcome (gives_ask hname args hreceiver)).imp fun _ hv _ => hv

/-! ### Expressions -/

/-- The item of a mutation comes from a list. -/
theorem within_of_mutation {receiver : Value} {name : String} {m : Mutator} {items : List Value}
    (h : mutation? receiver name = some (m, items)) (hreceiver : receiver.Within) :
    (Value.list items).Within := by
  unfold mutation? at h
  split at h
  · obtain ⟨_, _, hpair⟩ := Option.map_eq_some_iff.1 h
    cases hpair
    exact hreceiver
  · cases h

mutual

/-- Every expression keeps within the limits, and so does its value. -/
theorem eval : (e : Expr) → Fit e.texts → Keeps Within (e.eval : Course Value)
  | .absent, _ => .evaluating_checked _ (.pure .absent)
  | .bool b, _ => .evaluating_checked _ (.pure (.bool b))
  | .int n, _ => .evaluating_checked _ (.pure (.int n))
  | .float _, _ => .evaluating_checked _ (.pure (.float _))
  | .str s, hfit => .evaluating_checked _ (.pure (.str (hfit s List.mem_cons_self)))
  | .list items, hfit => .evaluating _ <| (evalAll items hfit).bind fun _ _ => .pure nofun
  | .var name, _ => .evaluating_checked _ (readVariable name)
  | .neg operand, hfit =>
      .evaluating_checked _ <| (eval operand hfit).bind fun v _ => .ofOutcome (gives_negate v)
  | .not operand, hfit =>
      .evaluating_checked _ <| (eval operand hfit).bind fun _ _ => .pure (.bool _)
  | .binary op left right, hfit =>
      have hboth := fit_append.1 hfit
      .evaluating_checked _ <| (eval left hboth.1).bind fun _ hl => (eval right hboth.2).bind fun _ hr =>
        .ofOutcome (gives_operator op hl hr)
  | .and left right, hfit => by
      have hboth := fit_append.1 hfit
      rw [Expr.eval]
      refine .evaluating_checked _ ((eval left hboth.1).bind fun l hl => ?_)
      split
      · exact eval right hboth.2
      · exact .pure hl
  | .or left right, hfit => by
      have hboth := fit_append.1 hfit
      rw [Expr.eval]
      refine .evaluating_checked _ ((eval left hboth.1).bind fun l hl => ?_)
      split
      · exact .pure hl
      · exact eval right hboth.2
  | .index target index, hfit =>
      have hboth := fit_append.1 hfit
      .evaluating_checked _ <| (eval target hboth.1).bind fun _ ht =>
        (eval index hboth.2).bind fun i _ => .ofOutcome (gives_itemAt i ht)
  | .slice target start stop, hfit =>
      have hparts := fit_append.1 hfit
      have hbounds := fit_append.1 hparts.2
      .evaluating_checked _ <| (eval target hparts.1).bind fun _ ht =>
        (evalOptional start hbounds.1).bind fun a _ => (evalOptional stop hbounds.2).bind fun b _ =>
          .ofOutcome (gives_slice a b ht)
  | .attribute target name, hfit =>
      .evaluating_checked _ <| (eval target hfit).bind fun v _ => readAttribute v name
  | .call callee args, hfit => by
      have hboth := fit_append.1 hfit
      cases callee with
      | «attribute» target name =>
          rw [Expr.eval]
          refine .evaluating _ ((eval target hboth.1).bind fun receiver hreceiver => ?_)
          refine (evalAll args hboth.2).bind fun values hvalues => ?_
          split
          · rename_i m items hmutation
            -- The changed list is stored where the list was read.
            have hitems := within_of_mutation hmutation hreceiver
            refine (Keeps.ofOutcome (gives_mutator m hitems hvalues)).bind fun changed hchanged => ?_
            dsimp only
            split
            · exact (store target hboth.1 hchanged.2).bind fun _ _ => .pure fun _ => hchanged.1
            · exact .pure fun _ => hchanged.1
          · exact callMember name hreceiver hvalues
      | var name =>
          rw [Expr.eval]
          refine .evaluating _ ((lookUp name).bind fun bound _ => ?_)
          cases bound with
          | some v => exact .fail _
          | none => exact (evalAll args hboth.2).bind fun _ hvalues => callBuiltin name hvalues
      | _ => exact .evaluating _ (.fail _)
  | .comprehension element name source condition, hfit => by
      have hparts := fit_append.1 hfit
      have hrest := fit_append.1 hparts.2
      rw [Expr.eval]
      refine .evaluating_checked _ ((eval source hrest.1).bind fun v hv => ?_)
      refine (Keeps.ofOutcome (gives_iterate hv)).bind fun items hitems => ?_
      -- What has been kept is a list within the limits before each round.
      have hempty : (Value.list []).Within := .list (by decide) (by simp) (by simp)
      refine (Keeps.shadow name (.collect (fun w hw => ?_) hitems (by simp) rfl hempty)).bind
        fun _ hvalues => .pure hvalues
      refine (bindName name hw).bind fun _ _ => (holdsFor condition hrest.2).bind fun holds _ => ?_
      split
      · refine (eval element hparts.1).bind fun u hu => .pure fun _ hsome => ?_
        cases hsome
        exact hu
      · exact .pure nofun

theorem evalAll : (es : List Expr) → Fit (textsOfAll es) →
    Keeps (fun vs => ∀ v ∈ vs, v.Within) (Script.evalAll es : Course (List Value))
  | [], _ => .pure fun _ hv => absurd hv List.not_mem_nil
  | e :: rest, hfit =>
      have hboth := fit_append.1 hfit
      (eval e hboth.1).bind fun _ hv => (evalAll rest hboth.2).bind fun _ hvs =>
        .pure (List.forall_mem_cons.2 ⟨hv, hvs⟩)

theorem evalOptional : (e : Option Expr) → Fit (textsOfOptional e) →
    Keeps (fun _ => True) (Script.evalOptional e : Course (Option Value))
  | none, _ => .pure trivial
  | some e, hfit => (eval e hfit).bind fun _ _ => .pure trivial

theorem holdsFor : (e : Option Expr) → Fit (textsOfOptional e) →
    Keeps (fun _ => True) (Script.holdsFor e : Course Bool)
  | none, _ => .pure trivial
  | some e, hfit => (eval e hfit).bind fun _ _ => .pure trivial

theorem store (e : Expr) (hfit : Fit e.texts) {v : Value} (hv : v.Within) :
    Keeps (fun _ => True) (e.store v : Course Unit) := by
  cases e with
  | var name => exact bindName name hv
  | index target index =>
      have hboth := fit_append.1 hfit
      refine (eval index hboth.2).bind fun i _ => (eval target hboth.1).bind fun container _ => ?_
      refine (Keeps.ofOutcome (gives_any _)).bind fun changed _ => ?_
      exact (report (r := .changed changed) nofun).bind fun _ hchanged => store target hboth.1 hchanged
  | _ => exact .fail _

end

/-! ### Statements -/

mutual

theorem run : (s : Stmt) → Fit s.texts → Keeps (fun _ => True) (s.run : Course Flow)
  | .mk line act, hfit => (enterLine line).bind fun _ _ => tick.bind fun _ _ => runAct act hfit

theorem runAct : (a : Act) → Fit a.texts → Keeps (fun _ => True) (a.run : Course Flow)
  | .eval e, hfit => (eval e hfit).bind fun _ _ => .pure trivial
  | .assign target value, hfit =>
      have hboth := fit_append.1 hfit
      (eval value hboth.2).bind fun _ hv => (store target hboth.1 hv).bind fun _ _ => .pure trivial
  | .update target op value, hfit =>
      have hboth := fit_append.1 hfit
      (eval target hboth.1).bind fun _ hcurrent => (eval value hboth.2).bind fun _ hv =>
        (Keeps.ofOutcome (gives_operator op hcurrent hv)).bind fun _ hnew =>
          (store target hboth.1 hnew).bind fun _ _ => .pure trivial
  | .choose arms, hfit => runArms arms hfit
  | .forEach name source body, hfit => by
      have hboth := fit_append.1 hfit
      rw [Act.run]
      refine (eval source hboth.1).bind fun v hv => ?_
      refine (Keeps.ofOutcome (gives_iterate hv)).bind fun items hitems => ?_
      refine (Keeps.forEach (fun w hw => ?_) hitems).bind fun _ _ => .pure trivial
      exact tick.bind fun _ _ => (bindName name hw).bind fun _ _ => runAll body hboth.2
  | .whileTrue condition body, hfit => by
      have hboth := fit_append.1 hfit
      rw [Act.run]
      refine (Keeps.rounds ((eval condition hboth.1).bind fun v _ => ?_)).bind fun _ _ => .pure trivial
      split
      · refine (runAll body hboth.2).bind fun flow _ => ?_
        cases flow <;> exact .pure trivial
      · exact .pure trivial
  | .breakLoop, _ => .pure trivial
  | .continueLoop, _ => .pure trivial

theorem runArms : (a : Arms) → Fit a.texts → Keeps (fun _ => True) (a.run : Course Flow)
  | .when condition body rest, hfit => by
      have hparts := fit_append.1 hfit
      have hrest := fit_append.1 hparts.2
      rw [Arms.run]
      refine (eval condition hparts.1).bind fun v _ => ?_
      split
      · exact runAll body hrest.1
      · exact runArms rest hrest.2
  | .otherwise body, hfit => runAll body hfit
  | .done, _ => .pure trivial

theorem runAll : (program : List Stmt) → Fit (textsOfProgram program) →
    Keeps (fun _ => True) (Script.runAll program : Course Flow)
  | [], _ => .pure trivial
  | s :: rest, hfit => by
      have hboth := fit_append.1 hfit
      rw [Script.runAll]
      refine (run s hboth.1).bind fun flow _ => ?_
      cases flow with
      | next => exact runAll rest hboth.2
      | breakLoop => exact .pure trivial
      | continueLoop => exact .pure trivial

end

/-- Every program whose texts fit keeps within the limits, as far as what nothing measures does. -/
theorem perform (program : List Stmt) (hfit : Fit (textsOfProgram program)) :
    Keeps (fun _ => True) (Script.perform program : Course Unit) :=
  (runAll program hfit).bind fun _ _ => .pure trivial

end Keeps

/-- Only the libraries are bound at the start. -/
theorem within_start (g : Random.Generator) : (Machine.start g).Within := by
  intro name v hv
  simp only [Machine.start, Machine.get?, Dictionary.ofList, List.map_cons, List.map_nil,
    List.foldl_cons, List.foldl_nil, Dictionary.get?_insert, Dictionary.get?_empty] at hv
  split at hv
  · cases hv
    exact .library _
  · split at hv
    · cases hv
      exact .library _
    · split at hv
      · cases hv
        exact .library _
      · cases hv

/-- A program that displays a large list six times over. -/
def crowdedDisplay : List Stmt :=
  [.mk 1 (.assign (.var "a") (.binary .mul (.list [.int 0]) (.int 100000))),
    .mk 2 (.assign (.var "b") (.list [.var "a", .var "a", .var "a", .var "a", .var "a", .var "a"]))]

/-- The display is bound, although the items take more room together than the items of a list may. -/
theorem get_crowdedDisplay {m : Machine} (hm : m.steps = 0) :
    ∃ v, (runProgram crowdedDisplay ⟨100, 100⟩ m).2.get? "b" = some v ∧ ¬ v.Within := by
  let zeros : Value := .list (copies [.int 0] 100000 [])
  have hzeros : multiply (.list [.int 0]) (.int 100000) = .ok zeros := by
    simp [multiply, repeatList, checkItems, checkBytes, maxItems, maxListBytes, words64, sizeBytes,
      bind, Except.bind, pure, Except.pure, zeros]
  refine ⟨.list [zeros, zeros, zeros, zeros, zeros, zeros], ?_, fun hwithin => ?_⟩
  · simp [crowdedDisplay, runProgram, Script.perform, runAll, Stmt.run, Act.run, Expr.eval, evalAll,
      evaluating, Expr.store, Action.bind_apply, Action.tick, Action.enterLine, Action.lookUp,
      readVariable, Action.bindName, BinaryOp.apply, Host.ofOutcome, hm, hzeros, Machine.bind,
      Machine.get?, Dictionary.get?_insert]
  · have hroom := (within_list_iff.1 hwithin).2.1
    have hsize : zeros.sizeBytes = 32 + listSizeBytes (copies [.int 0] 100000 []) :=
      sizeBytes_list _
    rw [count_copies listSizeBytes listSizeBytes_append] at hsize
    simp only [listSizeBytes_cons, listSizeBytes_nil, sizeBytes, hsize, maxListBytes] at hroom
    omega

/-- Where values grow too large. Consider a run of a program whose texts fit, from bindings within the
limits. Its bindings are within the limits at every point exactly if every value that it binds is. It
makes and binds no value beyond the limits at all exactly if it makes none where nothing measures what
it makes: in list displays, in the unchecked calls, and where an item of a list is replaced. -/
theorem within_limits_iff_unchecked_within (program : List Stmt) (limits : Limits) (m : Machine)
    (hfit : Fit (textsOfProgram program)) (hm : m.Within) (hsteps : m.steps ≤ limits.maxSteps) :
    ∃ events, Traces (perform program) limits m (runProgram program limits m) events ∧
      ((∀ before after, events = before ++ after → (m.replay limits before).Within) ↔
        ∀ name v, .bound name v ∈ events → v.Within) ∧
      ((∀ event ∈ events, event.Within) ↔ ∀ event ∈ events, event.UncheckedWithin) := by
  have hfollows : Follows Unit (runProgram program) (perform program) :=
    simulation_follows.perform program
  obtain ⟨events, htraces⟩ := hfollows.2 limits m hsteps
  have hrun := (htraces.course_iff _ _).2 ⟨rfl, rfl⟩
  refine ⟨events, htraces, bindings_within_iff hm hrun, fun hwithin event hevent => ?_, ?_⟩
  · have hevent := hwithin event hevent
    cases event with
    | saw r => exact fun _ => hevent
    | _ => trivial
  · intro hunchecked
    exact (Keeps.perform program hfit limits m _ events hm hrun hunchecked).1

/-- The bindings end beyond the limits, so some value that nothing measured is beyond them. -/
theorem within_limits_iff_unchecked_within_display :
    let m : Machine := .start (.ofSeed 0)
    Fit (textsOfProgram crowdedDisplay) ∧ m.Within ∧ m.steps ≤ 100 ∧
      ∃ events, (perform crowdedDisplay : Course Unit) ⟨100, 100⟩ m
          (runProgram crowdedDisplay ⟨100, 100⟩ m).1 events ∧
        ¬ ∀ event ∈ events, event.UncheckedWithin := by
  intro m
  have hfit : Fit (textsOfProgram crowdedDisplay) := by
    intro s hs
    simp [crowdedDisplay, textsOfProgram, Stmt.texts, Act.texts, Expr.texts, textsOfAll] at hs
  have hm : m.Within := within_start _
  obtain ⟨v, hv, hbeyond⟩ := get_crowdedDisplay (m := m) rfl
  obtain ⟨events, htraces, hpoints, hmade⟩ :=
    within_limits_iff_unchecked_within crowdedDisplay ⟨100, 100⟩ m hfit hm (by decide)
  refine ⟨hfit, hm, by decide, events, (htraces.course_iff _ _).2 ⟨rfl, rfl⟩, fun hunchecked => ?_⟩
  have hbound := hpoints.2 fun name v hv => (hmade.2 hunchecked _ hv).binds
  have hend := hbound events [] (List.append_nil _).symm
  rw [← htraces.replay] at hend
  exact hbeyond (hend "b" v hv)

/-- A source that can be read binds a value beyond the limits. -/
theorem source_exceeds_limits :
    ∃ program v, parse "a = [0] * 100000\nb = [a, a, a, a, a, a]" = .ok program ∧
      Fit (textsOfProgram program) ∧ (Machine.start (.ofSeed 0)).Within ∧
      (runProgram program ⟨100, 100⟩ (.start (.ofSeed 0))).2.get? "b" = some v ∧ ¬ v.Within := by
  obtain ⟨v, hv, hbeyond⟩ := get_crowdedDisplay (m := .start (.ofSeed 0)) rfl
  refine ⟨crowdedDisplay, v, by cbv, ?_, within_start _, hv, hbeyond⟩
  intro s hs
  simp [crowdedDisplay, textsOfProgram, Stmt.texts, Act.texts, Expr.texts, textsOfAll] at hs

end PromptWeave.Script
