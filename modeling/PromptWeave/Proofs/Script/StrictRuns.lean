import PromptWeave.Proofs.Script.Growth
import PromptWeave.Proofs.Script.StrictMachine

/-!
# What aborts a run

A run in which arithmetic aborts goes as the run without aborts, up to the place where it is aborted.
It is aborted by the product of a range, or because it makes something that no memory holds. The steps
are counted within the limit and all that is bound is held by a memory; every operation of the machine
keeps it so, and on such operands no other arithmetic leaves the words.
-/
namespace PromptWeave.Script

open PromptWeave.Script.Value

variable {α β : Type}

/-! ### States that a memory holds -/

/-- A memory holds every value that is within the limits. -/
theorem Value.Within.held {v : Value} (h : v.Within) : v.Held := by
  unfold Held memoryBytes
  cases h with
  | @str s hsize =>
      unfold maxTextBytes at hsize
      rw [sizeBytes]
      omega
  | @list items _ hroom _ =>
      unfold maxListBytes at hroom
      rw [sizeBytes_list]
      omega
  | _ => exact (by decide : 32 < 2 ^ 63)

/-- Whether the steps of a run are within its limit, and a memory holds all that is bound. -/
structure Machine.Held (limits : Limits) (m : Machine) : Prop where
  steps : m.steps ≤ limits.maxSteps
  bound : ∀ name v, m.get? name = some v → v.Held

namespace Machine.Held

variable {limits : Limits} {m : Machine} (hm : m.Held limits)
include hm

theorem bind {v : Value} (name : String) (hv : v.Held) : (m.bind name v).Held limits :=
  ⟨hm.steps, forall_bound_bind hm.bound name hv⟩

theorem unbind (name : String) : (m.unbind name).Held limits :=
  ⟨hm.steps, forall_bound_unbind hm.bound name⟩

theorem restore (name : String) {saved : Option Value} (hsaved : ∀ v, saved = some v → v.Held) :
    (m.restore name saved).Held limits :=
  ⟨(m.steps_restore name saved).symm ▸ hm.steps, forall_bound_restore hm.bound name hsaved⟩

theorem write (maxOutputBytes : Nat) (line : String) : (m.write maxOutputBytes line).Held limits :=
  ⟨(m.steps_write maxOutputBytes line).symm ▸ hm.steps,
    forall_bound_write hm.bound maxOutputBytes line⟩

end Machine.Held

/-! ### Actions that mirror each other -/

/-- What aborts a run: the product of a range that is no word, or something that no memory holds. -/
def Abort.Foreseen : Abort → Prop
  | .overflow o => Strict.IsRangeProduct o
  | .memory bytes => memoryBytes ≤ bytes

/-- Whether an action whose arithmetic aborts does the same as another one, unless it is aborted for one
of the foreseen causes. What it gives has a property, and what it leaves is held by a memory. -/
def Mirrors (P : α → Prop) (x : StrictAction α) (y : Action α) : Prop :=
  ∀ limits m, limits.maxSteps + 1 < words64 → m.Held limits →
    (∃ cause, cause.Foreseen ∧ x limits m = .error cause) ∨
      (x limits m = .ok (y limits m) ∧
        ∀ a after, y limits m = (.ok a, after) → P a ∧ after.Held limits)

namespace Mirrors

variable {P Q : α → Prop} {R : β → Prop} {x : StrictAction α} {y : Action α}

/-- What the machine does itself. -/
theorem ofAction (h : ∀ limits m, m.Held limits →
    ∀ a after, y limits m = (.ok a, after) → P a ∧ after.Held limits) :
    Mirrors P (StrictAction.ofAction y) y :=
  fun limits m _ hm => .inr ⟨rfl, h limits m hm⟩

theorem pure {a : α} (h : P a) : Mirrors P (Pure.pure a : StrictAction α) (Pure.pure a) := by
  refine ofAction fun limits m hm b after hb => ?_
  cases hb
  exact ⟨h, hm⟩

theorem fail (cause : Fault) : Mirrors P (Host.fail cause : StrictAction α) (Host.fail cause) := by
  refine ofAction fun limits m _ b after hb => ?_
  cases hb

theorem imp (h : ∀ a, P a → Q a) (hxy : Mirrors P x y) : Mirrors Q x y := by
  intro limits m hlimit hm
  rcases hxy limits m hlimit hm with habort | ⟨hsame, hgives⟩
  · exact .inl habort
  · refine .inr ⟨hsame, fun a after ha => ?_⟩
    have hboth := hgives a after ha
    exact ⟨h a hboth.1, hboth.2⟩

theorem any (hxy : Mirrors P x y) : Mirrors (fun _ => True) x y := hxy.imp fun _ _ => trivial

theorem bind {f : α → StrictAction β} {g : α → Action β} (hxy : Mirrors P x y)
    (hfg : ∀ a, P a → Mirrors R (f a) (g a)) : Mirrors R (x >>= f) (y >>= g) := by
  intro limits m hlimit hm
  rcases hxy limits m hlimit hm with ⟨cause, hcause, habort⟩ | ⟨hsame, hgives⟩
  · exact .inl ⟨cause, hcause, by rw [StrictAction.bind_apply, habort]⟩
  · cases hy : y limits m with
    | mk result after =>
      cases result with
      | error e =>
          rw [StrictAction.bind_apply, hsame, Action.bind_error g hy, hy]
          exact .inr ⟨rfl, fun b after hb => by cases hb⟩
      | ok a =>
          obtain ⟨ha, hafter⟩ := hgives a after hy
          rw [StrictAction.bind_apply, hsame, Action.bind_ok g hy, hy]
          exact hfg a ha limits after hlimit hafter

/-! ### Operations on values -/

/-- An operation on values that only the products of ranges abort. -/
theorem carryOut {x : Strict α} {outcome : Outcome α} (h : Strict.PlainBarProducts x outcome) :
    Mirrors (fun _ => True) (StrictAction.carryOut x) (Host.ofOutcome outcome) := by
  intro limits m _ hm
  rcases h with rfl | ⟨o, ho, rfl⟩
  · cases outcome with
    | ok a =>
        refine .inr ⟨rfl, fun b after hb => ?_⟩
        cases hb
        exact ⟨trivial, hm⟩
    | error cause => exact .inr ⟨rfl, fun b after hb => by cases hb⟩
  · exact .inl ⟨.overflow o, ho, rfl⟩

/-- An operation on values that nothing aborts. -/
theorem carryOut_of_eq {x : Strict α} {outcome : Outcome α} (h : x = Strict.plain outcome) :
    Mirrors (fun _ => True) (StrictAction.carryOut x) (Host.ofOutcome outcome) :=
  carryOut (.inl h)

theorem ofOutcome {outcome : Outcome α} (h : Gives P outcome) :
    Mirrors P (Host.ofOutcome outcome : StrictAction α) (Host.ofOutcome outcome) := by
  cases outcome with
  | ok a => exact .pure (h a rfl)
  | error cause => exact .fail cause

/-- What is held from here on. -/
theorem hold (bytes : Nat) :
    Mirrors (fun _ => bytes < memoryBytes) (StrictAction.hold bytes) (Pure.pure ()) := by
  intro limits m _ hm
  by_cases hbytes : bytes < memoryBytes
  · refine .inr ⟨if_pos hbytes, fun b after hb => ?_⟩
    cases hb
    exact ⟨hbytes, hm⟩
  · exact .inl ⟨.memory bytes, Nat.not_lt.1 hbytes, if_neg hbytes⟩

/-- Something that is done with what a memory holds. -/
theorem holding {bytes : Nat} (hxy : bytes < memoryBytes → Mirrors P x y) :
    Mirrors P (StrictAction.hold bytes >>= fun _ => x) y :=
  (hold bytes).bind fun _ hbytes => hxy hbytes

theorem report (r : Report) : Mirrors (fun _ => r.value.Held) (Host.report r : StrictAction Unit)
    (Host.report r) := by
  cases r with
  | gave e v => exact hold v.sizeBytes
  | changed container => exact hold container.sizeBytes

/-! ### Operations of the machine -/

/-- Something that is done after arithmetic on the state of the run that nothing aborts. -/
theorem counting {z : Limits → Machine → Strict β}
    (hz : ∀ limits m, limits.maxSteps + 1 < words64 → m.Held limits →
      ∃ b, z limits m = Strict.plain (.ok b))
    (hxy : Mirrors P x y) : Mirrors P (StrictAction.carryOutAt z >>= fun _ => x) y := by
  intro limits m hlimit hm
  obtain ⟨b, hb⟩ := hz limits m hlimit hm
  have hstrict : (StrictAction.carryOutAt z >>= fun _ => x) limits m = x limits m := by
    rw [StrictAction.bind_apply, StrictAction.carryOutAt, hb]
    rfl
  rw [hstrict]
  exact hxy limits m hlimit hm

theorem tick : Mirrors (fun _ => True) (Host.tick : StrictAction Unit) Host.tick := by
  refine counting (fun limits m hlimit hm => ?_) (ofAction fun limits m hm a after ha => ?_)
  · have hsteps := hm.steps
    exact ⟨m.steps + 1, Strict.addCounts_eq (by omega)⟩
  · rw [Action.tick] at ha
    dsimp only at ha
    split at ha
    next => cases ha
    next hwithin =>
      cases ha
      exact ⟨trivial, Nat.not_lt.1 hwithin, hm.bound⟩

theorem enterLine (line : Nat) :
    Mirrors (fun _ => True) (Host.enterLine line : StrictAction Unit) (Host.enterLine line) := by
  refine ofAction fun limits m hm a after ha => ?_
  cases ha
  exact ⟨trivial, hm.steps, hm.bound⟩

theorem lookUp (name : String) :
    Mirrors (fun _ => True) (Host.lookUp name : StrictAction (Option Value)) (Host.lookUp name) := by
  refine ofAction fun limits m hm a after ha => ?_
  cases ha
  exact ⟨trivial, hm⟩

theorem bindName (name : String) {v : Value} (hv : v.Held) :
    Mirrors (fun _ => True) (Host.bindName name v : StrictAction Unit) (Host.bindName name v) := by
  refine ofAction fun limits m hm a after ha => ?_
  cases ha
  exact ⟨trivial, hm.bind name hv⟩

theorem draw (x : Random.Generator → Outcome (α × Random.Generator)) :
    Mirrors (fun _ => True) (Host.draw x : StrictAction α) (Host.draw x) := by
  refine ofAction fun limits m hm a after ha => ⟨trivial, ?_⟩
  change Action.draw x limits m = _ at ha
  unfold Action.draw at ha
  split at ha
  · cases ha
    exact ⟨hm.steps, hm.bound⟩
  · cases ha

/-- What is given back was bound before. -/
theorem shadow (name : String) (hxy : Mirrors P x y) :
    Mirrors P (Host.shadow name x) (Host.shadow name y) := by
  intro limits m hlimit hm
  rcases hxy limits _ hlimit (hm.unbind name) with ⟨cause, hcause, habort⟩ | ⟨hsame, hgives⟩
  · refine .inl ⟨cause, hcause, ?_⟩
    change StrictAction.shadow name x limits m = _
    rw [StrictAction.shadow_apply, habort]
  · have hstrict : StrictAction.shadow name x limits m = .ok (Action.shadow name y limits m) := by
      rw [StrictAction.shadow_apply, hsame]
      rfl
    refine .inr ⟨hstrict, fun a after ha => ?_⟩
    rw [Action.host_shadow, Action.shadow] at ha
    cases hy : y limits (m.unbind name) with
    | mk result inner =>
      rw [hy] at ha
      cases ha
      obtain ⟨hP, hinner⟩ := hgives a inner hy
      exact ⟨hP, hinner.restore name fun v hv => hm.bound name v hv⟩

theorem writeLine (line : String) :
    Mirrors (fun _ => True) (Host.writeLine line : StrictAction Unit) (Host.writeLine line) := by
  refine holding fun hline => counting (fun limits m _ _ => ?_)
    (ofAction fun limits m hm a after ha => ?_)
  · exact ⟨(), Strict.arrange_eq m limits.maxOutputBytes hline⟩
  · cases ha
    exact ⟨trivial, hm.write limits.maxOutputBytes line⟩

theorem roundsUpTo {round : StrictAction Bool} {lap : Action Bool}
    (hround : Mirrors (fun _ => True) round lap) (most : Nat) :
    Mirrors (fun _ => True) (StrictAction.roundsUpTo round most) (Action.roundsUpTo lap most) := by
  induction most with
  | zero => exact ofAction fun limits m _ a after ha => by cases ha
  | succ most ih =>
      rw [Action.roundsUpTo_succ]
      refine (tick.bind fun _ _ => hround).bind fun more _ => ?_
      split
      · exact ih
      · exact .pure trivial

theorem rounds {round : StrictAction Bool} {lap : Action Bool}
    (hround : Mirrors (fun _ => True) round lap) :
    Mirrors (fun _ => True) (Host.rounds round) (Host.rounds lap) :=
  fun limits m hlimit hm => roundsUpTo hround (limits.maxSteps + 1) limits m hlimit hm

/-! ### Parts of expressions -/

theorem forEach {body : Value → StrictAction Flow} {other : Value → Action Flow}
    (hbody : ∀ v, v.Held → Mirrors (fun _ => True) (body v) (other v)) {items : List Value}
    (hitems : ∀ v ∈ items, v.Held) :
    Mirrors (fun _ => True) (Host.forEach body items) (Host.forEach other items) := by
  induction items with
  | nil => exact .pure trivial
  | cons v rest ih =>
      refine (hbody v (hitems v List.mem_cons_self)).bind fun flow _ => ?_
      have hrest := ih fun w hw => hitems w (List.mem_cons_of_mem _ hw)
      cases flow with
      | breakLoop => exact .pure trivial
      | next => exact hrest
      | continueLoop => exact hrest

/-- The room is checked value by value, so that the sum with one more value never saturates. -/
theorem collect {element : Value → StrictAction (Option Value)} {other : Value → Action (Option Value)}
    (helement : ∀ v, v.Held → Mirrors (fun w => ∀ u, w = some u → u.Held) (element v) (other v))
    {bytes : Nat} (hbytes : bytes ≤ maxListBytes) (count : Nat) (kept : List Value)
    {items : List Value} (hitems : ∀ v ∈ items, v.Held) :
    Mirrors (fun _ => True) (StrictAction.collect element bytes count kept items)
      (Host.collect other bytes count kept items) := by
  induction items generalizing bytes count kept with
  | nil => exact .pure trivial
  | cons v rest ih =>
      have hrest : ∀ w ∈ rest, w.Held := fun w hw => hitems w (List.mem_cons_of_mem _ hw)
      refine (helement v (hitems v List.mem_cons_self)).bind fun w hw => ?_
      cases w with
      | none => exact ih hbytes count kept hrest
      | some u =>
          have hu : u.Held := hw u rfl
          have hsum : Strict.addSaturating bytes u.sizeBytes = bytes + u.sizeBytes :=
            Strict.addSaturating_eq
              (Strict.add_lt_words64 (Nat.lt_of_le_of_lt hbytes (by decide)) hu)
          change Mirrors _ (StrictAction.carryOut (Strict.measure u) >>= _) _
          rw [Strict.measure_eq u hu]
          change Mirrors _ (Host.ofOutcome (checkBytes (Strict.addSaturating bytes u.sizeBytes)) >>= _) _
          rw [hsum]
          refine (ofOutcome (gives_checkBytes _)).bind fun _ hroom => ?_
          refine (ofOutcome (gives_checkItems _)).bind fun _ _ => ?_
          exact ih hroom (count + 1) (u :: kept) hrest

theorem readVariable (name : String) :
    Mirrors (fun _ => True) (Script.readVariable name : StrictAction Value)
      (Script.readVariable name) := by
  refine (lookUp name).bind fun v _ => ?_
  cases v with
  | some v => exact .pure trivial
  | none =>
      dsimp only
      split
      · exact .fail _
      · exact .fail _

theorem readAttribute (v : Value) (name : String) :
    Mirrors (fun _ => True) (Script.readAttribute v name : StrictAction Value)
      (Script.readAttribute v name) := by
  cases v with
  | library l => exact .ofOutcome (gives_any _)
  | _ => exact .fail _

theorem callBuiltin (name : String) (args : List Value) :
    Mirrors (fun _ => True) (StrictAction.callBuiltin name args) (Script.callBuiltin name args) := by
  unfold StrictAction.callBuiltin Script.callBuiltin
  cases Builtin.ofName? name with
  | none => exact .fail _
  | some builtin =>
      cases builtin with
      | print => exact (writeLine _).bind fun _ _ => .pure trivial
      | function f => exact carryOut (Strict.call_plain f args)

theorem callMember (receiver : Value) (name : String) (args : List Value) :
    Mirrors (fun _ => True) (Script.callMember receiver name args : StrictAction Value)
      (Script.callMember receiver name args) := by
  unfold Script.callMember
  split
  · exact .draw _
  · exact .ofOutcome (gives_any _)

/-- The value of every expression is reported, so that a memory holds it. -/
theorem evaluating (e : Expr) {x : StrictAction Value} {y : Action Value}
    (hxy : Mirrors (fun _ => True) x y) :
    Mirrors Value.Held (Script.evaluating e x) (Script.evaluating e y) :=
  tick.bind fun _ _ => hxy.bind fun v _ => (report (.gave e v)).bind fun _ hv => .pure hv

theorem iterate {v : Value} (hv : v.Held) :
    Mirrors (fun items => ∀ item ∈ items, item.Held)
      (Host.ofOutcome (Script.iterate v) : StrictAction (List Value))
      (Host.ofOutcome (Script.iterate v)) := by
  refine .ofOutcome fun items hitems => ?_
  unfold Script.iterate at hitems
  split at hitems
  next hsome =>
    cases hitems
    exact hv.of_itemsOf hsome
  next => cases hitems

/-! ### Expressions -/

/-- The items of a mutation come from a list. -/
theorem held_of_mutation {receiver : Value} {name : String} {m : Mutator} {items : List Value}
    (h : mutation? receiver name = some (m, items)) (hreceiver : receiver.Held) :
    (Value.list items).Held := by
  unfold mutation? at h
  split at h
  · obtain ⟨_, _, hpair⟩ := Option.map_eq_some_iff.1 h
    cases hpair
    exact hreceiver
  · cases h

mutual

/-- Every expression is evaluated to the same, unless it is aborted, and a memory holds its value. -/
theorem eval : (e : Expr) → Mirrors Value.Held e.evalStrict e.eval
  | .absent => .evaluating _ (.pure trivial)
  | .bool b => .evaluating _ (.pure trivial)
  | .int n => .evaluating _ (.pure trivial)
  | .float _ => .evaluating _ (.pure trivial)
  | .str s => .evaluating _ (.pure trivial)
  | .list items => .evaluating _ <| (evalAll items).bind fun _ _ => .pure trivial
  | .var name => .evaluating _ (readVariable name)
  | .neg operand =>
      .evaluating _ <| (eval operand).bind fun v _ => .ofOutcome (gives_any _)
  | .not operand => .evaluating _ <| (eval operand).bind fun _ _ => .pure trivial
  | .binary op left right =>
      .evaluating _ <| (eval left).bind fun _ hl => (eval right).bind fun _ hr =>
        carryOut_of_eq (Strict.operate_eq op hl hr)
  | .and left right => by
      rw [Expr.evalStrict, Expr.eval]
      refine .evaluating _ ((eval left).bind fun l _ => ?_)
      split
      · exact (eval right).any
      · exact .pure trivial
  | .or left right => by
      rw [Expr.evalStrict, Expr.eval]
      refine .evaluating _ ((eval left).bind fun l _ => ?_)
      split
      · exact .pure trivial
      · exact (eval right).any
  | .index target index =>
      .evaluating _ <| (eval target).bind fun _ ht => (eval index).bind fun i _ =>
        carryOut_of_eq (Strict.itemAt_eq ht i)
  | .slice target start stop =>
      .evaluating _ <| (eval target).bind fun _ ht => (evalOptional start).bind fun a _ =>
        (evalOptional stop).bind fun b _ => carryOut_of_eq (Strict.slice_eq ht a b)
  | .attribute target name =>
      .evaluating _ <| (eval target).bind fun v _ => readAttribute v name
  | .call callee args => by
      cases callee with
      | «attribute» target name =>
          rw [Expr.evalStrict, Expr.eval]
          refine .evaluating _ ((eval target).bind fun receiver hreceiver => ?_)
          refine (evalAll args).bind fun values hvalues => ?_
          cases hmutation : mutation? receiver name with
          | some changing =>
              obtain ⟨m, items⟩ := changing
              have hitems := held_of_mutation hmutation hreceiver
              refine (carryOut_of_eq (Strict.mutate_eq m hitems hvalues)).bind fun changed _ => ?_
              refine holding fun hchanged => ?_
              dsimp only
              split
              · exact (store target hchanged).bind fun _ _ => .pure trivial
              · exact .pure trivial
          | none => exact callMember receiver name values
      | var name =>
          rw [Expr.evalStrict, Expr.eval]
          refine .evaluating _ ((lookUp name).bind fun bound _ => ?_)
          cases bound with
          | some v => exact .fail _
          | none => exact (evalAll args).bind fun values _ => callBuiltin name values
      | _ => exact .evaluating _ (.fail _)
  | .comprehension element name source condition => by
      rw [Expr.evalStrict, Expr.eval]
      refine .evaluating _ ((eval source).bind fun v hv => (iterate hv).bind fun items hitems => ?_)
      refine (Mirrors.shadow name (.collect (fun w hw => ?_) (by decide) 0 [] hitems)).bind
        fun _ _ => .pure trivial
      refine (bindName name hw).bind fun _ _ => (holdsFor condition).bind fun holds _ => ?_
      split
      · refine (eval element).bind fun u hu => .pure fun _ hsome => ?_
        cases hsome
        exact hu
      · exact .pure nofun

theorem evalAll : (es : List Expr) →
    Mirrors (fun vs => ∀ v ∈ vs, v.Held) (evalAllStrict es) (Script.evalAll es)
  | [] => .pure fun _ hv => absurd hv List.not_mem_nil
  | e :: rest => (eval e).bind fun _ hv => (evalAll rest).bind fun _ hvs =>
      .pure (List.forall_mem_cons.2 ⟨hv, hvs⟩)

theorem evalOptional : (e : Option Expr) →
    Mirrors (fun _ => True) (evalOptionalStrict e) (Script.evalOptional e)
  | none => .pure trivial
  | some e => (eval e).bind fun _ _ => .pure trivial

theorem holdsFor : (e : Option Expr) →
    Mirrors (fun _ => True) (holdsForStrict e) (Script.holdsFor e)
  | none => .pure trivial
  | some e => (eval e).bind fun _ _ => .pure trivial

theorem store (e : Expr) {v : Value} (hv : v.Held) :
    Mirrors (fun _ => True) (e.storeStrict v) (e.store v) := by
  cases e with
  | var name => exact bindName name hv
  | index target index =>
      refine (eval index).bind fun i _ => (eval target).bind fun container hcontainer => ?_
      refine (carryOut_of_eq (Strict.withItem_eq hcontainer i v)).bind fun changed _ => ?_
      exact (report (.changed changed)).bind fun _ hchanged => store target hchanged
  | _ => exact .fail _

end

/-! ### Statements -/

mutual

theorem run : (s : Stmt) → Mirrors (fun _ => True) s.runStrict s.run
  | .mk line act => (enterLine line).bind fun _ _ => tick.bind fun _ _ => runAct act

theorem runAct : (a : Act) → Mirrors (fun _ => True) a.runStrict a.run
  | .eval e => (eval e).bind fun _ _ => .pure trivial
  | .assign target value =>
      (eval value).bind fun _ hv => (store target hv).bind fun _ _ => .pure trivial
  | .update target op value =>
      (eval target).bind fun _ hcurrent => (eval value).bind fun _ hv =>
        (carryOut_of_eq (Strict.operate_eq op hcurrent hv)).bind fun _ _ =>
          holding fun hnew => (store target hnew).bind fun _ _ => .pure trivial
  | .choose arms => runArms arms
  | .forEach name source body => by
      rw [Act.runStrict, Act.run]
      refine (eval source).bind fun v hv => (iterate hv).bind fun items hitems => ?_
      refine (forEach (fun w hw => ?_) hitems).bind fun _ _ => .pure trivial
      exact tick.bind fun _ _ => (bindName name hw).bind fun _ _ => runAll body
  | .whileTrue condition body => by
      rw [Act.runStrict, Act.run]
      refine (rounds ((eval condition).bind fun v _ => ?_)).bind fun _ _ => .pure trivial
      split
      · refine (runAll body).bind fun flow _ => ?_
        cases flow <;> exact .pure trivial
      · exact .pure trivial
  | .breakLoop => .pure trivial
  | .continueLoop => .pure trivial

theorem runArms : (a : Arms) → Mirrors (fun _ => True) a.runStrict a.run
  | .when condition body rest => by
      rw [Arms.runStrict, Arms.run]
      refine (eval condition).bind fun v _ => ?_
      split
      · exact runAll body
      · exact runArms rest
  | .otherwise body => runAll body
  | .done => .pure trivial

theorem runAll : (program : List Stmt) →
    Mirrors (fun _ => True) (runAllStrict program) (Script.runAll program)
  | [] => .pure trivial
  | s :: rest => by
      rw [runAllStrict, Script.runAll]
      refine (run s).bind fun flow _ => ?_
      cases flow with
      | next => exact runAll rest
      | breakLoop => exact .pure trivial
      | continueLoop => exact .pure trivial

end

/-- Every program runs the same, unless it is aborted. -/
theorem runProgram (program : List Stmt) :
    Mirrors (fun _ => True) (runProgramStrict program) (Script.runProgram program) :=
  (runAll program).bind fun _ _ => .pure trivial

end Mirrors

/-! ### Scripts -/

end PromptWeave.Script
