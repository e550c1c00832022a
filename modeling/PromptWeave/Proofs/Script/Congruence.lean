import PromptWeave.Proofs.Script.Names
import PromptWeave.Proofs.Script.ValueFaults

/-!
# Expressions on two hosts

A relation between the doings of two hosts that the operations of a host respect, as far as they read
known names and bind allowed ones, is respected by every expression in which known names stand and whose
receivers are allowed. One induction over the syntax serves all statements about expressions: those about
pairs of runs, and, with one host twice, those about single runs.
-/
namespace PromptWeave.Script

/-- A call changes something if its receiver is a list and the method a changing one. -/
theorem mutation?_eq_some {receiver : Value} {name : String} {m : Mutator} {items : List Value} :
    mutation? receiver name = some (m, items) ↔
      receiver = .list items ∧ Mutator.ofName? name = some m := by
  cases receiver <;> simp [mutation?, and_comm]

variable {M N : Type → Type} [Host M] [Host N]

/-- What the operations of two hosts have to respect, so that all expressions do in which known names stand
and whose receivers are allowed. Something that shadows a name which is not allowed respects it whatever is
done there. No expression fails for want of a place to write to. -/
structure Congruence (Known Allowed : String → Prop) (R : (α : Type) → M α → N α → Prop) : Prop where
  pure {α : Type} (a : α) : R _ (pure a : M α) (pure a)
  bind {α β : Type} {x : M α} {y : N α} {f : α → M β} {g : α → N β} :
    R _ x y → (∀ a, R _ (f a) (g a)) → R _ (x >>= f) (y >>= g)
  fail {α : Type} (cause : Fault) : cause ≠ .badTarget →
    R _ (Host.fail cause : M α) (Host.fail cause)
  tick : R _ (Host.tick : M Unit) Host.tick
  lookUp (name : String) : Known name →
    R _ (Host.lookUp name : M (Option Value)) (Host.lookUp name)
  bindName (name : String) (v : Value) : Known name → Allowed name →
    R _ (Host.bindName name v : M Unit) (Host.bindName name v)
  shadow {α : Type} {x : M α} {y : N α} (name : String) : Known name → (Allowed name → R _ x y) →
    R _ (Host.shadow name x) (Host.shadow name y)
  writeLine (line : String) : R _ (Host.writeLine line : M Unit) (Host.writeLine line)
  draw {α : Type} (x : Random.Generator → Outcome (α × Random.Generator)) : (∀ g, Spares (x g)) →
    R _ (Host.draw x : M α) (Host.draw x)
  report (r : Report) : R _ (Host.report r : M Unit) (Host.report r)

namespace Congruence

variable {Known Allowed : String → Prop} {R : (α : Type) → M α → N α → Prop}
  (h : Congruence Known Allowed R)
include h

/-- Both hosts are left with what an operation on values gives. -/
theorem ofOutcome {α : Type} {x : Outcome α} (hx : Spares x) :
    R _ (Host.ofOutcome x : M α) (Host.ofOutcome x) := by
  cases x with
  | ok a => exact h.pure a
  | error cause => exact h.fail cause (spares_error.1 hx)

theorem collect {element : Value → M (Option Value)} {element' : Value → N (Option Value)}
    (helement : ∀ v, R _ (element v) (element' v)) (bytes count : Nat) (kept items : List Value) :
    R _ (Host.collect element bytes count kept items)
      (Host.collect element' bytes count kept items) := by
  induction items generalizing bytes count kept with
  | nil => exact h.pure _
  | cons v rest ih =>
      refine h.bind (helement v) fun w => ?_
      cases w with
      | none => exact ih bytes count kept
      | some w =>
          refine h.bind (h.ofOutcome (spares_checkBytes _)) fun _ => ?_
          exact h.bind (h.ofOutcome (spares_checkItems _)) fun _ => ih _ _ _

theorem readVariable {name : String} (hname : Known name) :
    R _ (Script.readVariable name : M Value) (Script.readVariable name) := by
  refine h.bind (h.lookUp name hname) fun v => ?_
  cases v with
  | some v => exact h.pure v
  | none =>
      dsimp only
      split
      · exact h.fail _ nofun
      · exact h.fail _ nofun

theorem readAttribute (v : Value) (name : String) :
    R _ (Script.readAttribute v name : M Value) (Script.readAttribute v name) := by
  cases v with
  | library l => exact h.ofOutcome (spares_constantOf l name)
  | _ => exact h.fail _ nofun

theorem callBuiltin (name : String) (args : List Value) :
    R _ (Script.callBuiltin name args : M Value) (Script.callBuiltin name args) := by
  unfold Script.callBuiltin
  split
  · exact h.bind (h.writeLine _) fun _ => h.pure _
  · exact h.ofOutcome (spares_function _ args)
  · exact h.fail _ nofun

theorem callMember (receiver : Value) (name : String) (args : List Value) :
    R _ (Script.callMember receiver name args : M Value) (Script.callMember receiver name args) := by
  unfold Script.callMember
  split
  · exact h.draw _ (spares_callLibrary _ name args)
  · exact h.ofOutcome (spares_ask receiver name args)

theorem evaluating (e : Expr) {x : M Value} {y : N Value} (hxy : R _ x y) :
    R _ (Script.evaluating e x) (Script.evaluating e y) :=
  h.bind h.tick fun _ => h.bind hxy fun v => h.bind (h.report _) fun _ => h.pure v

mutual

/-- Every expression in which known names stand and whose receivers are allowed does on both hosts what the
relation allows. -/
theorem eval : (e : Expr) → Grants Known e.names → Grants Allowed e.receivers →
    R _ (e.eval : M Value) e.eval
  | .absent, _, _ => h.evaluating _ (h.pure _)
  | .bool _, _, _ => h.evaluating _ (h.pure _)
  | .int _, _, _ => h.evaluating _ (h.pure _)
  | .float _, _, _ => h.evaluating _ (h.pure _)
  | .str _, _, _ => h.evaluating _ (h.pure _)
  | .list items, hnames, hreceivers =>
      h.evaluating _ <| h.bind (evalAll items hnames hreceivers) fun _ => h.pure _
  | .var name, hnames, _ => h.evaluating _ (h.readVariable (hnames name List.mem_cons_self))
  | .neg operand, hnames, hreceivers =>
      h.evaluating _ <| h.bind (eval operand hnames hreceivers) fun v => h.ofOutcome (spares_negate v)
  | .not operand, hnames, hreceivers =>
      h.evaluating _ <| h.bind (eval operand hnames hreceivers) fun _ => h.pure _
  | .binary op left right, hnames, hreceivers =>
      have hknown := grants_append.1 hnames
      have hallowed := grants_append.1 hreceivers
      h.evaluating _ <| h.bind (eval left hknown.1 hallowed.1) fun l =>
        h.bind (eval right hknown.2 hallowed.2) fun r => h.ofOutcome (spares_operator op l r)
  | .and left right, hnames, hreceivers => by
      have hknown := grants_append.1 hnames
      have hallowed := grants_append.1 hreceivers
      rw [Expr.eval, Expr.eval]
      refine h.evaluating _ (h.bind (eval left hknown.1 hallowed.1) fun l => ?_)
      split
      · exact eval right hknown.2 hallowed.2
      · exact h.pure l
  | .or left right, hnames, hreceivers => by
      have hknown := grants_append.1 hnames
      have hallowed := grants_append.1 hreceivers
      rw [Expr.eval, Expr.eval]
      refine h.evaluating _ (h.bind (eval left hknown.1 hallowed.1) fun l => ?_)
      split
      · exact h.pure l
      · exact eval right hknown.2 hallowed.2
  | .index target index, hnames, hreceivers =>
      have hknown := grants_append.1 hnames
      have hallowed := grants_append.1 hreceivers
      h.evaluating _ <| h.bind (eval target hknown.1 hallowed.1) fun t =>
        h.bind (eval index hknown.2 hallowed.2) fun i => h.ofOutcome (spares_itemAt t i)
  | .slice target start stop, hnames, hreceivers =>
      have hknown := grants_append.1 hnames
      have hallowed := grants_append.1 hreceivers
      have hbounds := grants_append.1 hknown.2
      have hbounds' := grants_append.1 hallowed.2
      h.evaluating _ <| h.bind (eval target hknown.1 hallowed.1) fun t =>
        h.bind (evalOptional start hbounds.1 hbounds'.1) fun a =>
          h.bind (evalOptional stop hbounds.2 hbounds'.2) fun b => h.ofOutcome (spares_slice t a b)
  | .attribute target name, hnames, hreceivers =>
      h.evaluating _ <| h.bind (eval target hnames hreceivers) fun v => h.readAttribute v name
  | .call callee args, hnames, hreceivers => by
      have hknown := grants_append.1 hnames
      obtain ⟨hwritten, hallowed⟩ := grants_append.1 hreceivers
      have hallowed := grants_append.1 hallowed
      cases callee with
      | «attribute» target name =>
          rw [Expr.eval, Expr.eval]
          refine h.evaluating _ (h.bind (eval target hknown.1 hallowed.1) fun receiver => ?_)
          refine h.bind (evalAll args hknown.2 hallowed.2) fun values => ?_
          split
          case h_1 m items hmutation =>
            refine h.bind (h.ofOutcome (spares_mutator m items values)) fun changed => ?_
            dsimp only
            split
            case isTrue hplace =>
              -- The method changes its list, so the variable of the receiver counts as written to.
              have hroot (root : String) (hroot : target.root? = some root) : Allowed root := by
                refine hwritten root ?_
                simp [Expr.written?, (mutation?_eq_some.1 hmutation).2, hroot]
              exact h.bind (store target hplace hknown.1 hallowed.1 hroot _) fun _ => h.pure _
            case isFalse => exact h.pure _
          case h_2 => exact h.callMember receiver name values
      | var name =>
          rw [Expr.eval, Expr.eval]
          have hname : Known name := hknown.1 name List.mem_cons_self
          refine h.evaluating _ (h.bind (h.lookUp name hname) fun bound => ?_)
          -- A name that is bound is no function, whatever it is bound to.
          cases bound with
          | some v => exact h.fail _ nofun
          | none => exact h.bind (evalAll args hknown.2 hallowed.2) fun _ => h.callBuiltin _ _
      | _ => exact h.evaluating _ (h.fail _ nofun)
  | .comprehension element name source condition, hnames, hreceivers => by
      obtain ⟨hname, hparts⟩ := grants_cons.1 hnames
      obtain ⟨hsource, hinner⟩ := grants_append.1 hparts
      have hknown := grants_append.1 hinner
      obtain ⟨hsource', hinner'⟩ := grants_append.1 hreceivers
      rw [Expr.eval, Expr.eval]
      refine h.evaluating _ (h.bind (eval source hsource hsource') fun v => ?_)
      refine h.bind (h.ofOutcome (spares_iterate v)) fun items => ?_
      refine h.bind (h.shadow name hname fun hbound => h.collect (fun w => ?_) 0 0 [] items) fun _ =>
        h.pure _
      have hallowed := grants_append.1 (hinner'.of_filter hbound)
      refine h.bind (h.bindName name w hname hbound) fun _ => ?_
      refine h.bind (holdsFor condition hknown.2 hallowed.2) fun holds => ?_
      split
      · exact h.bind (eval element hknown.1 hallowed.1) fun _ => h.pure _
      · exact h.pure _

theorem evalAll : (es : List Expr) → Grants Known (namesOfAll es) → Grants Allowed (receiversOfAll es) →
    R _ (Script.evalAll es : M (List Value)) (Script.evalAll es)
  | [], _, _ => h.pure _
  | e :: rest, hnames, hreceivers =>
      have hknown := grants_append.1 hnames
      have hallowed := grants_append.1 hreceivers
      h.bind (eval e hknown.1 hallowed.1) fun _ =>
        h.bind (evalAll rest hknown.2 hallowed.2) fun _ => h.pure _

theorem evalOptional : (e : Option Expr) → Grants Known (namesOfOptional e) →
    Grants Allowed (receiversOfOptional e) →
    R _ (Script.evalOptional e : M (Option Value)) (Script.evalOptional e)
  | none, _, _ => h.pure _
  | some e, hnames, hreceivers => h.bind (eval e hnames hreceivers) fun _ => h.pure _

theorem holdsFor : (e : Option Expr) → Grants Known (namesOfOptional e) →
    Grants Allowed (receiversOfOptional e) → R _ (Script.holdsFor e : M Bool) (Script.holdsFor e)
  | none, _, _ => h.pure _
  | some e, hnames, hreceivers => h.bind (eval e hnames hreceivers) fun _ => h.pure _

/-- A place may be written to if its variable is allowed as well. -/
theorem store : (e : Expr) → e.isPlace = true → Grants Known e.names → Grants Allowed e.receivers →
    (∀ root, e.root? = some root → Allowed root) → (v : Value) → R _ (e.store v : M Unit) (e.store v)
  | .var name, _, hnames, _, hroot, v =>
      h.bindName name v (hnames name List.mem_cons_self) (hroot name rfl)
  | .index target index, hplace, hnames, hreceivers, hroot, v =>
      have hknown := grants_append.1 hnames
      have hallowed := grants_append.1 hreceivers
      h.bind (eval index hknown.2 hallowed.2) fun i => h.bind (eval target hknown.1 hallowed.1) fun c =>
        h.bind (h.ofOutcome (spares_withItem c i v)) fun changed => h.bind (h.report _) fun _ =>
          store target hplace hknown.1 hallowed.1 hroot changed

end

end Congruence

/-! ### All names that are known -/

/-- What the operations of two hosts have to respect, so that all expressions do in which known names
stand. -/
structure Correspondence (Known : String → Prop) (R : (α : Type) → M α → N α → Prop) : Prop where
  pure {α : Type} (a : α) : R _ (pure a : M α) (pure a)
  bind {α β : Type} {x : M α} {y : N α} {f : α → M β} {g : α → N β} :
    R _ x y → (∀ a, R _ (f a) (g a)) → R _ (x >>= f) (y >>= g)
  fail {α : Type} (cause : Fault) : R _ (Host.fail cause : M α) (Host.fail cause)
  tick : R _ (Host.tick : M Unit) Host.tick
  lookUp (name : String) : Known name →
    R _ (Host.lookUp name : M (Option Value)) (Host.lookUp name)
  bindName (name : String) (v : Value) : Known name →
    R _ (Host.bindName name v : M Unit) (Host.bindName name v)
  shadow {α : Type} {x : M α} {y : N α} (name : String) : Known name →
    R _ x y → R _ (Host.shadow name x) (Host.shadow name y)
  writeLine (line : String) : R _ (Host.writeLine line : M Unit) (Host.writeLine line)
  draw {α : Type} (x : Random.Generator → Outcome (α × Random.Generator)) :
    R _ (Host.draw x : M α) (Host.draw x)
  report (r : Report) : R _ (Host.report r : M Unit) (Host.report r)

namespace Correspondence

variable {Known : String → Prop} {R : (α : Type) → M α → N α → Prop} (h : Correspondence Known R)
include h

theorem congruence : Congruence Known (fun _ => True) R where
  pure := h.pure
  bind := h.bind
  fail cause _ := h.fail cause
  tick := h.tick
  lookUp := h.lookUp
  bindName name v hname _ := h.bindName name v hname
  shadow name hname hxy := h.shadow name hname (hxy trivial)
  writeLine := h.writeLine
  draw x _ := h.draw x
  report := h.report

theorem ofOutcome {α : Type} (x : Outcome α) :
    R _ (Host.ofOutcome x : M α) (Host.ofOutcome x) := by
  cases x with
  | ok a => exact h.pure a
  | error cause => exact h.fail cause

/-- Every expression in which known names stand does on both hosts what the relation allows. -/
theorem eval (e : Expr) (hnames : Grants Known e.names) : R _ (e.eval : M Value) e.eval :=
  h.congruence.eval e hnames fun _ _ => trivial

/-- Here it does not matter whether there is a place to write to. -/
theorem store (e : Expr) (hnames : Grants Known e.names) (v : Value) :
    R _ (e.store v : M Unit) (e.store v) := by
  cases e with
  | var name => exact h.bindName name v (hnames name List.mem_cons_self)
  | index target index =>
      have hboth := grants_append.1 hnames
      exact h.bind (h.eval index hboth.2) fun _ => h.bind (h.eval target hboth.1) fun _ =>
        h.bind (h.ofOutcome _) fun _ => h.bind (h.report _) fun _ => store target hboth.1 _
  | _ => exact h.fail _

end Correspondence
end PromptWeave.Script
