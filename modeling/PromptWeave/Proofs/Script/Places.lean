import Mathlib
import PromptWeave.Proofs.Script.Agreement
import PromptWeave.Proofs.Script.Paths
import PromptWeave.Script.Parser

/-!
# Reading and writing items of lists

An item that is read is found by evaluating every index once. An item that is written is not: every list
on the way to it is looked up anew, so that the first index is evaluated as often as there are indexes.
An operator or a method that changes an item reads it before, which evaluates every index once more. The
item that is written need not be the one that was read, unless the indexes are steady.
-/
namespace PromptWeave.Script

open PromptWeave.Script.Action
open scoped List

/-! ### Orders of evaluation -/

/-- The indexes of a place, in the order in which reading it evaluates them. -/
def Expr.readOrder : Expr → List Expr
  | .index target i => target.readOrder ++ [i]
  | _ => []

/-- The indexes of a place, in the order in which writing it evaluates them. -/
def Expr.writeOrder : Expr → List Expr
  | .index target i => i :: (target.readOrder ++ target.writeOrder)
  | _ => []

/-- A list in which the last item is repeated once, the one before it twice, and so on. -/
def piled {α : Type} : List α → List α
  | [] => []
  | a :: rest => List.replicate (rest.length + 1) a ++ piled rest

theorem piled_append_singleton {α : Type} (as : List α) (a : α) :
    piled (as ++ [a]) ~ a :: (as ++ piled as) := by
  induction as with
  | nil => exact .refl _
  | cons b as ih =>
      have hcount : List.replicate ((as ++ [a]).length + 1) b =
          b :: List.replicate (as.length + 1) b := by
        rw [List.length_append, List.length_singleton, List.replicate_succ]
      rw [List.cons_append, piled, hcount, List.cons_append, piled]
      calc b :: (List.replicate (as.length + 1) b ++ piled (as ++ [a]))
        _ ~ b :: (List.replicate (as.length + 1) b ++ (a :: (as ++ piled as))) :=
            (ih.append_left _).cons b
        _ ~ b :: a :: (List.replicate (as.length + 1) b ++ (as ++ piled as)) :=
            List.perm_middle.cons b
        _ ~ a :: b :: (List.replicate (as.length + 1) b ++ (as ++ piled as)) := .swap a b _
        _ ~ a :: b :: (as ++ (List.replicate (as.length + 1) b ++ piled as)) :=
            ((List.perm_append_comm_assoc _ _ _).cons b).cons a

/-- Writing evaluates the last index once, the one before it twice, and so on. -/
theorem writeOrder_perm (p : Expr) : p.writeOrder ~ piled p.readOrder := by
  fun_induction Expr.writeOrder p with
  | case1 target index ih =>
      rw [Expr.readOrder]
      exact ((ih.append_left _).cons index).trans (piled_append_singleton _ index).symm
  | case2 p hp =>
      cases p with
      | index target index => exact (hp target index rfl).elim
      | _ => exact .refl _

/-- Whether nothing but steps lies between two machines. -/
def Machine.StepsTo (m n : Machine) : Prop := n = { m with steps := n.steps }

theorem Machine.StepsTo.agrees {m n : Machine} (h : m.StepsTo n) : m.Agrees n := by
  rw [h]
  exact ⟨rfl, rfl⟩

theorem Machine.StepsTo.refl (m : Machine) : m.StepsTo m := rfl

theorem Machine.StepsTo.trans {m n o : Machine} (h : m.StepsTo n) (h' : n.StepsTo o) :
    m.StepsTo o := by
  rw [StepsTo] at h h' ⊢
  rw [h'.trans (congrArg (fun n : Machine => { n with steps := o.steps }) h)]

theorem Machine.stepsTo_stepped (m : Machine) : m.StepsTo m.stepped := rfl

/-- Evaluations one after the other, with nothing but steps before, between and after them. -/
inductive Evaluates (limits : Limits) : Machine → List Expr → List Value → Machine → Prop where
  | nil {m m'} : m.StepsTo m' → Evaluates limits m [] [] m'
  | cons {m mid last m' e v es vs} : m.StepsTo mid → Succeeds limits mid e.eval v last →
      Evaluates limits last es vs m' → Evaluates limits m (e :: es) (v :: vs) m'

variable {limits : Limits} {m m' mid : Machine}

namespace Evaluates

theorem stepsTo {es : List Expr} {vs : List Value} (h : m.StepsTo mid)
    (hrest : Evaluates limits mid es vs m') : Evaluates limits m es vs m' := by
  cases hrest with
  | nil h' => exact .nil (h.trans h')
  | cons h' heval hrest => exact .cons (h.trans h') heval hrest

theorem append {es es' : List Expr} {vs vs' : List Value} (h : Evaluates limits m es vs mid)
    (h' : Evaluates limits mid es' vs' m') : Evaluates limits m (es ++ es') (vs ++ vs') m' := by
  induction h with
  | nil hsteps => exact h'.stepsTo hsteps
  | cons hsteps heval _ ih => exact .cons hsteps heval (ih h')

theorem single {e : Expr} {v : Value} (h : Succeeds limits m e.eval v m') :
    Evaluates limits m [e] [v] m' :=
  .cons (.refl m) h (.nil (.refl m'))

/-- Steady expressions have the same values wherever they are evaluated, and change nothing. -/
theorem steady {n n' : Machine} {es : List Expr} {vs path : List Value}
    (hsteady : List.Forall₂ (Steady limits m) es path) (hagrees : m.Agrees n)
    (h : Evaluates limits n es vs n') : vs = path ∧ m.Agrees n' := by
  induction h generalizing path with
  | nil hsteps =>
      cases hsteady
      exact ⟨rfl, hagrees.trans hsteps.agrees⟩
  | cons hsteps heval _ ih =>
      obtain _ | ⟨hfirst, hrest⟩ := hsteady
      obtain ⟨rfl, hagrees⟩ := hfirst.agrees (hagrees.trans hsteps.agrees) heval
      obtain ⟨rfl, hagrees⟩ := ih hrest hagrees
      exact ⟨rfl, hagrees⟩

end Evaluates

/-! ### Reading -/

theorem isPlace_of_root? {p : Expr} {x : String} (hp : p.root? = some x) : p.isPlace = true := by
  fun_induction Expr.root? p with
  | case1 => rfl
  | case2 target index ih => exact ih hp
  | case3 => cases hp

/-- Reading a place. Its indexes are evaluated once and lead to the value. If they are steady, it is the
value that they always lead to, and nothing changes. -/
structure ReadsPlace (limits : Limits) (p : Expr) (x : String) (m : Machine) (v : Value)
    (m' : Machine) : Prop where
  evaluates : ∃ root path, m.get? x = some root ∧ Evaluates limits m p.readOrder path m' ∧
    itemAlong root path = .ok v
  finds : ∀ path, List.Forall₂ (Steady limits m) p.readOrder path → m.Agrees m' ∧
    ∃ root, m.get? x = some root ∧ itemAlong root path = .ok v

variable {p : Expr} {x : String} {v : Value}

theorem reads_of_evaluates {root : Value} {path : List Value} (hroot : m.get? x = some root)
    (hpath : Evaluates limits m p.readOrder path m') (hv : itemAlong root path = .ok v) :
    ReadsPlace limits p x m v m' where
  evaluates := ⟨root, path, hroot, hpath, hv⟩
  finds _ hsteady := by
    obtain ⟨rfl, hagrees⟩ := hpath.steady hsteady (.refl m)
    exact ⟨hagrees, root, hroot, hv⟩

theorem ReadsPlace.of_stepped (h : ReadsPlace limits p x m.stepped v m') :
    ReadsPlace limits p x m v m' := by
  obtain ⟨root, path, hroot, hpath, hv⟩ := h.evaluates
  exact reads_of_evaluates hroot (hpath.stepsTo m.stepsTo_stepped) hv

theorem reads_of_succeeds (hp : p.root? = some x) (h : Succeeds limits m p.eval v m') :
    ReadsPlace limits p x m v m' := by
  fun_induction Expr.root? p generalizing m m' v with
  | case1 name =>
      cases hp
      obtain ⟨-, hroot, rfl⟩ := succeeds_var.1 h
      exact reads_of_evaluates hroot (.nil m.stepsTo_stepped) itemAlong_nil
  | case2 target index ih =>
      obtain ⟨-, container, mid, i, htarget, hindex, hitem⟩ := succeeds_index.1 h
      obtain ⟨root, path, hroot, hpath, hcontainer⟩ := (ih hp htarget).of_stepped.evaluates
      refine reads_of_evaluates hroot (hpath.append (.single hindex)) ?_
      rw [itemAlong_append_singleton, hcontainer]
      exact hitem
  | case3 => cases hp

/-! ### Writing -/

theorem forall₂_append_singleton {α β : Type} {R : α → β → Prop} {as : List α} {a : α} {bs : List β}
    (h : List.Forall₂ R (as ++ [a]) bs) :
    ∃ init b, bs = init ++ [b] ∧ List.Forall₂ R as init ∧ R a b := by
  induction as generalizing bs with
  | nil =>
      obtain _ | ⟨hb, ⟨⟩⟩ := h
      exact ⟨[], _, rfl, .nil, hb⟩
  | cons c as ih =>
      obtain _ | ⟨hc, hrest⟩ := h
      obtain ⟨init, b, rfl, hinit, hb⟩ := ih hrest
      exact ⟨_ :: init, b, rfl, .cons hc hinit, hb⟩

theorem evaluates_of_store (hp : p.root? = some x) (h : Succeeds limits m (p.store v) () m') :
    ∃ values last changed, Evaluates limits m p.writeOrder values last ∧ m' = last.bind x changed := by
  fun_induction Expr.root? p generalizing m m' v with
  | case1 name =>
      cases hp
      exact ⟨[], m, v, .nil (.refl m), succeeds_store_var.1 h⟩
  | case2 target index ih =>
      obtain ⟨i, mid, container, last, changed, hindex, htarget, -, hstore⟩ :=
        succeeds_store_index.1 h
      obtain ⟨root, path, -, hpath, -⟩ := (reads_of_succeeds hp htarget).evaluates
      obtain ⟨values, final, bound, hvalues, rfl⟩ := ih hp hstore
      exact ⟨_, final, bound, (Evaluates.single hindex).append (hpath.append hvalues), rfl⟩
  | case3 => cases hp

/-- Steady indexes lead to one item, however often they are evaluated. It is written there. -/
theorem withItemAlong_of_store {n n' : Machine} {path : List Value} (hp : p.root? = some x)
    (hsteady : List.Forall₂ (Steady limits m) p.readOrder path) (hagrees : m.Agrees n)
    (h : Succeeds limits n (p.store v) () n') :
    ∃ changed, n'.Agrees (m.bind x changed) ∧
      ∀ root, m.get? x = some root → withItemAlong root path v = .ok changed := by
  fun_induction Expr.root? p generalizing n n' v path with
  | case1 name =>
      cases hp
      cases hsteady
      obtain rfl := succeeds_store_var.1 h
      exact ⟨v, hagrees.symm.bind x v, fun _ _ => rfl⟩
  | case2 target index ih =>
      obtain ⟨path, i, rfl, hpath, hi⟩ := forall₂_append_singleton hsteady
      obtain ⟨_, mid, container, last, changed, hindex, htarget, hchanged, hstore⟩ :=
        succeeds_store_index.1 h
      obtain ⟨rfl, hmid⟩ := hi.agrees hagrees hindex
      obtain ⟨found, _, hfound, hagain, hcontainer⟩ := (reads_of_succeeds hp htarget).evaluates
      obtain ⟨rfl, hlast⟩ := hagain.steady hpath hmid
      obtain ⟨bound, hbound, hwritten⟩ := ih hp hpath hlast hstore
      refine ⟨bound, hbound, fun root hroot => ?_⟩
      -- Nothing has been bound since, so the variable still has the value from before.
      obtain rfl : found = root := by
        rw [← hmid.get? x, hroot] at hfound
        exact (Option.some.inj hfound).symm
      exact withItemAlong_append_singleton_eq_ok.2
        ⟨container, changed, hcontainer, hchanged, hwritten found hroot⟩
  | case3 => cases hp

/-- Writing an item of a variable. The indexes of all the lists on the way to it are evaluated anew. If
they are steady, the item that they lead to is replaced and everything else is left as it was. -/
structure WritesPlace (limits : Limits) (p : Expr) (x : String) (m : Machine) (v : Value)
    (m' : Machine) : Prop where
  evaluates : ∃ values last changed, Evaluates limits m p.writeOrder values last ∧
    m' = last.bind x changed
  replaces : ∀ path, List.Forall₂ (Steady limits m) p.readOrder path → ∃ root changed,
    m.get? x = some root ∧ m'.Agrees (m.bind x changed) ∧ withItemAlong root path v = .ok changed ∧
      itemAlong changed path = .ok v ∧
      ∀ other, Apart root path other → itemAlong changed other = itemAlong root other

theorem writes_of_store {target index : Expr} (hp : target.root? = some x)
    (h : Succeeds limits m ((Expr.index target index).store v) () m') :
    WritesPlace limits (.index target index) x m v m' where
  evaluates := evaluates_of_store (p := .index target index) hp h
  replaces path hsteady := by
    obtain ⟨changed, hbound, hwritten⟩ :=
      withItemAlong_of_store (p := .index target index) hp hsteady (.refl m) h
    obtain ⟨root, hroot⟩ : ∃ root, m.get? x = some root := by
      obtain ⟨_, mid, _, _, _, hindex, htarget, -, -⟩ := succeeds_store_index.1 h
      obtain ⟨init, i, -, -, hi⟩ := forall₂_append_singleton hsteady
      obtain ⟨-, hmid⟩ := hi.agrees (.refl m) hindex
      obtain ⟨root, -, hroot, -, -⟩ := (reads_of_succeeds hp htarget).evaluates
      exact ⟨root, (hmid.get? x).trans hroot⟩
    have hchanged := hwritten root hroot
    exact ⟨root, changed, hroot, hbound, hchanged, itemAlong_of_withItemAlong hchanged,
      fun other hapart => itemAlong_of_apart hapart hchanged⟩

/-! ### Items that are read and written -/

/-- The item of a list at an index that is taken off another list. -/
def itemAtPopped (x indexes : String) : Expr :=
  .index (.var x) (.call (.attribute (.var indexes) "pop") [])

/-- The statement that is meant to add one to an item. -/
def countUp (x indexes : String) : Act := .update (itemAtPopped x indexes) .add (.int 1)

/-- A machine with a list of two numbers and a list of their two indexes. -/
def twoCounters : Machine :=
  ((Machine.start (.ofSeed 0)).bind "xs" (.list [.int 10, .int 20])).bind "i" (.list [.int 1, .int 0])

theorem succeeds_countUp :
    ∃ m', Succeeds ⟨100, 100⟩ twoCounters (countUp "xs" "i").run .next m' :=
  ⟨_, succeeds_of_fst _ (by cbv)⟩

/-- Assigning to an item of a variable evaluates the last index once, the one before it twice, and so on.
An operator or a changing method reads the item before that, which evaluates every index once more, and
what is made of the item that was read is written wherever the indexes lead the next time. If they have
the same steady values before and after the other value is evaluated, that is the item that was read. -/
theorem indexes_are_evaluated_again {target index : Expr} {x : String} (hx : target.root? = some x)
    (limits : Limits) (m m' : Machine) :
    let p := Expr.index target index
    p.writeOrder ~ piled p.readOrder ∧
    (∀ value flow, Succeeds limits m (Act.assign p value).run flow m' →
      ∃ v mid, Succeeds limits m value.eval v mid ∧ WritesPlace limits p x mid v m') ∧
    (∀ op value flow, Succeeds limits m (Act.update p op value).run flow m' →
      ∃ old mid v last new, ReadsPlace limits p x m old mid ∧ Succeeds limits mid value.eval v last ∧
        op.apply old v = .ok new ∧ WritesPlace limits p x last new m') ∧
    (∀ name method args result, Mutator.ofName? name = some method →
      Succeeds limits m (Expr.call (.attribute p name) args).eval result m' →
      ∃ items mid values last changed, ReadsPlace limits p x m (.list items) mid ∧
        Succeeds limits mid (evalAll args) values last ∧
        method.apply items values = .ok (result, changed) ∧
        WritesPlace limits p x last (.list changed) m') := by
  intro p
  have hp : p.root? = some x := hx
  refine ⟨writeOrder_perm p, fun value flow h => ?_, fun op value flow h => ?_,
    fun name method args result hmethod h => ?_⟩
  · obtain ⟨-, v, mid, hvalue, hstore⟩ := succeeds_assign.1 h
    exact ⟨v, mid, hvalue, writes_of_store hx hstore⟩
  · obtain ⟨-, old, mid, v, last, new, hread, hvalue, hnew, hstore⟩ := succeeds_update.1 h
    exact ⟨old, mid, v, last, new, reads_of_succeeds hp hread, hvalue, hnew, writes_of_store hx hstore⟩
  · obtain ⟨-, items, mid, values, last, changed, hread, hargs, happly, hwrite⟩ :=
      (succeeds_mutation hmethod).1 h
    rw [if_pos (isPlace_of_root? hp)] at hwrite
    exact ⟨items, mid, values, last, changed, (reads_of_succeeds hp hread).of_stepped, hargs, happly,
      writes_of_store hx hwrite⟩

theorem indexes_are_evaluated_again_counters : (Expr.var "xs").root? = some "xs" ∧
    ∃ m' old mid v last new, Succeeds ⟨100, 100⟩ twoCounters (countUp "xs" "i").run .next m' ∧
      ReadsPlace ⟨100, 100⟩ (itemAtPopped "xs" "i") "xs" twoCounters old mid ∧
      Succeeds ⟨100, 100⟩ mid (Expr.int 1).eval v last ∧ BinaryOp.add.apply old v = .ok new ∧
      WritesPlace ⟨100, 100⟩ (itemAtPopped "xs" "i") "xs" last new m' := by
  obtain ⟨m', hrun⟩ := succeeds_countUp
  obtain ⟨-, -, hupdate, -⟩ := @indexes_are_evaluated_again (.var "xs")
    (.call (.attribute (.var "i") "pop") []) "xs" rfl ⟨100, 100⟩ twoCounters m'
  obtain ⟨old, mid, v, last, new, hread, hvalue, hnew, hwrite⟩ := hupdate .add (.int 1) .next hrun
  exact ⟨rfl, m', old, mid, v, last, new, hrun, hread, hvalue, hnew, hwrite⟩

/-- Adding one at an index changes the first number or the second. -/
theorem one_more_at_index {index old new changed : Value}
    (hold : itemAt (.list [.int 10, .int 20]) index = .ok old)
    (hnew : BinaryOp.add.apply old (.int 1) = .ok new)
    (hchanged : withItem (.list [.int 10, .int 20]) index new = .ok changed) :
    changed = .list [.int 11, .int 20] ∨ changed = .list [.int 10, .int 21] := by
  obtain ⟨_, p, ⟨⟩, hp, rfl⟩ := withItem_eq_ok.1 hchanged
  rw [itemAt_list hp] at hold
  cases hold
  have hlt : p < 2 := position_lt hp
  match p, hlt with
  | 0, _ =>
      have hsum : BinaryOp.add.apply (.int 10) (.int 1) = .ok (.int 11) := by cbv
      cases hsum.symm.trans hnew
      exact .inl rfl
  | 1, _ =>
      have hsum : BinaryOp.add.apply (.int 20) (.int 1) = .ok (.int 21) := by cbv
      cases hsum.symm.trans hnew
      exact .inr rfl

/-- The item at one index is read, and one more than it is written at the other, so that no one index
accounts for the list. -/
theorem counts_up_across_items :
    parse "xs = [10, 20]\ni = [1, 0]\nxs[i.pop()] += 1" =
        .ok [.mk 1 (.assign (.var "xs") (.list [.int 10, .int 20])),
          .mk 2 (.assign (.var "i") (.list [.int 1, .int 0])), .mk 3 (countUp "xs" "i")] ∧
      ∃ m', Succeeds ⟨100, 100⟩ twoCounters (countUp "xs" "i").run .next m' ∧
        m'.get? "xs" = some (.list [.int 10, .int 11]) ∧ m'.get? "i" = some (.list []) ∧
        ∀ index old new changed, itemAt (.list [.int 10, .int 20]) index = .ok old →
          BinaryOp.add.apply old (.int 1) = .ok new →
          withItem (.list [.int 10, .int 20]) index new = .ok changed →
          changed ≠ .list [.int 10, .int 11] := by
  refine ⟨by cbv, _, succeeds_of_fst _ (by cbv), by cbv, by cbv, ?_⟩
  intro index old new changed hold hnew hchanged
  obtain rfl | rfl := one_more_at_index hold hnew hchanged
  · simp
  · simp

end PromptWeave.Script
