import Mathlib.Data.String.Basic
import PromptWeave.Proofs.Script.Mutation
import PromptWeave.Proofs.StableOrder

/-!
# The order of values

Comparing is partial: values of different kinds have no order, nor have two that are nothing, and lists
have one as far as their first difference decides it. Where it is defined it agrees with equality, it may
be read from either side, and comparisons may be put together. Sorting goes by keys of its own and comes
to the same order. Main statement: `compare_equality_and_sorting_agree`.
-/
namespace PromptWeave.Script

open PromptWeave.Script.Action

/-! ### Values without doubles -/

/-- Whether no double stands in a value. -/
inductive FloatFree : Value → Prop where
  | absent : FloatFree .absent
  | bool (b : Bool) : FloatFree (.bool b)
  | int (n : Int64) : FloatFree (.int n)
  | str (s : String) : FloatFree (.str s)
  | library (l : Library) : FloatFree (.library l)
  | list {items : List Value} : (∀ v ∈ items, FloatFree v) → FloatFree (.list items)

theorem FloatFree.items {items : List Value} (h : FloatFree (.list items)) :
    ∀ v ∈ items, FloatFree v := by
  cases h with
  | list hitems => exact hitems

namespace Value

variable {o p : Ordering}

/-- Whether a value stands before another. -/
def Before (a b : Value) : Prop := a.compare? b = some .lt

/-- Whether a value stands no later than another. -/
def NoLater (a b : Value) : Prop := ∃ o, a.compare? b = some o ∧ o ≠ .gt

/-- Texts are compared as the linear order of texts says. -/
theorem compareTexts_eq (s t : String) : compareTexts s t = compare s t := by
  rw [compareTexts]
  rcases lt_trichotomy s t with h | rfl | h
  · rw [if_pos h, compare_lt_iff_lt.2 h]
  · rw [if_neg (lt_irrefl s), if_pos rfl, compare_eq_iff_eq.2 rfl]
  · rw [if_neg h.not_gt, if_neg h.ne', compare_gt_iff_gt.2 h]

/-- What is not equal decides at once. -/
theorem then_of_ne (ho : o ≠ .eq) : o.then p = o := by
  cases o with
  | eq => exact absurd rfl ho
  | lt => rfl
  | gt => rfl

/-- Behind what does not go down, going up decides. -/
theorem then_of_ne_eq (ho : o ≠ .gt) (hp : p ≠ .gt) (hp' : p ≠ .eq) : o.then p = p := by
  cases o <;> cases p <;> simp_all [Ordering.then]

/-- In a linear order the first difference of two comparisons that do not go down decides a third. -/
theorem compare_then {α : Type} [LinearOrder α] {x y z : α} (hxy : compare x y ≠ .gt)
    (hyz : compare y z ≠ .gt) : compare x z = (compare x y).then (compare y z) := by
  rw [compare_le_iff_le] at hxy hyz
  rcases hxy.lt_or_eq with hlt | rfl
  · rw [compare_lt_iff_lt.2 hlt, compare_lt_iff_lt.2 (hlt.trans_le hyz)]
    rfl
  · rw [compare_eq_iff_eq.2 rfl]
    rfl

/-- The first items that are not equal decide. -/
theorem compareLists?_of_ne {a b : Value} (as bs : List Value) (h : a.compare? b = some o)
    (ho : o ≠ .eq) : compareLists? (a :: as) (b :: bs) = some o := by
  rw [compareLists?, h]
  split
  · rename_i heq
    exact absurd (Option.some.inj heq) ho
  · rfl

theorem compareLists?_of_eq {a b : Value} (as bs : List Value) (h : a.compare? b = some .eq) :
    compareLists? (a :: as) (b :: bs) = compareLists? as bs := by
  rw [compareLists?, h]

theorem compareLists?_cons_eq_some {a b : Value} {as bs : List Value} :
    compareLists? (a :: as) (b :: bs) = some o ↔
      a.compare? b = some .eq ∧ compareLists? as bs = some o ∨ a.compare? b = some o ∧ o ≠ .eq := by
  cases h : a.compare? b with
  | none => simp [compareLists?, h]
  | some p =>
      by_cases hp : p = .eq
      · rw [compareLists?_of_eq as bs (hp ▸ h)]
        simp [hp, eq_comm (a := Ordering.eq)]
      · rw [compareLists?_of_ne as bs h hp]
        simp only [Option.some.injEq, hp, false_and, false_or, iff_self_and]
        exact fun hpo => hpo ▸ hp

/-! ### Comparing from the other side -/

mutual

theorem compare?_swap : (a b : Value) → FloatFree a → FloatFree b →
    b.compare? a = (a.compare? b).map Ordering.swap
  | .list as, b, ha, hb => by
      cases hb with
      | list hbs => exact compareLists?_swap as _ ha.items hbs
      | _ => rfl
  | .int m, b, _, hb => by
      cases hb with
      | int n => exact congrArg some Std.OrientedCmp.eq_swap
      | _ => rfl
  | .str s, b, _, hb => by
      cases hb with
      | str t =>
          simp only [compare?, compareTexts_eq]
          exact congrArg some Std.OrientedCmp.eq_swap
      | _ => rfl
  | .bool x, b, _, hb => by
      cases hb with
      | bool y => exact congrArg some Std.OrientedCmp.eq_swap
      | _ => rfl
  | .absent, b, _, hb => by cases hb <;> rfl
  | .library l, b, _, hb => by cases hb <;> rfl
  | .float x, _, ha, _ => nomatch ha

theorem compareLists?_swap : (as bs : List Value) → (∀ v ∈ as, FloatFree v) →
    (∀ v ∈ bs, FloatFree v) → compareLists? bs as = (compareLists? as bs).map Ordering.swap
  | [], [], _, _ => rfl
  | [], _ :: _, _, _ => rfl
  | _ :: _, [], _, _ => rfl
  | a :: as, b :: bs, ha, hb => by
      obtain ⟨ha, has⟩ := List.forall_mem_cons.1 ha
      obtain ⟨hb, hbs⟩ := List.forall_mem_cons.1 hb
      rw [compareLists?, compareLists?, compare?_swap a b ha hb]
      cases a.compare? b with
      | none => rfl
      | some o =>
          cases o with
          | eq => exact compareLists?_swap as bs has hbs
          | lt => rfl
          | gt => rfl

end

/-! ### Comparing and equality -/

mutual

/-- Values that can be compared are in the same place exactly if they are equal. -/
theorem compare?_eq_iff : (a b : Value) → FloatFree a → FloatFree b → {o : Ordering} →
    a.compare? b = some o → (o = .eq ↔ a.beq b = true)
  | .list as, b, ha, hb, o, h => by
      cases hb with
      | list hbs => exact compareLists?_eq_iff as _ ha.items hbs h
      | _ => cases h
  | .int m, b, _, hb, o, h => by
      cases hb with
      | int n =>
          cases h
          simp [beq, Int64.toInt_inj]
      | _ => cases h
  | .str s, b, _, hb, o, h => by
      cases hb with
      | str t =>
          cases h
          simp [beq, compareTexts_eq]
      | _ => cases h
  | .bool x, b, _, hb, o, h => by
      cases hb with
      | bool y =>
          cases h
          cases x <;> cases y <;> decide
      | _ => cases h
  | .absent, b, _, hb, o, h => by cases hb <;> cases h
  | .library l, b, _, hb, o, h => by cases hb <;> cases h
  | .float x, _, ha, _, _, _ => nomatch ha

theorem compareLists?_eq_iff : (as bs : List Value) → (∀ v ∈ as, FloatFree v) →
    (∀ v ∈ bs, FloatFree v) → {o : Ordering} → compareLists? as bs = some o →
    (o = .eq ↔ beqList as bs = true)
  | [], [], _, _, o, h => by
      cases h
      simp [beqList]
  | [], _ :: _, _, _, o, h => by
      cases h
      simp [beqList]
  | _ :: _, [], _, _, o, h => by
      cases h
      simp [beqList]
  | a :: as, b :: bs, ha, hb, o, h => by
      obtain ⟨ha, has⟩ := List.forall_mem_cons.1 ha
      obtain ⟨hb, hbs⟩ := List.forall_mem_cons.1 hb
      rw [beqList, Bool.and_eq_true]
      rcases compareLists?_cons_eq_some.1 h with ⟨hfirst, hrest⟩ | ⟨hfirst, ho⟩
      · rw [← compare?_eq_iff a b ha hb hfirst, ← compareLists?_eq_iff as bs has hbs hrest]
        simp
      · rw [← compare?_eq_iff a b ha hb hfirst]
        simp [ho]

end

/-! ### Comparisons one after the other -/

mutual

/-- Two comparisons that do not go down make a third, which the first difference decides. -/
theorem compare?_then : (a b c : Value) → FloatFree a → FloatFree b → FloatFree c →
    {o p : Ordering} → a.compare? b = some o → o ≠ .gt → b.compare? c = some p → p ≠ .gt →
    a.compare? c = some (o.then p)
  | .list as, b, c, ha, hb, hc, o, p, h, ho, h', hp => by
      -- Only values of one type are compared, so one more type leaves no case.
      cases hb with
      | list hbs =>
          cases hc with
          | list hcs => exact compareLists?_then as _ _ ha.items hbs hcs h ho h' hp
          | _ => cases h'
      | _ => cases h
  | .int m, b, c, _, hb, hc, o, p, h, ho, h', hp => by
      cases hb with
      | int n =>
          cases hc with
          | int k =>
              cases h
              cases h'
              exact congrArg some (compare_then ho hp)
          | _ => cases h'
      | _ => cases h
  | .str s, b, c, _, hb, hc, o, p, h, ho, h', hp => by
      cases hb with
      | str t =>
          cases hc with
          | str u =>
              cases h
              cases h'
              simp only [compare?, compareTexts_eq] at ho hp ⊢
              exact congrArg some (compare_then ho hp)
          | _ => cases h'
      | _ => cases h
  | .bool x, b, c, _, hb, hc, o, p, h, ho, h', hp => by
      cases hb with
      | bool y =>
          cases hc with
          | bool z =>
              cases h
              cases h'
              exact congrArg some (compare_then ho hp)
          | _ => cases h'
      | _ => cases h
  | .absent, b, _, _, hb, _, _, _, h, _, _, _ => by cases hb <;> cases h
  | .library l, b, _, _, hb, _, _, _, h, _, _, _ => by cases hb <;> cases h
  | .float x, _, _, ha, _, _, _, _, _, _, _, _ => nomatch ha

theorem compareLists?_then : (as bs cs : List Value) → (∀ v ∈ as, FloatFree v) →
    (∀ v ∈ bs, FloatFree v) → (∀ v ∈ cs, FloatFree v) → {o p : Ordering} →
    compareLists? as bs = some o → o ≠ .gt → compareLists? bs cs = some p → p ≠ .gt →
    compareLists? as cs = some (o.then p)
  | [], [], _, _, _, _, o, p, h, _, h', _ => by
      cases h
      exact h'
  | [], _ :: _, [], _, _, _, o, p, _, _, h', hp => by
      cases h'
      exact (hp rfl).elim
  | [], _ :: _, _ :: _, _, _, _, o, p, h, _, _, _ => by
      cases h
      rfl
  | _ :: _, [], _, _, _, _, o, p, h, ho, _, _ => by
      cases h
      exact (ho rfl).elim
  | _ :: _, _ :: _, [], _, _, _, o, p, _, _, h', hp => by
      cases h'
      exact (hp rfl).elim
  | a :: as, b :: bs, c :: cs, ha, hb, hc, o, p, h, ho, h', hp => by
      obtain ⟨ha, has⟩ := List.forall_mem_cons.1 ha
      obtain ⟨hb, hbs⟩ := List.forall_mem_cons.1 hb
      obtain ⟨hc, hcs⟩ := List.forall_mem_cons.1 hc
      -- Either pair of first items may be where the lists differ, and then its order is theirs.
      rcases compareLists?_cons_eq_some.1 h with ⟨hab, hrest⟩ | ⟨hab, ho'⟩ <;>
        rcases compareLists?_cons_eq_some.1 h' with ⟨hbc, hrest'⟩ | ⟨hbc, hp'⟩
      · have hac := compare?_then a b c ha hb hc hab nofun hbc nofun
        rw [compareLists?_of_eq as cs hac]
        exact compareLists?_then as bs cs has hbs hcs hrest ho hrest' hp
      · have hac := compare?_then a b c ha hb hc hab nofun hbc hp
        rw [compareLists?_of_ne as cs hac hp', then_of_ne_eq ho hp hp']
        rfl
      · have hac := compare?_then a b c ha hb hc hab ho hbc nofun
        rw [Ordering.then_eq] at hac
        rw [compareLists?_of_ne as cs hac ho', then_of_ne ho']
      · have hac := compare?_then a b c ha hb hc hab ho hbc hp
        rw [then_of_ne ho'] at hac ⊢
        exact compareLists?_of_ne as cs hac ho'

end
end Value

/-! ### Sorting -/

section Sorting

variable {items sorted : List Value} {args : List Value}

theorem exists_texts (h : items.all Value.isStr) : ∃ texts : List String, items = texts.map Value.str := by
  induction items with
  | nil => exact ⟨[], rfl⟩
  | cons v rest ih =>
      obtain ⟨hv, hrest⟩ := Bool.and_eq_true_iff.1 h
      obtain ⟨texts, rfl⟩ := ih hrest
      cases v with
      | str s => exact ⟨s :: texts, rfl⟩
      | _ => cases hv

theorem exists_ints (h : items.all Value.isInt) : ∃ ns : List Int64, items = ns.map Value.int := by
  induction items with
  | nil => exact ⟨[], rfl⟩
  | cons v rest ih =>
      obtain ⟨hv, hrest⟩ := Bool.and_eq_true_iff.1 h
      obtain ⟨ns, rfl⟩ := ih hrest
      cases v with
      | int n => exact ⟨n :: ns, rfl⟩
      | _ => cases hv

theorem textsInOrder_str (s t : String) : textsInOrder (.str s) (.str t) = decide (s ≤ t) := by
  simp only [textsInOrder, Value.compareTexts_eq, bne, beq_eq_decide, ← compare_le_iff_le]
  simp

/-- Values are put in an order by a key if they are built of what the key is of. -/
theorem pairwise_mergeSort_map {α β : Type} [LinearOrder β] (key : α → β) (build : α → Value)
    {inOrder : Value → Value → Bool}
    (horder : ∀ x y, decide (key x ≤ key y) = inOrder (build x) (build y))
    (hcompare : ∀ x y, (build x).compare? (build y) = some (compare (key x) (key y))) (xs : List α) :
    ((xs.map build).mergeSort inOrder).Pairwise Value.NoLater := by
  rw [← List.map_mergeSort (r := fun x y => decide (key x ≤ key y)) fun x _ y _ => horder x y,
    List.pairwise_map]
  refine (ordered_mergeSort key xs).ascending.imp fun {x y} hxy => ?_
  exact ⟨_, hcompare x y, compare_le_iff_le.2 hxy⟩

/-- Texts and integers are sorted into the order in which they are compared. -/
theorem sortValues_of_all (h : items.all Value.isStr ∨ items.all Value.isInt) :
    ∃ sorted, sortValues items = .ok sorted ∧ sorted.Perm items ∧
      sorted.Pairwise Value.NoLater := by
  by_cases hstr : items.all Value.isStr
  · refine ⟨items.mergeSort textsInOrder, by rw [sortValues, if_pos hstr],
      List.mergeSort_perm _ _, ?_⟩
    obtain ⟨texts, rfl⟩ := exists_texts hstr
    refine pairwise_mergeSort_map id Value.str (fun s t => (textsInOrder_str s t).symm) (fun s t => ?_)
      texts
    rw [Value.compare?, Value.compareTexts_eq]
    rfl
  · have hint := h.resolve_left hstr
    refine ⟨items.mergeSort intsInOrder, by rw [sortValues, if_neg hstr, if_pos hint],
      List.mergeSort_perm _ _, ?_⟩
    obtain ⟨ns, rfl⟩ := exists_ints hint
    exact pairwise_mergeSort_map Int64.toInt Value.int (fun _ _ => rfl) (fun _ _ => rfl) ns

theorem all_isNumber_of_isInt (h : items.all Value.isInt) : items.all Value.isNumber := by
  obtain ⟨ns, rfl⟩ := exists_ints h
  simp [Value.isNumber]

/-- Lists that hold neither texts only nor numbers only are refused. -/
theorem sortValues_of_not_all (hstr : ¬ items.all Value.isStr) (hnumber : ¬ items.all Value.isNumber) :
    sortValues items = .error .unsortable := by
  rw [sortValues, if_neg hstr, if_neg fun hint => hnumber (all_isNumber_of_isInt hint), if_neg hnumber]

theorem extreme_list (name : String) (pick : List Value → Option Value) (hitems : items ≠ []) :
    extreme name pick [.list items] = (sortValues items).map fun sorted => (pick sorted).getD .absent := by
  have hempty : ¬ items.isEmpty = true := by simpa using hitems
  have hread : extreme name pick [.list items] =
      if items.isEmpty then .error (.emptySequence name)
      else (sortValues items).map fun sorted => (pick sorted).getD .absent := by
    unfold extreme
    rfl
  rw [hread, if_neg hempty]

end Sorting

/-! ### Calls -/

section Calls

variable {limits : Limits} {m : Machine} {f x : String} {v : Value}

/-- The call of a function on a variable. -/
def callOn (f x : String) : Expr := .call (.var f) [.var x]

/-- The call of the method that sorts a variable's list. -/
def sortCall (x : String) : Expr := .call (.attribute (.var x) "sort") []

/-- The machine after the two steps that either call takes. -/
def Machine.called (m : Machine) : Machine := m.stepped.stepped

theorem eval_var (hsteps : m.steps < limits.maxSteps) (hx : m.get? x = some v) :
    ((Expr.var x).eval : Action Value) limits m = (.ok v, m.stepped) :=
  succeeds_var.2 ⟨hsteps, hx, rfl⟩

/-- A function is called on what the variable is bound to. -/
theorem eval_callOn {g : Function} (hsteps : m.steps + 2 ≤ limits.maxSteps) (hf : m.get? f = none)
    (hg : Builtin.ofName? f = some (.function g)) (hx : m.get? x = some v) :
    ((callOn f x).eval : Action Value) limits m =
      (Host.ofOutcome (g.apply [v]) : Action Value) limits m.called := by
  have hlookUp : lookUp f limits m.stepped = (.ok none, m.stepped) := by
    rw [lookUp, Machine.get?_stepped, hf]
  have hargs : (evalAll [.var x] : Action (List Value)) limits m.stepped = (.ok [v], m.called) :=
    succeeds_evalAll_cons.2 ⟨v, m.called, [], eval_var (m := m.stepped) hsteps hx,
      succeeds_evalAll_nil.2 ⟨rfl, rfl⟩, rfl⟩
  rw [callOn, Expr.eval, evaluating_apply (by omega), host_lookUp, bind_ok _ hlookUp]
  dsimp only
  rw [bind_ok _ hargs, callBuiltin, hg]

/-- A variable is bound to its sorted list, or nothing is changed but the number of steps. -/
theorem eval_sortCall {items : List Value} (hsteps : m.steps + 2 ≤ limits.maxSteps)
    (hx : m.get? x = some (.list items)) :
    ((sortCall x).eval : Action Value) limits m =
      match sortValues items with
      | .ok sorted => (.ok .absent, m.called.bind x (.list sorted))
      | .error cause => (.error (.fault m.line cause), m.called) := by
  have happly : Mutator.sort.apply items [] = (sortValues items).map fun sorted => (.absent, sorted) := by
    cases h : sortValues items <;> simp [Mutator.apply, noArguments, h] <;> rfl
  have htarget : ((Expr.var x).eval : Action Value) limits m.stepped = (.ok (.list items), m.called) :=
    eval_var hsteps hx
  rw [sortCall, Expr.eval, evaluating_apply (by omega), bind_ok _ htarget]
  have hargs : (evalAll [] : Action (List Value)) limits m.called = (.ok [], m.called) :=
    succeeds_evalAll_nil.2 ⟨rfl, rfl⟩
  have hmutation : mutation? (.list items) "sort" = some (.sort, items) :=
    mutation?_eq_some.2 ⟨rfl, rfl⟩
  change (evalAll [] >>= _ : Action Value) limits m.called = _
  rw [bind_ok _ hargs, hmutation]
  dsimp only
  rw [happly]
  cases sortValues items with
  | ok sorted => rfl
  | error cause => rfl

theorem apply_sorted (items : List Value) :
    Function.sorted.apply [.list items] = Value.list <$> sortValues items := by
  rw [Function.apply]
  rfl

end Calls

/-! ### The main statement -/

section Main

variable {limits : Limits} {m : Machine} {x : String} {items ordered : List Value} {v : Value}

/-- What sorting a variable's list needs: the list, two steps, and functions whose names are not bound to
anything. -/
structure Sortable (limits : Limits) (m : Machine) (x : String) (items : List Value) : Prop where
  bound : m.get? x = some (.list items)
  steps : m.steps + 2 ≤ limits.maxSteps
  free : ∀ f ∈ ["sorted", "min", "max"], m.get? f = none

/-- What the four calls give that sort a variable's list. Only the method changes the variable. -/
structure SortsTo (limits : Limits) (m : Machine) (x : String) (ordered : List Value) : Prop where
  function : Succeeds limits m (callOn "sorted" x).eval (.list ordered) m.called
  method : Succeeds limits m (sortCall x).eval .absent (m.called.bind x (.list ordered))
  least : ∀ v, ordered.head? = some v → Succeeds limits m (callOn "min" x).eval v m.called
  greatest : ∀ v, ordered.getLast? = some v → Succeeds limits m (callOn "max" x).eval v m.called

/-- Whether the four calls fail as the list cannot be sorted, and change no variable. -/
def RefusesToSort (limits : Limits) (m : Machine) (x : String) : Prop :=
  ∀ e ∈ [callOn "sorted" x, sortCall x, callOn "min" x, callOn "max" x], ∃ m',
    (e.eval : Action Value) limits m = (.error (.fault m.line .unsortable), m') ∧
    ∀ y, m'.get? y = m.get? y

theorem Sortable.sortsTo (h : Sortable limits m x items) (hsort : sortValues items = .ok ordered)
    (hperm : ordered.Perm items) : SortsTo limits m x ordered := by
  have hcall {f : String} {g : Function} {v : Value} (hf : f ∈ ["sorted", "min", "max"])
      (hg : Builtin.ofName? f = some (.function g)) (hv : g.apply [.list items] = .ok v) :
      Succeeds limits m (callOn f x).eval v m.called := by
    rw [Succeeds, eval_callOn h.steps (h.free f hf) hg h.bound, hv]
    rfl
  have hextreme (name : String) {pick : List Value → Option Value} {v : Value}
      (hsome : ordered ≠ []) (hpick : pick ordered = some v) :
      extreme name pick [.list items] = .ok v := by
    have hitems : items ≠ [] := by
      rintro rfl
      exact hsome hperm.eq_nil
    rw [extreme_list name pick hitems, hsort]
    simp [Except.map, hpick]
  refine ⟨hcall (by simp) rfl ?_, ?_, fun v hv => ?_, fun v hv => ?_⟩
  · rw [apply_sorted, hsort]
    rfl
  · rw [Succeeds, eval_sortCall h.steps h.bound, hsort]
  · have hsome : ordered ≠ [] := by
      rintro rfl
      cases hv
    exact hcall (by simp) rfl (hextreme "min" hsome hv)
  · have hsome : ordered ≠ [] := by
      rintro rfl
      cases hv
    exact hcall (by simp) rfl (hextreme "max" hsome hv)

theorem Sortable.refuses (h : Sortable limits m x items) (hsort : sortValues items = .error .unsortable) :
    RefusesToSort limits m x := by
  have hcall {f : String} {g : Function} (hf : f ∈ ["sorted", "min", "max"])
      (hg : Builtin.ofName? f = some (.function g)) (hv : g.apply [.list items] = .error .unsortable) :
      ∃ m', ((callOn f x).eval : Action Value) limits m = (.error (.fault m.line .unsortable), m') ∧
        ∀ y, m'.get? y = m.get? y := by
    rw [eval_callOn h.steps (h.free f hf) hg h.bound, hv]
    exact ⟨m.called, rfl, fun _ => rfl⟩
  have hitems : items ≠ [] := by
    rintro rfl
    cases hsort
  have hextreme (name : String) (pick : List Value → Option Value) :
      extreme name pick [.list items] = .error .unsortable := by
    rw [extreme_list name pick hitems, hsort]
    rfl
  intro e he
  simp only [List.mem_cons, List.not_mem_nil, or_false] at he
  rcases he with rfl | rfl | rfl | rfl
  · exact hcall (by simp) rfl (by rw [apply_sorted, hsort]; rfl)
  · rw [eval_sortCall h.steps h.bound, hsort]
    exact ⟨m.called, rfl, fun _ => rfl⟩
  · exact hcall (by simp) rfl (hextreme "min" _)
  · exact hcall (by simp) rfl (hextreme "max" _)

/-- Comparing, equality and sorting agree. Values without doubles are compared in one direction as in the
other, those that can be compared are in the same place exactly if they are equal, and comparisons that do
not go down make one that does not, and goes up if one of them does. A list of texts or of integers is
sorted by function and method alike, into the order in which its items are compared, with the least and
the greatest at its ends; a list that is neither of texts nor of numbers is refused by all, and the
variable keeps it. -/
theorem compare_equality_and_sorting_agree :
    (∀ a b, FloatFree a → FloatFree b → b.compare? a = (a.compare? b).map Ordering.swap) ∧
    (∀ a b o, FloatFree a → FloatFree b → a.compare? b = some o → (o = .eq ↔ (a == b) = true)) ∧
    (∀ a b c, FloatFree a → FloatFree b → FloatFree c → a.NoLater b → b.NoLater c →
      a.NoLater c ∧ (a.Before b ∨ b.Before c → a.Before c)) ∧
    (∀ limits m x items, Sortable limits m x items → items.all Value.isStr ∨ items.all Value.isInt →
      ∃ ordered : List Value, ordered.Perm items ∧ ordered.Pairwise Value.NoLater ∧
        SortsTo limits m x ordered) ∧
    (∀ limits m x items, Sortable limits m x items →
      ¬ items.all Value.isStr → ¬ items.all Value.isNumber → RefusesToSort limits m x) := by
  refine ⟨fun a b => Value.compare?_swap a b, fun a b o ha hb => Value.compare?_eq_iff a b ha hb, ?_,
    fun limits m x items h hall => ?_, fun limits m x items h hstr hnumber => ?_⟩
  · rintro a b c ha hb hc ⟨o, hab, ho⟩ ⟨p, hbc, hp⟩
    have hac := Value.compare?_then a b c ha hb hc hab ho hbc hp
    refine ⟨⟨_, hac, ?_⟩, fun hup => ?_⟩
    · cases o <;> simp_all [Ordering.then]
    · unfold Value.Before at hup ⊢
      rw [hab, hbc] at hup
      rw [hac]
      cases o <;> simp_all [Ordering.then]
  · obtain ⟨ordered, hsort, hperm, hpairs⟩ := sortValues_of_all hall
    exact ⟨ordered, hperm, hpairs, h.sortsTo hsort hperm⟩
  · exact h.refuses (sortValues_of_not_all hstr hnumber)

/-- A machine with a list of two letters, and one of a letter and a number. -/
def twoLists : Machine :=
  ((Machine.start (.ofSeed 0)).bind "xs" (.list [.str "b", .str "a"])).bind "ys"
    (.list [.str "b", .int 1])

/-- Lists that nothing in them can be compared with, but that differ before it, or in length. -/
theorem compare_equality_and_sorting_agree_lists :
    let a := Value.list [.int 1, .list [.bool true]]
    let b := Value.list [.int 1, .list [.bool true], .absent]
    let c := Value.list [.int 2, .library .re]
    b.compare? a = (a.compare? b).map Ordering.swap ∧ (Ordering.lt = .eq ↔ (a == b) = true) ∧
      a.Before c ∧
      (∃ ordered, ordered.Perm [.str "b", .str "a"] ∧ ordered.Pairwise Value.NoLater ∧
        SortsTo ⟨100, 100⟩ twoLists "xs" ordered) ∧
      RefusesToSort ⟨100, 100⟩ twoLists "ys" := by
  intro a b c
  have ha : FloatFree a := .list fun v hv => by
    have hv : v = .int 1 ∨ v = .list [.bool true] := by simpa using hv
    rcases hv with rfl | rfl
    · exact .int 1
    · exact .list (by simpa using .bool true)
  have hb : FloatFree b := .list fun v hv => by
    have hv : v = .int 1 ∨ v = .list [.bool true] ∨ v = .absent := by simpa using hv
    rcases hv with rfl | rfl | rfl
    · exact .int 1
    · exact .list (by simpa using .bool true)
    · exact .absent
  have hc : FloatFree c := .list fun v hv => by
    have hv : v = .int 2 ∨ v = .library .re := by simpa using hv
    rcases hv with rfl | rfl
    · exact .int 2
    · exact .library .re
  have hab : a.compare? b = some .lt := by cbv
  have hbc : b.compare? c = some .lt := by cbv
  have hfree : ∀ f ∈ ["sorted", "min", "max"], twoLists.get? f = none := by
    intro f hf
    have hf : f = "sorted" ∨ f = "min" ∨ f = "max" := by simpa using hf
    rcases hf with rfl | rfl | rfl <;> cbv
  obtain ⟨hswap, heq, hthen, hsorts, hrefuses⟩ := compare_equality_and_sorting_agree
  refine ⟨hswap a b ha hb, heq a b .lt ha hb hab, ?_, ?_, ?_⟩
  · exact (hthen a b c ha hb hc ⟨.lt, hab, by decide⟩ ⟨.lt, hbc, by decide⟩).2 (.inl hab)
  · exact hsorts _ _ _ _ ⟨by cbv, by decide, hfree⟩ (.inl rfl)
  · exact hrefuses _ _ _ [.str "b", .int 1] ⟨by cbv, by decide, hfree⟩ (by decide) (by decide)

end Main

end PromptWeave.Script
