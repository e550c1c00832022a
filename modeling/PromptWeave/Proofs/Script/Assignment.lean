import PromptWeave.Proofs.Script.Effects
import PromptWeave.Proofs.Script.Places
import PromptWeave.Proofs.Script.Sufficiency

/-!
# Assigning to items of lists

An assignment to an item of nested lists reads every list on the way to the item, changes copies of them
and binds the variable last. If the indexes are fixed, so that evaluating them changes nothing and gives
one value, the assignment either replaces the item and nothing else or changes nothing. It is refused
exactly if an index on the way is out of range or a value on the way is no list.
-/
namespace PromptWeave.Script

open PromptWeave (bind_eq_ok)
open PromptWeave.Script.Action

/-! ### Actions that change nothing -/

/-- Whether an expression leaves the bindings and the generator of a machine as they are, wherever its
evaluation stops, and has a value there. The steps and the output of the machine do not count. -/
structure FixedAt (m : Machine) (e : Expr) (v : Value) : Prop where
  idle : ∀ limits n, m.Agrees n → m.Agrees (e.after limits n)
  gives : ∃ limits m', Succeeds limits m e.eval v m'

variable {α β : Type} {m n m' : Machine} {limits : Limits}

/-- How an action may end that does nothing but give an outcome: with the outcome, on whatever line it
fails, or cut off. -/
inductive EndsAs (m : Machine) : Outcome α → Except Stop α × Machine → Prop where
  | ok {a n} : m.Agrees n → EndsAs m (.ok a) (.ok a, n)
  | error {cause line n} : m.Agrees n → EndsAs m (.error cause) (.error (.fault line cause), n)
  | cut {outcome most n} : m.Agrees n → EndsAs m outcome (.error (.stepLimit most), n)

theorem EndsAs.agrees {outcome : Outcome α} {result : Except Stop α × Machine}
    (h : EndsAs m outcome result) : m.Agrees result.2 := by
  cases h with
  | ok h => exact h
  | error h => exact h
  | cut h => exact h

/-- Whether an action does nothing but give an outcome on all machines that agree with one. -/
def Fixed (m : Machine) (x : Action α) (outcome : Outcome α) : Prop :=
  ∀ limits n, m.Agrees n → EndsAs m outcome (x limits n)

theorem fixed_pure (a : α) : Fixed m (pure a) (.ok a) := fun _ _ hagrees => .ok hagrees

theorem fixed_ofOutcome (x : Outcome α) : Fixed m (Host.ofOutcome x) x := by
  intro limits n hagrees
  cases x with
  | ok a => exact .ok hagrees
  | error cause => exact .error hagrees

theorem fixed_tick : Fixed m tick (.ok ()) := by
  intro limits n hagrees
  unfold tick
  dsimp only
  split
  · exact .cut hagrees.stepped
  · exact .ok hagrees.stepped

theorem fixed_bind {x : Action α} {f : α → Action β} {outcome : Outcome α} {g : α → Outcome β}
    (hx : Fixed m x outcome) (hf : ∀ a, outcome = .ok a → Fixed m (f a) (g a)) :
    Fixed m (x >>= f) (outcome >>= g) := by
  intro limits n hagrees
  have hfirst := hx limits n hagrees
  rw [bind_apply]
  generalize x limits n = result at hfirst
  cases hfirst with
  | ok hleft => exact hf _ rfl limits _ hleft
  | error hleft => exact .error hleft
  | cut hleft => exact .cut hleft

theorem fixed_lookUp (name : String) : Fixed m (lookUp name) (.ok (m.get? name)) :=
  fun _ n hagrees => by
    rw [hagrees.get? name]
    exact .ok (n := n) hagrees

theorem fixed_evaluating {e : Expr} {x : Action Value} {outcome : Outcome Value}
    (hx : Fixed m x outcome) : Fixed m (evaluating e x) outcome := by
  have h := fixed_bind fixed_tick fun _ _ => fixed_bind hx fun v _ =>
    fixed_bind (fixed_pure ()) fun _ _ => fixed_pure v
  cases outcome with
  | ok v => exact h
  | error cause => exact h

/-- The value of a variable, or why it has none. -/
def Machine.read (m : Machine) (name : String) : Outcome Value :=
  match m.get? name with
  | some v => .ok v
  | none =>
      if (Builtin.ofName? name).isSome then .error (.uncalledBuiltin name)
      else .error (.undefinedName name)

theorem Machine.read_eq_ok {name : String} {v : Value} :
    m.read name = .ok v ↔ m.get? name = some v := by
  unfold Machine.read
  split
  · simp [*]
  · split <;> simp [*]

theorem fixed_readVariable (name : String) : Fixed m (readVariable name) (m.read name) := by
  have h : Fixed m (readVariable name) (.ok (m.get? name) >>= fun _ => m.read name) := by
    refine fixed_bind (fixed_lookUp name) fun bound hbound => ?_
    cases hbound
    unfold Machine.read
    cases m.get? name with
    | some v => exact fixed_pure v
    | none =>
        dsimp only
        split
        · exact fixed_ofOutcome (.error _)
        · exact fixed_ofOutcome (.error _)
  exact h

/-- An expression is fixed if it yields its value. -/
theorem fixedAt_iff {e : Expr} {v : Value} : FixedAt m e v ↔ Fixed m e.eval (.ok v) := by
  constructor
  · rintro ⟨hidle, limits₀, m', hgives⟩ limits n hagrees
    have hleft : m.Agrees (e.after limits n) := hidle limits n hagrees
    have hends := together_eval limits₀ limits e m n hagrees
    unfold Expr.after at hleft
    rw [hgives] at hends
    generalize (e.eval : Action Value) limits n = result at hends hleft
    cases hends with
    | ok hends =>
        cases hends.1
        exact .ok hleft
    | cutRight => exact .cut hleft
  · intro h
    refine ⟨fun limits n hagrees => (h limits n hagrees).agrees, ?_⟩
    obtain ⟨enough, result, hcut, hrun⟩ := finishes_eval e 0 m
    have hend := h ⟨enough, 0⟩ m (.refl m)
    have hresult := hrun enough (Nat.le_refl _)
    rw [hresult] at hend
    cases hend with
    | ok => exact ⟨_, _, hresult⟩
    | cut => exact (hcut (isCut_stepLimit _)).elim

theorem fixedAt_int (n : Int64) : FixedAt m (.int n) (.int n) := by
  rw [fixedAt_iff, Expr.eval]
  exact fixed_evaluating (fixed_pure _)

theorem fixedAt_var {name : String} {v : Value} (h : m.get? name = some v) :
    FixedAt m (.var name) v := by
  rw [fixedAt_iff, Expr.eval, ← Machine.read_eq_ok.2 h]
  exact fixed_evaluating (fixed_readVariable name)

theorem fixedAt_neg {e : Expr} {v w : Value} (he : FixedAt m e v) (h : negate v = .ok w) :
    FixedAt m (.neg e) w := by
  rw [fixedAt_iff, Expr.eval, ← h]
  exact fixed_evaluating (fixed_bind (fixedAt_iff.1 he) fun _ _ => fixed_ofOutcome (negate _))

/-! ### Places with fixed indexes -/

variable {p target index : Expr} {x : String} {path : List Value} {v : Value}

/-- Reading a place with fixed indexes is reading along a path. -/
theorem fixed_place (hp : p.root? = some x) (hfixed : List.Forall₂ (FixedAt m) p.readOrder path) :
    Fixed m p.eval (m.read x >>= (itemAlong · path)) := by
  fun_induction Expr.root? p generalizing path with
  | case1 =>
      cases hp
      cases hfixed
      rw [Expr.eval, show (m.read x >>= (itemAlong · [])) = m.read x from bind_pure _]
      exact fixed_evaluating (fixed_readVariable x)
  | case2 target index ih =>
      obtain ⟨init, i, rfl, hinit, hi⟩ := forall₂_append_singleton hfixed
      have hitem (container : Value) : Fixed m
          (index.eval >>= fun i => Host.ofOutcome (itemAt container i)) (itemAt container i) :=
        fixed_bind (fixedAt_iff.1 hi) fun _ _ => fixed_ofOutcome (itemAt container _)
      rw [Expr.eval]
      simp only [itemAlong_append_singleton, ← bind_assoc]
      exact fixed_evaluating (fixed_bind (ih hp hinit) fun container _ => hitem container)
  | case3 => cases hp

/-- What a variable is bound to. There is nothing along a path of a variable that is not bound. -/
def Machine.root (m : Machine) (x : String) : Value := (m.get? x).getD .absent

/-- A value is written at the end of a path by reading the last list and writing it back changed. -/
theorem withItemAlong_root_eq_ok {init : List Value} {i u : Value} :
    withItemAlong (m.root x) (init ++ [i]) v = .ok u ↔ ∃ last changed,
      (m.read x >>= (itemAlong · init)) = .ok last ∧ withItem last i v = .ok changed ∧
        withItemAlong (m.root x) init changed = .ok u := by
  rw [withItemAlong_append_singleton_eq_ok]
  simp only [bind_eq_ok, Machine.read_eq_ok]
  cases hroot : m.get? x with
  | some root => simp [Machine.root, hroot]
  | none =>
      have hnone : m.root x = .absent := by rw [Machine.root, hroot, Option.getD_none]
      rw [hnone]
      constructor
      · intro hwritten
        have hreaches := withItemAlong_isOk_iff.1 ⟨u, withItemAlong_append_singleton_eq_ok.2 hwritten⟩
        obtain ⟨_, ⟨⟩⟩ := hreaches.isList (by simp)
      · rintro ⟨_, _, ⟨_, ⟨⟩, -⟩, -⟩

/-- How writing at the end of a path of a variable ends: with another binding of the variable and
nothing else changed, or with nothing changed because the steps ran out or the path leads nowhere. -/
inductive WritesAlong (m : Machine) (x : String) (path : List Value) (v : Value) :
    Except Stop Unit × Machine → Prop where
  | done {changed m'} : withItemAlong (m.root x) path v = .ok changed →
      (m.bind x changed).Agrees m' → WritesAlong m x path v (.ok (), m')
  | cut {most m'} : m.Agrees m' → WritesAlong m x path v (.error (.stepLimit most), m')
  | refused {line cause m'} : (∀ changed, withItemAlong (m.root x) path v ≠ .ok changed) →
      m.Agrees m' → WritesAlong m x path v (.error (.fault line cause), m')

theorem WritesAlong.bind {y : Action α} {outcome : Outcome α} {f : α → Action Unit}
    (hy : Fixed m y outcome) (hagrees : m.Agrees n)
    (hok : ∀ a, outcome = .ok a → ∀ n, m.Agrees n → WritesAlong m x path v (f a limits n))
    (herror : ∀ u, withItemAlong (m.root x) path v = .ok u → ∃ a, outcome = .ok a) :
    WritesAlong m x path v ((y >>= f) limits n) := by
  have hfirst := hy limits n hagrees
  rw [bind_apply]
  generalize y limits n = result at hfirst
  cases hfirst with
  | ok hleft => exact hok _ rfl _ hleft
  | error hleft =>
      refine .refused (fun changed hchanged => ?_) hleft
      obtain ⟨_, ⟨⟩⟩ := herror changed hchanged
  | cut hleft => exact .cut hleft

/-- Writing a list back that was changed at the end of a path. -/
theorem WritesAlong.deeper {init : List Value} {i last changed : Value}
    {outcome : Except Stop Unit × Machine} (h : WritesAlong m x init changed outcome)
    (hlast : (m.read x >>= (itemAlong · init)) = .ok last)
    (hchanged : withItem last i v = .ok changed) : WritesAlong m x (init ++ [i]) v outcome := by
  cases h with
  | done hwritten hagrees =>
      exact .done (withItemAlong_root_eq_ok.2 ⟨last, changed, hlast, hchanged, hwritten⟩) hagrees
  | cut hagrees => exact .cut hagrees
  | refused hnot hagrees =>
      refine .refused (fun u hu => ?_) hagrees
      obtain ⟨last', changed', hlast', hchanged', hwritten⟩ := withItemAlong_root_eq_ok.1 hu
      cases hlast.symm.trans hlast'
      cases hchanged.symm.trans hchanged'
      exact hnot u hwritten

/-- Writing to a place with fixed indexes is writing along a path. -/
theorem writesAlong_of_store (hp : p.root? = some x)
    (hfixed : List.Forall₂ (FixedAt m) p.readOrder path) (hagrees : m.Agrees n) :
    WritesAlong m x path v ((p.store v : Action Unit) limits n) := by
  fun_induction Expr.root? p generalizing path v n with
  | case1 =>
      cases hp
      cases hfixed
      exact .done (by rfl) (hagrees.bind _ v)
  | case2 target index ih =>
      obtain ⟨init, i, rfl, hinit, hi⟩ := forall₂_append_singleton hfixed
      rw [Expr.store]
      refine .bind (fixedAt_iff.1 hi) hagrees (fun _ hvalue n hagrees => ?_) fun _ _ => ⟨i, rfl⟩
      cases hvalue
      refine .bind (fixed_place hp hinit) hagrees (fun last hlast n hagrees => ?_) fun u hu => ?_
      · refine .bind (fixed_ofOutcome _) hagrees (fun changed hchanged n hagrees => ?_) fun u hu => ?_
        · exact (ih hp hinit hagrees).deeper hlast hchanged
        · obtain ⟨last', changed, hlast', hchanged, -⟩ := withItemAlong_root_eq_ok.1 hu
          cases hlast.symm.trans hlast'
          exact ⟨changed, hchanged⟩
      · obtain ⟨last, _, hlast, -, -⟩ := withItemAlong_root_eq_ok.1 hu
        exact ⟨last, hlast⟩
  | case3 => cases hp

/-! ### Assignments -/

theorem Machine.root_of_isList (h : ∃ items, m.root x = .list items) : m.get? x = some (m.root x) := by
  obtain ⟨items, hitems⟩ := h
  cases hroot : m.get? x with
  | some v => rw [Machine.root, hroot, Option.getD_some]
  | none =>
      rw [Machine.root, hroot] at hitems
      cases hitems

/-- What replacing an item of nested lists comes to: the item is there, items to which other paths lead
are the same as before, and the lists on the way to the item are as long as before. -/
structure Replaces (root : Value) (path : List Value) (v changed : Value) : Prop where
  there : itemAlong changed path = .ok v
  elsewhere : ∀ other, Apart root path other → itemAlong changed other = itemAlong root other
  lengths : ∀ before i rest items, path = before ++ i :: rest →
    itemAlong root before = .ok (.list items) →
    ∃ after, itemAlong changed before = .ok (.list after) ∧ after.length = items.length

theorem replaces_of_withItemAlong {root changed : Value} (h : withItemAlong root path v = .ok changed) :
    Replaces root path v changed where
  there := itemAlong_of_withItemAlong h
  elsewhere _ hapart := itemAlong_of_apart hapart h
  lengths _ _ _ _ hpath := length_of_withItemAlong (hpath ▸ h)

/-- Writing that succeeds replaces an item of the list that the variable is bound to. -/
theorem WritesAlong.exists_replaces (h : WritesAlong m x path v (.ok (), m')) (hpath : path ≠ []) :
    ∃ root changed, m.get? x = some root ∧ Reaches root path ∧ (m.bind x changed).Agrees m' ∧
      Replaces root path v changed := by
  cases h with
  | done hwritten hagrees =>
      have hreaches := withItemAlong_isOk_iff.1 ⟨_, hwritten⟩
      exact ⟨_, _, m.root_of_isList (hreaches.isList hpath), hreaches, hagrees,
        replaces_of_withItemAlong hwritten⟩

/-- Writing that ends by itself succeeds exactly if the indexes lead from list to list. -/
theorem WritesAlong.isOk_iff {outcome : Except Stop Unit × Machine}
    (h : WritesAlong m x path v outcome) (hcut : ¬ IsCut outcome.1) (hpath : path ≠ []) :
    (∃ m', outcome = (.ok (), m')) ↔ ∃ root, m.get? x = some root ∧ Reaches root path := by
  cases h with
  | done hwritten hagrees =>
      have hreaches := withItemAlong_isOk_iff.1 ⟨_, hwritten⟩
      exact ⟨fun _ => ⟨_, m.root_of_isList (hreaches.isList hpath), hreaches⟩, fun _ => ⟨_, rfl⟩⟩
  | cut => exact (hcut (isCut_stepLimit _)).elim
  | refused hnot =>
      refine ⟨nofun, ?_⟩
      rintro ⟨root, hroot, hreaches⟩
      obtain ⟨changed, hwritten⟩ := withItemAlong_isOk_iff.2 hreaches
      exact (hnot changed (by rwa [Machine.root, hroot])).elim

/-- Writing that does not succeed changes nothing. -/
theorem WritesAlong.agrees {outcome : Except Stop Unit × Machine}
    (h : WritesAlong m x path v outcome) (hnot : ∀ m', outcome ≠ (.ok (), m')) :
    m.Agrees outcome.2 := by
  cases h with
  | done => exact (hnot _ rfl).elim
  | cut hagrees => exact hagrees
  | refused _ hagrees => exact hagrees

/-- An assignment to an item whose indexes are fixed replaces the item of the list that the variable is
bound to, and nothing else, or it changes nothing at all. With enough steps it succeeds exactly if the
indexes lead from list to list. It begins after the other value is evaluated. -/
theorem assignment_replaces_item_or_changes_nothing (hx : target.root? = some x)
    (hfixed : List.Forall₂ (FixedAt m) (Expr.index target index).readOrder path) (v : Value) :
    let p := Expr.index target index
    (∀ limits m', Succeeds limits m (p.store v) () m' → ∃ root changed, m.get? x = some root ∧
      Reaches root path ∧ (m.bind x changed).Agrees m' ∧ Replaces root path v changed) ∧
    (∀ bytes, ∃ enough, ∀ steps, enough ≤ steps →
      ((∃ m', Succeeds ⟨steps, bytes⟩ m (p.store v) () m') ↔
        ∃ root, m.get? x = some root ∧ Reaches root path)) ∧
    (∀ limits, (∀ m', ¬ Succeeds limits m (p.store v) () m') →
      m.Agrees ((p.store v : Action Unit) limits m).2) ∧
    ∀ value limits m₀, Succeeds limits m₀ value.eval v m →
      ((Act.assign p value).run : Action Flow) limits m₀ =
        (p.store v >>= fun _ => pure Flow.next : Action Flow) limits m := by
  intro p
  have hp : p.root? = some x := hx
  have hends (limits : Limits) : WritesAlong m x path v ((p.store v : Action Unit) limits m) :=
    writesAlong_of_store hp hfixed (.refl m)
  have hpath : path ≠ [] := by
    obtain ⟨init, i, rfl, -, -⟩ := forall₂_append_singleton hfixed
    simp
  refine ⟨fun limits m' h => ?_, fun bytes => ?_, fun limits hnot => (hends limits).agrees hnot,
    fun value limits m₀ h => ?_⟩
  · have hend := hends limits
    rw [h] at hend
    exact hend.exists_replaces hpath
  · obtain ⟨enough, outcome, hcut, hrun⟩ := finishes_store (isPlace_of_root? hp) v bytes m
    refine ⟨enough, fun steps hsteps => ?_⟩
    have hend := hends ⟨steps, bytes⟩
    unfold Succeeds
    rw [hrun steps hsteps] at hend ⊢
    exact hend.isOk_iff hcut hpath
  · rw [Act.run]
    exact bind_ok _ h

/-- A machine with two pairs of numbers and an index. -/
def paired : Machine :=
  ((Machine.start (.ofSeed 0)).bind "i" (.int 0)).bind "xs"
    (.list [.list [.int 1, .int 2], .list [.int 3, .int 4]])

/-- An item of the last pair. -/
def itemOfLast : Expr := .index (.index (.var "xs") (.neg (.int 1))) (.var "i")

theorem assignment_replaces_item_or_changes_nothing_pairs :
    parse "xs[-1][i] = 9" = .ok [.mk 1 (.assign itemOfLast (.int 9))] ∧
      (Expr.index (.var "xs") (.neg (.int 1))).root? = some "xs" ∧
      List.Forall₂ (FixedAt paired) itemOfLast.readOrder [.int (-1), .int 0] ∧
      ∃ m' root changed, Succeeds ⟨100, 100⟩ paired (itemOfLast.store (.int 9)) () m' ∧
        m'.get? "xs" = some (.list [.list [.int 1, .int 2], .list [.int 9, .int 4]]) ∧
        paired.get? "xs" = some root ∧ (paired.bind "xs" changed).Agrees m' ∧
        Replaces root [.int (-1), .int 0] (.int 9) changed := by
  have hlast : FixedAt paired (.neg (.int 1)) (.int (-1)) := fixedAt_neg (fixedAt_int 1) (by cbv)
  have hitem : FixedAt paired (.var "i") (.int 0) := fixedAt_var (by cbv)
  have hfixed : List.Forall₂ (FixedAt paired) itemOfLast.readOrder [.int (-1), .int 0] :=
    .cons hlast (.cons hitem .nil)
  have hstore : Succeeds ⟨100, 100⟩ paired (itemOfLast.store (.int 9)) () _ :=
    succeeds_of_fst _ (by cbv)
  obtain ⟨hreplaces, -⟩ := assignment_replaces_item_or_changes_nothing (x := "xs") rfl hfixed (.int 9)
  obtain ⟨root, changed, hroot, -, hagrees, hchanged⟩ := hreplaces _ _ hstore
  exact ⟨by cbv, rfl, hfixed, _, root, changed, hstore, by cbv, hroot, hagrees, hchanged⟩

end PromptWeave.Script
