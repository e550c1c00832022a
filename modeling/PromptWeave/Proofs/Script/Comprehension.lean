import PromptWeave.Proofs.Script.Flow
import PromptWeave.Proofs.Script.Mutation
import PromptWeave.Proofs.Script.SideBySide
import PromptWeave.Proofs.Script.Sufficiency
import PromptWeave.Proofs.Script.Within

/-!
# Comprehensions and loops

A comprehension keeps a list of its own, with a counter of bytes and a counter of items. The loop that
it stands for appends to a variable, and every call measures the list anew. Both come to the same list,
do the same besides, and refuse the same item if the list becomes too large.
-/
namespace PromptWeave.Script

open PromptWeave (bind_eq_ok)
open PromptWeave.Script.Action

/-! ### Machines that agree on some names -/

/-- Whether two machines have the same bindings of known names, the same generator and output. -/
structure Machine.AgreesOn (Known : String → Prop) (m n : Machine) : Prop where
  get? : ∀ name, Known name → m.get? name = n.get? name
  generator : m.generator = n.generator
  output : m.output = n.output
  truncated : m.truncated = n.truncated

namespace Machine.AgreesOn

variable {Known Fewer : String → Prop} {m n : Machine}

theorem refl (Known : String → Prop) (m : Machine) : m.AgreesOn Known m :=
  ⟨fun _ _ => rfl, rfl, rfl, rfl⟩

theorem mono (h : m.AgreesOn Known n) (hfewer : ∀ name, Fewer name → Known name) : m.AgreesOn Fewer n :=
  ⟨fun name hname => h.get? name (hfewer name hname), h.generator, h.output, h.truncated⟩

theorem symm (h : m.AgreesOn Known n) : n.AgreesOn Known m :=
  ⟨fun name hname => (h.get? name hname).symm, h.generator.symm, h.output.symm, h.truncated.symm⟩

/-- Neither steps nor lines count. -/
theorem moved (h : m.AgreesOn Known n) (steps line : Nat) :
    m.AgreesOn Known { n with steps, line } :=
  ⟨h.get?, h.generator, h.output, h.truncated⟩

/-- Machines with another binding of one name agree on that name as well. -/
theorem bind {name : String} (h : m.AgreesOn Known n) (v : Value)
    (hmore : ∀ other, Fewer other → other ≠ name → Known other) :
    (m.bind name v).AgreesOn Fewer (n.bind name v) := by
  refine ⟨fun other hother => ?_, h.generator, h.output, h.truncated⟩
  rw [Machine.get?_bind, Machine.get?_bind]
  split
  · rfl
  · rename_i hne
    exact h.get? other (hmore other hother fun heq => hne heq.symm)

theorem unbind {name : String} (h : m.AgreesOn Known n) :
    (m.unbind name).AgreesOn Known (n.unbind name) := by
  refine ⟨fun other hother => ?_, h.generator, h.output, h.truncated⟩
  rw [Machine.get?_unbind, Machine.get?_unbind, h.get? other hother]

/-- What becomes of a name that does not count. -/
theorem restore {name : String} (h : m.AgreesOn Known n) (hname : ¬ Known name) (saved : Option Value) :
    (m.restore name saved).AgreesOn Known n := by
  have hsame : ∀ other, Known other → (m.restore name saved).get? other = n.get? other := by
    intro other hother
    have hne : name ≠ other := fun heq => hname (heq ▸ hother)
    rw [Machine.get?_restore, if_neg hne, h.get? other hother]
  cases saved with
  | some v => exact ⟨hsame, h.generator, h.output, h.truncated⟩
  | none => exact ⟨hsame, h.generator, h.output, h.truncated⟩

theorem write (h : m.AgreesOn Known n) (maxOutputBytes : Nat) (line : String) :
    (m.write maxOutputBytes line).AgreesOn Known (n.write maxOutputBytes line) := by
  unfold Machine.write
  rw [h.truncated, h.output]
  split
  · exact h
  · dsimp only
    split
    · exact ⟨h.get?, h.generator, rfl, rfl⟩
    · exact ⟨h.get?, h.generator, rfl, rfl⟩

end Machine.AgreesOn

variable {limits : Limits} {Known : String → Prop}

theorem linked_agreesOn (limits : Limits) (Known : String → Prop) :
    Linked limits limits Known (Machine.AgreesOn Known) where
  get? h hname := h.get? _ hname
  generator h := h.generator
  steps h := ⟨h.get?, h.generator, h.output, h.truncated⟩
  bind h _ := h.bind _ fun _ hother _ => hother
  unbind h _ := h.unbind
  write h := h.write _ _
  drawn h := ⟨h.get?, rfl, h.output, h.truncated⟩

/-- A name that is not known keeps its binding. -/
theorem linked_holding {acc : String} (hacc : ¬ Known acc) (found : Option Value) :
    Linked limits limits Known fun m n => m.AgreesOn Known n ∧ n.get? acc = found where
  get? h := (linked_agreesOn limits Known).get? h.1
  generator h := h.1.generator
  steps h := ⟨(linked_agreesOn limits Known).steps h.1, h.2⟩
  bind {m n name v} h hname := by
    have hne : name ≠ acc := fun hsame => hacc (hsame ▸ hname)
    exact ⟨(linked_agreesOn limits Known).bind h.1 hname, by rw [Machine.get?_bind, if_neg hne, h.2]⟩
  unbind {m n name} h hname := by
    have hne : name ≠ acc := fun hsame => hacc (hsame ▸ hname)
    exact ⟨(linked_agreesOn limits Known).unbind h.1 hname,
      by rw [Machine.get?_unbind, if_neg hne, h.2]⟩
  write {m n line} h := ⟨h.1.write _ _, (leaves_writeLine line limits n).trans h.2⟩
  drawn h := ⟨(linked_agreesOn limits Known).drawn h.1, h.2⟩

/-! ### The two forms -/

/-- A statement under a condition, if there is one. -/
def guarded (line : Nat) (condition : Option Expr) (s : Stmt) : Stmt :=
  match condition with
  | none => s
  | some e => .mk line (.choose (.when e [s] .done))

/-- The call that appends the value of an expression to a list. -/
def appending (acc : String) (element : Expr) : Expr := .call (.attribute (.var acc) "append") [element]

/-- The list of the values of an expression, bound to a name. -/
def listed (line : Nat) (acc x : String) (element source : Expr) (condition : Option Expr) :
    List Stmt :=
  [.mk line (.assign (.var acc) (.comprehension element x source condition))]

/-- The loop that appends the values of an expression to a list, which is empty before. -/
def looped (first loop guard item : Nat) (acc x : String) (element source : Expr)
    (condition : Option Expr) : List Stmt :=
  [.mk first (.assign (.var acc) (.list [])),
    .mk loop (.forEach x source [guarded guard condition (.mk item (.eval (appending acc element)))])]

/-- What a comprehension checks before it keeps one more item. -/
def admits (items : List Value) (u : Value) : Outcome Unit := do
  checkBytes (Value.listSizeBytes items + u.sizeBytes)
  checkItems (items.length + 1)

/-- Whether a list has no room for one more item, neither in a comprehension nor in a call that
appends. -/
structure BothRefuse (items : List Value) (u : Value) (c c' : Fault) : Prop where
  comprehension : admits items u = .error c
  append : Mutator.append.apply items [u] = .error c'

/-- The one looks at the bytes first and the other at the number of items. -/
theorem admits_or_bothRefuse (items : List Value) (u : Value) :
    admits items u = .ok () ∧ Mutator.append.apply items [u] = .ok (.absent, items ++ [u]) ∨
      ∃ c c', BothRefuse items u c c' := by
  have happend : Mutator.append.apply items [u] = (do
      checkItems (items.length + 1)
      checkBytes (Value.listSizeBytes items + u.sizeBytes)
      return (.absent, items ++ [u])) := rfl
  -- Either check may fail first, so the two need not refuse for one reason.
  cases hbytes : checkBytes (Value.listSizeBytes items + u.sizeBytes) with
  | ok _ =>
      cases hitems : checkItems (items.length + 1) with
      | ok _ =>
          rw [admits, happend, hbytes, hitems]
          exact .inl ⟨rfl, rfl⟩
      | error c =>
          refine .inr ⟨c, c, ?_, ?_⟩
          · rw [admits, hbytes, hitems]
            rfl
          · rw [happend, hitems]
            rfl
  | error c =>
      have hadmits : admits items u = .error c := by
        rw [admits, hbytes]
        rfl
      cases hitems : checkItems (items.length + 1) with
      | ok _ =>
          refine .inr ⟨c, c, hadmits, ?_⟩
          rw [happend, hitems, hbytes]
          rfl
      | error c' =>
          refine .inr ⟨c, c', hadmits, ?_⟩
          rw [happend, hitems]
          rfl

theorem ofOutcome_bind {α β : Type} (x : Outcome α) (f : α → Outcome β) :
    (Host.ofOutcome (x >>= f) : Action β) = Host.ofOutcome x >>= fun a => Host.ofOutcome (f a) := by
  cases x with
  | ok a => rfl
  | error cause => rfl

/-- What a comprehension does with what it is given for an item: it keeps a value, if there is room. The
values are held back to front. -/
def keep (kept : List Value) (given : Option Value) : Action (List Value) :=
  match given with
  | none => pure kept
  | some u => Host.ofOutcome (admits kept.reverse u) >>= fun _ => pure (u :: kept)

/-- The counters of a comprehension are those of the list that it has kept. -/
theorem collect_cons (round : Value → Action (Option Value)) (kept : List Value) (w : Value)
    (rest : List Value) :
    Host.collect round (Value.listSizeBytes kept) kept.length kept (w :: rest) =
      (round w >>= keep kept) >>= fun kept =>
        Host.collect round (Value.listSizeBytes kept) kept.length kept rest := by
  rw [Host.collect, bind_bind]
  congr 1
  funext given
  cases given with
  | none => rfl
  | some u =>
      have hbytes : Value.listSizeBytes kept.reverse = Value.listSizeBytes kept :=
        Value.listSizeBytes_perm kept.reverse_perm
      rw [keep, bind_bind, admits, ofOutcome_bind, bind_bind, hbytes, List.length_reverse]
      simp only [bind_of_pure, Value.listSizeBytes_cons, List.length_cons, Nat.add_comm u.sizeBytes]

/-- What a comprehension does for an item. -/
def roundOf (x : String) (element : Expr) (condition : Option Expr) (w : Value) :
    Action (Option Value) := do
  bindName x w
  if ← holdsFor condition then return some (← element.eval) else return none

theorem roundOf_bind_keep (x : String) (element : Expr) (condition : Option Expr) (kept : List Value)
    (w : Value) : roundOf x element condition w >>= keep kept =
      bindName x w >>= fun _ => holdsFor condition >>= fun holds =>
        if holds then element.eval >>= fun u => keep kept (some u) else pure kept := by
  simp only [roundOf, bind_bind]
  congr 1
  funext _
  congr 1
  funext holds
  cases holds with
  | true => exact bind_bind _ _ _
  | false => rfl

/-! ### Side by side -/

variable {acc x : String} {element source : Expr} {condition : Option Expr} {kept : List Value}
  {m n : Machine}

/-- Names other than that of the list and that of the items. -/
def Others (acc x : String) (name : String) : Prop := name ≠ acc ∧ name ≠ x

/-- How a comprehension that has kept items stands to the loop that has appended them. -/
structure Gathered (acc x : String) (items : List Value) (m n : Machine) : Prop where
  agrees : m.AgreesOn (Others acc x) n
  holds : n.get? acc = some (.list items)

/-- How the two fail: with the same cause, or because the same list has no room for the same item. -/
structure FailAlike (acc x : String) (c c' : Fault) (m n : Machine) : Prop where
  agrees : m.AgreesOn (Others acc x) n
  cause : c = c' ∨ ∃ items u, n.get? acc = some (.list items) ∧ BothRefuse items u c c'

theorem evalAll_singleton (e : Expr) : evalAll [e] = (e.eval >>= fun v => pure [v] : Action _) := by
  rw [evalAll, evalAll]
  rfl

theorem runAll_singleton (s : Stmt) : runAll [s] = (s.run : Action Flow) := by
  funext limits m
  rw [runAll, bind_apply]
  rcases (s.run : Action Flow) limits m with ⟨_ | flow, m'⟩
  · rfl
  · cases flow with
    | next =>
        rw [runAll]
        rfl
    | _ => rfl

/-- Evaluations of an expression in which the list does not occur. -/
theorem abreast_eval {e : Expr} (he : acc ∉ e.names) (hagrees : m.AgreesOn (· ≠ acc) n) :
    Abreast (fun v w m n' => v = w ∧ m.AgreesOn (· ≠ acc) n' ∧ n'.get? acc = n.get? acc)
      (FailAlike acc x) ((e.eval : Action Value) limits m) ((e.eval : Action Value) limits n) := by
  have hlinked : Linked limits limits (· ≠ acc) fun m n' => m.AgreesOn (· ≠ acc) n' ∧
      n'.get? acc = n.get? acc := linked_holding (fun h => h rfl) (n.get? acc)
  have hnames : Grants (· ≠ acc) e.names := fun name hname hsame => he (hsame ▸ hname)
  refine (hlinked.correspondence.eval e hnames m n ⟨hagrees, rfl⟩).imp (fun _ _ _ _ h => h) ?_
  rintro c c' m n ⟨rfl, hagrees, -⟩
  exact ⟨hagrees.mono fun _ hname => hname.1, .inl rfl⟩

/-- The call appends what the comprehension keeps. -/
theorem abreast_appending (helement : acc ∉ element.names) (hagrees : m.AgreesOn (· ≠ acc) n)
    (hlist : n.get? acc = some (.list kept.reverse)) :
    Abreast (fun kept _ m n => Gathered acc x kept.reverse m n) (FailAlike acc x)
      ((element.eval >>= fun u => keep kept (some u)) limits m)
      (((appending acc element).eval : Action Value) limits n) := by
  rw [appending, Expr.eval, evaluating]
  refine .arriveRight arrives_tick (.thenRight ?_ fun _ _ _ _ h => .ok h)
  refine .arriveRight (arrives_var hlist) ?_
  rw [evalAll_singleton, bind_bind]
  refine .bind (abreast_eval helement (hagrees.moved _ _)) ?_
  rintro u _ m n ⟨rfl, hagrees, hkept⟩
  have hsome : mutation? (.list kept.reverse) "append" = some (.append, kept.reverse) := rfl
  rw [bind_of_pure, hsome]
  obtain ⟨hadmits, happend⟩ | ⟨c, c', hrefuse⟩ := admits_or_bothRefuse kept.reverse u
  · rw [keep, hadmits]
    dsimp only
    simp only [happend, Expr.isPlace, if_true, Expr.store]
    refine .ok (m := m) (n := n.bind acc (.list (kept.reverse ++ [u]))) ⟨?_, ?_⟩
    · have hothers : n.AgreesOn (Others acc x) m := hagrees.symm.mono fun _ hname => hname.1
      exact (hothers.restore (fun hname => hname.1 rfl) (some _)).symm
    · rw [Machine.get?_bind, if_pos rfl, List.reverse_cons]
  · rw [keep, hrefuse.comprehension]
    dsimp only
    rw [hrefuse.append]
    refine .fault ⟨hagrees.mono fun _ hname => hname.1, .inr ⟨kept.reverse, u, ?_, hrefuse⟩⟩
    exact hkept.trans hlist

theorem arrives_enterLine (line : Nat) : Arrives limits n (Host.enterLine line) () { n with line } :=
  .inr rfl

/-- What a loop does for an item, apart from binding it. -/
theorem abreast_guarded (helement : acc ∉ element.names) (hcondition : acc ∉ namesOfOptional condition)
    (guard item : Nat) (hagrees : m.AgreesOn (· ≠ acc) n)
    (hlist : n.get? acc = some (.list kept.reverse)) :
    Abreast (fun kept flow m n => flow = .next ∧ Gathered acc x kept.reverse m n) (FailAlike acc x)
      ((holdsFor condition >>= fun holds =>
        if holds then element.eval >>= fun u => keep kept (some u) else pure kept) limits m)
      (((guarded guard condition (.mk item (.eval (appending acc element)))).run : Action Flow)
        limits n) := by
  have hstmt {m n : Machine} (hagrees : m.AgreesOn (· ≠ acc) n)
      (hlist : n.get? acc = some (.list kept.reverse)) :
      Abreast (fun kept flow m n => flow = .next ∧ Gathered acc x kept.reverse m n) (FailAlike acc x)
        ((element.eval >>= fun u => keep kept (some u)) limits m)
        (((Stmt.mk item (.eval (appending acc element))).run : Action Flow) limits n) := by
    rw [Stmt.run, Act.run]
    refine .arriveRight (arrives_enterLine item) (.arriveRight arrives_tick ?_)
    refine .thenRight (abreast_appending helement (hagrees.moved _ _) hlist) ?_
    exact fun _ _ _ _ h => .ok ⟨rfl, h⟩
  -- Without a condition the loop has no choice around the statement.
  cases condition with
  | none => exact hstmt hagrees hlist
  | some e =>
      rw [guarded, Stmt.run, Act.run, Arms.run, holdsFor, bind_bind]
      refine .arriveRight (arrives_enterLine guard) (.arriveRight arrives_tick ?_)
      refine .bind (abreast_eval hcondition (hagrees.moved _ _)) ?_
      rintro v _ m n ⟨rfl, hagrees, hkept⟩
      rw [bind_of_pure, runAll_singleton]
      split
      · exact hstmt hagrees (hkept.trans hlist)
      · rw [Arms.run]
        exact .ok ⟨rfl, hagrees.mono fun _ hname => hname.1, hkept.trans hlist⟩

/-- What a loop does for an item. -/
theorem abreast_round (helement : acc ∉ element.names) (hcondition : acc ∉ namesOfOptional condition)
    (hne : x ≠ acc) (guard item : Nat) (w : Value) (h : Gathered acc x kept.reverse m n) :
    Abreast (fun kept flow m n => flow = .next ∧ Gathered acc x kept.reverse m n) (FailAlike acc x)
      ((roundOf x element condition w >>= keep kept) limits m)
      ((do
        tick
        bindName x w
        runAll [guarded guard condition (.mk item (.eval (appending acc element)))] : Action Flow)
        limits n) := by
  rw [roundOf_bind_keep, runAll_singleton]
  refine .arriveRight arrives_tick ?_
  refine abreast_guarded helement hcondition guard item ?_ ?_
  · exact (h.agrees.moved _ _).bind w fun _ hacc hx => ⟨hacc, hx⟩
  · exact ((n.stepped.get?_bind x w acc).trans (if_neg hne)).trans h.holds

/-- Going over the items, the comprehension and the loop come to the same list. -/
theorem abreast_items (helement : acc ∉ element.names) (hcondition : acc ∉ namesOfOptional condition)
    (hne : x ≠ acc) (guard item : Nat) (items : List Value) (h : Gathered acc x kept.reverse m n) :
    Abreast (fun items _ m n => Gathered acc x items m n) (FailAlike acc x)
      (Host.collect (roundOf x element condition) (Value.listSizeBytes kept) kept.length kept items
        limits m)
      (Host.forEach (fun w => do
        tick
        bindName x w
        runAll [guarded guard condition (.mk item (.eval (appending acc element)))] :
          Value → Action Flow) items limits n) := by
  induction items generalizing kept m n with
  | nil => exact .ok h
  | cons w rest ih =>
      rw [collect_cons, Host.forEach]
      refine .bind (abreast_round helement hcondition hne guard item w h) ?_
      rintro kept _ m n ⟨rfl, h⟩
      exact ih h

/-- A comprehension and the loop that fills a list that is empty before. -/
theorem abreast_comprehension (hsource : acc ∉ source.names) (helement : acc ∉ element.names)
    (hcondition : acc ∉ namesOfOptional condition) (hne : x ≠ acc) (guard item : Nat)
    (hagrees : m.AgreesOn (· ≠ acc) n) (hlist : n.get? acc = some (.list [])) :
    Abreast (fun v flow m n => flow = .next ∧ ∃ items, v = .list items ∧ Gathered acc x items m n)
      (FailAlike acc x)
      (((Expr.comprehension element x source condition).eval : Action Value) limits m)
      (((Act.forEach x source
        [guarded guard condition (.mk item (.eval (appending acc element)))]).run : Action Flow)
        limits n) := by
  rw [Expr.eval, evaluating, Act.run]
  refine .arriveLeft arrives_tick (.thenLeft ?_ fun _ _ _ _ h => .ok h)
  refine .bind (abreast_eval hsource (hagrees.symm.moved _ _).symm) ?_
  rintro v _ m n ⟨rfl, hagrees, hkept⟩
  have hothers : m.AgreesOn (Others acc x) n := hagrees.mono fun _ hname => hname.1
  have hx : ¬ Others acc x x := fun hname => hname.2 rfl
  cases iterate v with
  | error cause => exact .fault ⟨hothers, .inl rfl⟩
  | ok items =>
      have hstart : Gathered acc x ([] : List Value).reverse (m.unbind x) n :=
        ⟨hothers.restore hx none, hkept.trans hlist⟩
      refine .arriveLeft (arrives_pure items) (.arriveRight (arrives_pure items) ?_)
      refine .bind
        (.shadowLeft (abreast_items helement hcondition hne guard item items hstart) ?_ ?_) ?_
      · exact fun _ _ _ _ saved h => ⟨h.agrees.restore hx saved, h.holds⟩
      · exact fun _ _ _ _ saved h => ⟨h.agrees.restore hx saved, h.cause⟩
      · exact fun items _ _ _ h => .ok ⟨rfl, items, rfl, h⟩

/-- Binding the empty list takes three steps. -/
theorem arrives_emptied (line : Nat) (acc : String) (n : Machine) :
    Arrives limits n ((Stmt.mk line (.assign (.var acc) (.list []))).run : Action Flow) .next
      (Machine.bind { n with line, steps := n.steps + 2 } acc (.list [])) := by
  have hvalue (n : Machine) : Arrives limits n ((Expr.list []).eval : Action Value) (.list [])
      n.stepped := by
    rw [Expr.eval, evalAll]
    exact arrives_evaluating (arrives_pure _)
  rw [Stmt.run, Act.run]
  refine arrives_bind (arrives_enterLine line) (arrives_bind arrives_tick (arrives_bind (hvalue _) ?_))
  rw [Expr.store]
  exact .inr rfl

/-- The two programs on one machine. -/
theorem abreast_listed_looped (hsource : acc ∉ source.names) (helement : acc ∉ element.names)
    (hcondition : acc ∉ namesOfOptional condition) (hne : x ≠ acc) (line first loop guard item : Nat)
    (m : Machine) :
    Abreast (fun _ _ m n => m.AgreesOn (· ≠ x) n) (FailAlike acc x)
      ((runAll (listed line acc x element source condition) : Action Flow) limits m)
      ((runAll (looped first loop guard item acc x element source condition) : Action Flow)
        limits m) := by
  rw [listed, looped, runAll_singleton, runAll]
  refine .arriveRight (arrives_emptied first acc m) ?_
  dsimp only
  rw [runAll_singleton, Stmt.run, Act.run, Stmt.run]
  refine .arriveLeft (arrives_enterLine line) (.arriveLeft arrives_tick ?_)
  refine .arriveRight (arrives_enterLine loop) (.arriveRight arrives_tick ?_)
  have hagrees : (m.bind acc (.list [])).AgreesOn (· ≠ acc) m :=
    (Machine.AgreesOn.refl _ m).restore (fun h => h rfl) (some (.list []))
  have hbound : (m.bind acc (.list [])).get? acc = some (.list []) := by
    rw [Machine.get?_bind, if_pos rfl]
  refine .thenLeft (abreast_comprehension hsource helement hcondition hne guard item
    ((hagrees.moved _ _).symm.moved _ _) hbound) ?_
  rintro _ _ m n ⟨rfl, items, rfl, h⟩
  rw [Expr.store]
  refine .ok (m := m.bind acc (.list items)) ⟨fun name hname => ?_, h.agrees.generator, h.agrees.output,
    h.agrees.truncated⟩
  rw [Machine.get?_bind]
  split
  · rename_i hacc
    rw [← hacc, h.holds]
  · rename_i hacc
    exact h.agrees.get? name ⟨fun heq => hacc heq.symm, hname⟩

theorem finishes_listed (line : Nat) (acc x : String) (element source : Expr)
    (condition : Option Expr) :
    Finishes (runAll (listed line acc x element source condition) : Action Flow) := by
  rw [listed, runAll_singleton]
  exact finishes_stmt (finishes_assign rfl _) line

theorem finishes_guarded (line : Nat) (condition : Option Expr) {s : Stmt}
    (hs : Finishes (s.run : Action Flow)) :
    Finishes ((guarded line condition s).run : Action Flow) := by
  cases condition with
  | none => exact hs
  | some e =>
      refine finishes_stmt ?_ line
      have hbody : Finishes (runAll [s] : Action Flow) := by rwa [runAll_singleton]
      have hrest : Finishes (Arms.done.run : Action Flow) := by
        rw [Arms.run]
        exact finishes_pure _
      rw [Act.run]
      exact finishes_when hbody hrest

theorem finishes_looped (first loop guard item : Nat) (acc x : String) (element source : Expr)
    (condition : Option Expr) :
    Finishes (runAll (looped first loop guard item acc x element source condition) : Action Flow) := by
  have hitem := finishes_stmt (finishes_eval_act (appending acc element)) item
  have hbody : Finishes (runAll [guarded guard condition
      (.mk item (.eval (appending acc element)))] : Action Flow) := by
    rw [runAll_singleton]
    exact finishes_guarded guard condition hitem
  refine finishes_runAll fun s hs => ?_
  rcases List.mem_pair.1 hs with rfl | rfl
  · exact finishes_stmt (finishes_assign rfl _) first
  · exact finishes_stmt (finishes_forEach_act hbody x source) loop

/-- A comprehension does what the loop does that it stands for. On every machine there is a number of
steps that is enough for both. Unless one of them is cut off for want of steps, the comprehension
succeeds exactly if the loop does, and then the list, the other variables except that of the items, the
output and the generator are the same. If they fail, they do with the same cause or because the same
list has no room for the same item. -/
theorem comprehension_does_what_loop_does (hsource : acc ∉ source.names)
    (helement : acc ∉ element.names) (hcondition : acc ∉ namesOfOptional condition) (hne : x ≠ acc)
    (line first loop guard item : Nat) (m : Machine) :
    let short : Action Flow := runAll (listed line acc x element source condition)
    let long : Action Flow := runAll (looped first loop guard item acc x element source condition)
    (∀ limits, ¬ IsCut (short limits m).1 → ¬ IsCut (long limits m).1 →
      ((∃ flow m', Succeeds limits m short flow m') ↔ ∃ flow n', Succeeds limits m long flow n') ∧
      (∀ flow m' flow' n', Succeeds limits m short flow m' → Succeeds limits m long flow' n' →
        m'.AgreesOn (· ≠ x) n') ∧
      ∀ at₁ c m' at₂ c' n', short limits m = (.error (.fault at₁ c), m') →
        long limits m = (.error (.fault at₂ c'), n') → FailAlike acc x c c' m' n') ∧
    ∀ bytes, ∃ enough, ∀ steps, enough ≤ steps →
      ¬ IsCut (short ⟨steps, bytes⟩ m).1 ∧ ¬ IsCut (long ⟨steps, bytes⟩ m).1 := by
  intro short long
  constructor
  · intro limits hshort hlong
    exact (abreast_listed_looped hsource helement hcondition hne line first loop guard item m).ends
      hshort hlong
  · intro bytes
    obtain ⟨enough, outcome, hcut, hrun⟩ := finishes_listed line acc x element source condition bytes m
    obtain ⟨enough', outcome', hcut', hrun'⟩ :=
      finishes_looped first loop guard item acc x element source condition bytes m
    refine ⟨max enough enough', fun steps hsteps => ⟨fun h => ?_, fun h => ?_⟩⟩
    · exact hcut (hrun steps (by omega) ▸ h)
    · exact hcut' (hrun' steps (by omega) ▸ h)

/-- Whether a number is not two. -/
def notTwo : Expr := .binary .notEqual (.var "x") (.int 2)

/-- A letter for each of three numbers that is not two. -/
def poppedLetters : List Stmt :=
  listed 1 "ys" "x" (popFirst "xs") (.list [.int 1, .int 2, .int 3]) (some notTwo)

/-- The loop that pops the letters. -/
def poppingLoop : List Stmt :=
  looped 1 2 3 4 "ys" "x" (popFirst "xs") (.list [.int 1, .int 2, .int 3]) (some notTwo)

theorem comprehension_does_what_loop_does_popping :
    parse "ys = [xs.pop(0) for x in [1, 2, 3] if x != 2]" = .ok poppedLetters ∧
      parse
          "ys = []\nfor x in [1, 2, 3] \x7b\nif x != 2 \x7b\nys.append(xs.pop(0))\n\x7d\n\x7d" =
        .ok poppingLoop ∧
      "ys" ∉ (Expr.list [.int 1, .int 2, .int 3]).names ∧ "ys" ∉ (popFirst "xs").names ∧
      "ys" ∉ namesOfOptional (some notTwo) ∧ "x" ≠ "ys" ∧
      ∃ m' n', Succeeds ⟨100, 100⟩ lettered (runAll poppedLetters) .next m' ∧
        Succeeds ⟨100, 100⟩ lettered (runAll poppingLoop) .next n' ∧ m'.AgreesOn (· ≠ "x") n' ∧
        n'.get? "ys" = some (.list [.str "a", .str "b"]) := by
  have hsource : "ys" ∉ (Expr.list [.int 1, .int 2, .int 3]).names := by decide
  have helement : "ys" ∉ (popFirst "xs").names := by decide
  have hcondition : "ys" ∉ namesOfOptional (some notTwo) := by decide
  have hne : "x" ≠ "ys" := by decide
  have hshort : Succeeds ⟨100, 100⟩ lettered (runAll poppedLetters) .next _ :=
    succeeds_of_fst _ (by cbv)
  have hlong : Succeeds ⟨100, 100⟩ lettered (runAll poppingLoop) .next _ := succeeds_of_fst _ (by cbv)
  have hcut {x : Action Flow} {m' : Machine} (h : Succeeds ⟨100, 100⟩ lettered x .next m') :
      ¬ IsCut (x ⟨100, 100⟩ lettered).1 := by
    rw [h]
    exact not_isCut_ok _
  obtain ⟨hends, -⟩ :=
    comprehension_does_what_loop_does hsource helement hcondition hne 1 1 2 3 4 lettered
  obtain ⟨-, hagrees, -⟩ := hends ⟨100, 100⟩ (hcut hshort) (hcut hlong)
  exact ⟨by cbv, by cbv, hsource, helement, hcondition, hne, _, _, hshort, hlong,
    hagrees _ _ _ _ hshort hlong, by cbv⟩

end PromptWeave.Script
