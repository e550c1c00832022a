import PromptWeave.Proofs.Script.Operands
import PromptWeave.Proofs.Script.ValueOrder
import PromptWeave.Proofs.Script.Within

/-!
# Changing a list in place

A list can be grown, reversed and sorted by a method that changes the variable it is in, or by an
expression that gives a new list. Both check what they build before they build it. They come to the same
list or fail with the same message, and a method that fails leaves the variable alone.
-/
namespace PromptWeave.Script

open PromptWeave.Script.Action
open Value (listSizeBytes listSizeBytes_cons listSizeBytes_nil)

/-! ### Lists put together -/

section Joined

variable {α β : Type} {count bytes : Nat}

/-- What is built, unless it has more items than a list may have or takes more room. Too many items are
refused first. -/
def built (count bytes : Nat) (a : α) : Outcome α :=
  if maxItems < count then .error (.tooManyItems count)
  else if maxListBytes < bytes then .error (.tooManyBytes bytes)
  else .ok a

/-- Two lists put together, one behind the other. -/
def joined (xs ys : List Value) : Outcome (List Value) :=
  built (xs.length + ys.length) (listSizeBytes xs + listSizeBytes ys) (xs ++ ys)

theorem checked_eq_built (count bytes : Nat) (a : α) :
    (checkItems count >>= fun _ => checkBytes bytes >>= fun _ => .ok a) = built count bytes a := by
  unfold checkItems checkBytes built
  split
  · rfl
  · split <;> rfl

theorem map_built (f : α → β) (a : α) : f <$> built count bytes a = built count bytes (f a) := by
  unfold built
  split
  · rfl
  · split <;> rfl

/-- What is built matters only where there are not too many items. -/
theorem built_congr {a b : α} (h : count ≤ maxItems → a = b) :
    built count bytes a = built count bytes b := by
  unfold built
  split
  · rfl
  · rename_i hfew
    rw [h (Nat.le_of_not_lt hfew)]

theorem map_joined_singleton (f : List Value → β) (xs : List Value) (v : Value) :
    f <$> joined xs [v] = built (xs.length + 1) (listSizeBytes xs + v.sizeBytes) (f (xs ++ [v])) := by
  rw [joined, map_built, listSizeBytes_cons, listSizeBytes_nil]
  rfl

theorem add_lists (xs ys : List Value) : add (.list xs) (.list ys) = .list <$> joined xs ys := by
  rw [joined, map_built, ← checked_eq_built]
  rfl

theorem apply_append (xs : List Value) (v : Value) :
    Mutator.append.apply xs [v] = (Value.absent, ·) <$> joined xs [v] := by
  rw [map_joined_singleton, ← checked_eq_built]
  rfl

theorem apply_extend (xs ys : List Value) :
    Mutator.extend.apply xs [.list ys] = (Value.absent, ·) <$> joined xs ys := by
  rw [joined, map_built, ← checked_eq_built]
  rfl

/-- What is inserted is counted and measured as what is appended, wherever it goes. -/
theorem apply_insert (xs : List Value) (n : Int64) (v : Value) :
    Mutator.insert.apply xs [.int n, v] =
      built (xs.length + 1) (listSizeBytes xs + v.sizeBytes)
        (Value.absent, xs.insertIdx (insertionPoint xs.length n.toInt) v) := by
  rw [← checked_eq_built]
  rfl

/-- The number of items is the place behind the last one. A list that is too long for a word to count its
items is refused before the place is looked at. -/
theorem apply_insert_length (xs : List Value) (v : Value) :
    Mutator.insert.apply xs [ofCount xs.length, v] = (Value.absent, ·) <$> joined xs [v] := by
  rw [ofCount, apply_insert, map_joined_singleton]
  refine built_congr fun hfew => ?_
  have hcount : (Int64.ofNat xs.length).toInt = xs.length := by
    refine Int64.toInt_ofNat_of_lt ?_
    unfold maxItems at hfew
    omega
  have hend : insertionPoint xs.length (xs.length : Int) = xs.length := by
    rw [insertionPoint, if_neg (by omega), Int.toNat_natCast, Nat.min_self]
  rw [hcount, hend, List.insertIdx_length_self]

theorem apply_insert_zero (xs : List Value) (v : Value) :
    Mutator.insert.apply xs [.int 0, v] = (Value.absent, ·) <$> joined [v] xs := by
  have hstart : insertionPoint xs.length (0 : Int64).toInt = 0 := by
    rw [insertionPoint, if_neg (by decide)]
    exact Nat.zero_min _
  rw [apply_insert, joined, map_built, hstart, listSizeBytes_cons, listSizeBytes_nil, Nat.add_zero,
    Nat.add_comm (listSizeBytes xs), Nat.add_comm xs.length]
  rfl

theorem apply_reverse (xs : List Value) :
    Mutator.reverse.apply xs [] = (Value.absent, ·) <$> .ok xs.reverse := rfl

theorem apply_sort (xs : List Value) :
    Mutator.sort.apply xs [] = (Value.absent, ·) <$> sortValues xs := by
  cases h : sortValues xs <;> simp [Mutator.apply, noArguments, h] <;> rfl

end Joined

/-! ### Calls -/

section Calls

variable {limits : Limits} {m m' : Machine} {x y name : String} {xs : List Value} {v : Value}
  {values : List Value} {args : List Expr} {method : Mutator} {outcome : Outcome (List Value)}

/-- Whether a call binds a variable to the list that it comes to. If it comes to none it fails, and the
variables are as they were. -/
def ChangesTo (limits : Limits) (m : Machine) (x : String) (call : Expr) (outcome : Outcome (List Value))
    (m' : Machine) : Prop :=
  (call.eval : Action Value) limits m =
    match outcome with
    | .ok changed => (.ok .absent, m'.bind x (.list changed))
    | .error cause => (.error (.fault m'.line cause), m')

/-- Whether a call that changes a variable and an expression that changes nothing are two ways to come to
the same list, or to the same failure. Either takes some steps. -/
structure TwoSpellings (limits : Limits) (m : Machine) (x : String) (call spelled : Expr)
    (outcome : Outcome (List Value)) : Prop where
  inPlace : ∃ n, ChangesTo limits m x call outcome (m.later n)
  anew : ∃ n, HasOutcome limits m spelled (.list <$> outcome) (m.later n)

/-- A method of a list in a variable is called on that list once its arguments have values. -/
theorem changesTo_call (hmethod : Mutator.ofName? name = some method) (hx : m.get? x = some (.list xs))
    (hsteps : m.steps + 1 < limits.maxSteps)
    (hargs : Succeeds limits (m.later 2) (evalAll args) values m')
    (happly : method.apply xs values = (Value.absent, ·) <$> outcome) :
    ChangesTo limits m x (.call (.attribute (.var x) name) args) outcome m' := by
  have htarget : Succeeds limits m.stepped (Expr.var x).eval (.list xs) (m.later 2) :=
    succeeds_var_later (n := 1) hx hsteps
  have hmutation : mutation? (.list xs) name = some (method, xs) := mutation?_eq_some.2 ⟨rfl, hmethod⟩
  unfold ChangesTo
  rw [Expr.eval, evaluating_apply (by omega), bind_ok _ htarget, bind_ok _ hargs, hmutation]
  dsimp only
  rw [happly]
  cases outcome with
  | ok changed => rfl
  | error cause => rfl

end Calls

/-! ### Two spellings -/

section Spellings

variable {limits : Limits} {m : Machine} {x y z : String} {xs ys : List Value} {v : Value}

/-- What the calls below need: a list in a variable, a value and another list to add to it, functions
whose names are not bound to anything, and five steps. -/
structure Listed (limits : Limits) (m : Machine) (x y z : String) (xs ys : List Value) (v : Value) :
    Prop where
  list : m.get? x = some (.list xs)
  item : m.get? y = some v
  more : m.get? z = some (.list ys)
  free : ∀ f ∈ ["len", "reversed", "sorted"], m.get? f = none
  steps : m.steps + 5 ≤ limits.maxSteps

/-- A call of a method on a variable. -/
def methodOn (x name : String) (args : List Expr) : Expr := .call (.attribute (.var x) name) args

theorem Listed.read (h : Listed limits m x y z xs ys v) {name : String} {w : Value}
    (hname : m.get? name = some w) {n : Nat} (hn : n < 5) :
    Succeeds limits (m.later n) (Expr.var name).eval w (m.later (n + 1)) := by
  have hsteps := h.steps
  exact succeeds_var_later hname (by omega)

/-- A list of the value takes a step for itself and one for the value. -/
theorem Listed.one (h : Listed limits m x y z xs ys v) {n : Nat} (hn : n < 4) :
    Succeeds limits (m.later n) (Expr.list [.var y]).eval (.list [v]) (m.later (n + 2)) := by
  have hsteps := h.steps
  have hitem : Succeeds limits (m.later (n + 1)) (evalAll [.var y]) [v] (m.later (n + 2)) :=
    succeeds_evalAll_one.2 (h.read h.item (by omega))
  rw [Expr.eval, succeeds_evaluating]
  refine ⟨?_, succeeds_bind.2 ⟨[v], _, hitem, succeeds_pure.2 ⟨rfl, rfl⟩⟩⟩
  change m.steps + n < _
  omega

theorem Listed.call (h : Listed limits m x y z xs ys v) {f : String} {g : Function}
    (hf : f ∈ ["len", "reversed", "sorted"]) (hg : Builtin.ofName? f = some (.function g)) {n : Nat}
    (hn : n < 4) : HasOutcome limits (m.later n) (callOn f x) (g.apply [.list xs]) (m.later (n + 2)) := by
  have hsteps := h.steps
  have hcalled : Called limits (m.later n) f [.var x] [.list xs] (m.later (n + 2)) :=
    { steps := by
        change m.steps + n < _
        omega
      evaluated := succeeds_evalAll_one.2 (h.read (n := n + 1) h.list (by omega))
      free := h.free f hf }
  exact hasOutcome_call hg hcalled

/-- Two lists that expressions give are added. -/
theorem Listed.sum (h : Listed limits m x y z xs ys v) {left right : Expr} {ls rs : List Value}
    {mid m' : Machine} (hleft : Succeeds limits (m.later 1) left.eval (.list ls) mid)
    (hright : Succeeds limits mid right.eval (.list rs) m') :
    HasOutcome limits m (.binary .add left right) (.list <$> joined ls rs) m' := by
  have hsteps := h.steps
  have hoperands : Operands limits m [left, right] [.list ls, .list rs] m' :=
    { steps := by omega
      evaluated := succeeds_evalAll_two.2 ⟨mid, hleft, hright⟩ }
  rw [← add_lists]
  exact hasOutcome_binary .add hoperands

theorem Listed.change (h : Listed limits m x y z xs ys v) {name : String} {method : Mutator}
    (hmethod : Mutator.ofName? name = some method) {args : List Expr} {values : List Value}
    {outcome : Outcome (List Value)} {m' : Machine}
    (hargs : Succeeds limits (m.later 2) (evalAll args) values m')
    (happly : method.apply xs values = (Value.absent, ·) <$> outcome) :
    ChangesTo limits m x (methodOn x name args) outcome m' := by
  have hsteps := h.steps
  exact changesTo_call hmethod h.list (by omega) hargs happly

theorem Listed.append (h : Listed limits m x y z xs ys v) :
    TwoSpellings limits m x (methodOn x "append" [.var y]) (.binary .add (.var x) (.list [.var y]))
      (joined xs [v]) := by
  have hitem : Succeeds limits (m.later 2) (evalAll [.var y]) [v] (m.later 3) :=
    succeeds_evalAll_one.2 (h.read h.item (by decide))
  exact {
    inPlace := ⟨3, h.change rfl hitem (apply_append xs v)⟩
    anew := ⟨4, h.sum (h.read h.list (by decide)) (h.one (by decide))⟩ }

theorem Listed.extend (h : Listed limits m x y z xs ys v) :
    TwoSpellings limits m x (methodOn x "extend" [.var z]) (.binary .add (.var x) (.var z))
      (joined xs ys) := by
  have hmore : Succeeds limits (m.later 2) (Expr.var z).eval (.list ys) (m.later 3) :=
    h.read h.more (by decide)
  exact {
    inPlace := ⟨3, h.change rfl (succeeds_evalAll_one.2 hmore) (apply_extend xs ys)⟩
    anew := ⟨3, h.sum (h.read h.list (by decide)) hmore⟩ }

theorem Listed.insert_last (h : Listed limits m x y z xs ys v) :
    TwoSpellings limits m x (methodOn x "insert" [callOn "len" x, .var y])
      (.binary .add (.var x) (.list [.var y])) (joined xs [v]) := by
  have hlength : Succeeds limits (m.later 2) (callOn "len" x).eval (ofCount xs.length) (m.later 4) :=
    h.call (f := "len") (g := .len) (by simp) rfl (by decide)
  have hargs : Succeeds limits (m.later 2) (evalAll [callOn "len" x, .var y])
      [ofCount xs.length, v] (m.later 5) :=
    succeeds_evalAll_two.2 ⟨_, hlength, h.read h.item (by decide)⟩
  exact {
    inPlace := ⟨5, h.change rfl hargs (apply_insert_length xs v)⟩
    anew := h.append.anew }

theorem Listed.insert_first (h : Listed limits m x y z xs ys v) :
    TwoSpellings limits m x (methodOn x "insert" [.int 0, .var y])
      (.binary .add (.list [.var y]) (.var x)) (joined [v] xs) := by
  have hsteps := h.steps
  have hzero : Succeeds limits (m.later 2) (Expr.int 0).eval (.int 0) (m.later 3) := by
    refine succeeds_int.2 ⟨?_, rfl, rfl⟩
    change m.steps + 2 < _
    omega
  have hargs : Succeeds limits (m.later 2) (evalAll [.int 0, .var y]) [.int 0, v] (m.later 4) :=
    succeeds_evalAll_two.2 ⟨_, hzero, h.read h.item (by decide)⟩
  exact {
    inPlace := ⟨4, h.change rfl hargs (apply_insert_zero xs v)⟩
    anew := ⟨4, h.sum (h.one (by decide)) (h.read h.list (by decide))⟩ }

theorem Listed.reverse (h : Listed limits m x y z xs ys v) :
    TwoSpellings limits m x (methodOn x "reverse" []) (callOn "reversed" x) (.ok xs.reverse) := by
  have hargs : Succeeds limits (m.later 2) (evalAll []) [] (m.later 2) :=
    succeeds_evalAll_nil.2 ⟨rfl, rfl⟩
  exact {
    inPlace := ⟨2, h.change rfl hargs (apply_reverse xs)⟩
    anew := ⟨2, h.call (f := "reversed") (g := .reversed) (n := 0) (by simp) rfl (by decide)⟩ }

theorem Listed.sort (h : Listed limits m x y z xs ys v) :
    TwoSpellings limits m x (methodOn x "sort" []) (callOn "sorted" x) (sortValues xs) := by
  have hargs : Succeeds limits (m.later 2) (evalAll []) [] (m.later 2) :=
    succeeds_evalAll_nil.2 ⟨rfl, rfl⟩
  have hsorted := h.call (f := "sorted") (g := .sorted) (n := 0) (by simp) rfl (by decide)
  rw [apply_sorted] at hsorted
  exact {
    inPlace := ⟨2, h.change rfl hargs (apply_sort xs)⟩
    anew := ⟨2, hsorted⟩ }

/-- The methods that grow, reverse and sort a list in place are other spellings of expressions that give
a new list. For any lists and any value either both come to the same list or both fail on the same line
with the same message, at the same limits, and then only the number of steps has changed. -/
theorem in_place_calls_spell_expressions (h : Listed limits m x y z xs ys v) :
    TwoSpellings limits m x (methodOn x "append" [.var y]) (.binary .add (.var x) (.list [.var y]))
      (joined xs [v]) ∧
    TwoSpellings limits m x (methodOn x "extend" [.var z]) (.binary .add (.var x) (.var z))
      (joined xs ys) ∧
    TwoSpellings limits m x (methodOn x "insert" [callOn "len" x, .var y])
      (.binary .add (.var x) (.list [.var y])) (joined xs [v]) ∧
    TwoSpellings limits m x (methodOn x "insert" [.int 0, .var y])
      (.binary .add (.list [.var y]) (.var x)) (joined [v] xs) ∧
    TwoSpellings limits m x (methodOn x "reverse" []) (callOn "reversed" x) (.ok xs.reverse) ∧
    TwoSpellings limits m x (methodOn x "sort" []) (callOn "sorted" x) (sortValues xs) :=
  ⟨h.append, h.extend, h.insert_last, h.insert_first, h.reverse, h.sort⟩

/-- A list of an integer and a text grows in either spelling and is refused by either way to sort it. -/
theorem in_place_calls_spell_expressions_mixed :
    let xs : List Value := [.int 2, .str "b"]
    let m := ((Machine.start (.ofSeed 0)).bind "xs" (.list xs)).bind "v" .absent
    Listed ⟨100, 100⟩ m "xs" "v" "xs" xs xs .absent ∧
      TwoSpellings ⟨100, 100⟩ m "xs" (methodOn "xs" "append" [.var "v"])
        (.binary .add (.var "xs") (.list [.var "v"])) (.ok [.int 2, .str "b", .absent]) ∧
      TwoSpellings ⟨100, 100⟩ m "xs" (methodOn "xs" "sort" []) (callOn "sorted" "xs")
        (.error .unsortable) := by
  intro xs m
  have h : Listed ⟨100, 100⟩ m "xs" "v" "xs" xs xs .absent :=
    { list := rfl, item := rfl, more := rfl, free := by decide, steps := by decide }
  have hjoined : joined xs [.absent] = .ok [.int 2, .str "b", .absent] := rfl
  obtain ⟨happend, -, -, -, -, hsort⟩ := in_place_calls_spell_expressions h
  rw [hjoined] at happend
  exact ⟨h, happend, hsort⟩

end Spellings

end PromptWeave.Script
