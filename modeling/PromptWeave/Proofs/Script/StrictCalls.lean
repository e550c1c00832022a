import PromptWeave.Proofs.Script.Checked
import PromptWeave.Proofs.Script.Progressions
import PromptWeave.Proofs.Script.StrictArithmetic
import PromptWeave.Script.Functions
import PromptWeave.Script.Machine
import PromptWeave.Script.Methods

/-!
# Calls in which arithmetic aborts

The functions, the methods that change a list and the lines of output, with arithmetic that aborts. On
values that a memory holds, the products of ranges are all that can abort them.
-/
namespace PromptWeave.Script
namespace Strict

open PromptWeave.Script.Value

variable {α β : Type}

/-! ### Ranges -/

/-- A term of a progression. -/
def term (start step : Int64) (i : Nat) : Strict Int64 := do
  addWords start (← mulWords (Int64.ofNat i) step)

/-- Terms of a progression by their numbers. -/
def terms (start step : Int64) : List Nat → Strict (List Value)
  | [] => return []
  | i :: rest => do
      let t ← term start step i
      let ts ← terms start step rest
      return .int t :: ts

/-- The terms of an arithmetic progression before its end. -/
def progression (start stop step : Int64) : Strict Value := do
  if step = 0 then fail .zeroStep
  let count := (termSpan start.toInt stop.toInt step.toInt).toNat
  plain (checkItems count)
  return .list (← terms start step (List.range count))

/-- The integers of a range with one, two or three bounds. -/
def rangeOf (args : List Value) : Strict Value := do
  if args.isEmpty || 3 < args.length then fail (.wrongArity "range" 1 3 args.length)
  match ← plain (args.mapM (expectInt "range")) with
  | [stop] => progression 0 stop 1
  | [start, stop] => progression start stop 1
  | start :: stop :: step :: _ => progression start stop step
  | [] => fail (.wrongArity "range" 1 3 0)

/-- Calls a function. -/
def call (f : Function) (args : List Value) : Strict Value :=
  match f with
  | .range => rangeOf args
  | f => plain (f.apply args)

/-- The operations by which a range may overflow: the product of the number of a term, which the list
of the range would hold, with the step. -/
def IsRangeProduct (o : Overflow) : Prop :=
  ∃ (start stop step : Int64) (i : Nat), o = .product i step.toInt ∧
    BeforeEnd start.toInt stop.toInt step.toInt i ∧
    termCount start.toInt stop.toInt step.toInt ≤ maxItems ∧ ¬fitsInt (i * step.toInt) = true

/-- Only the ranges of steps as large as this overflow. -/
theorem IsRangeProduct.le_mul_natAbs {a b : Int} (h : IsRangeProduct (.product a b)) :
    2 ^ 63 ≤ (maxItems - 1) * b.natAbs := by
  obtain ⟨start, stop, step, i, ho, hbefore, hfew, hwide⟩ := h
  cases ho
  have hstep : step.toInt ≠ 0 := fun hzero => hwide (by rw [hzero, Int.mul_zero]; rfl)
  have hi : i ≤ maxItems - 1 :=
    Nat.le_sub_one_of_lt (Nat.lt_of_lt_of_le ((lt_termCount_iff hstep i).2 hbefore) hfew)
  have hsize : (i * step.toInt).natAbs = i * step.toInt.natAbs := by
    rw [Int.natAbs_mul, Int.natAbs_natCast]
  have hbeyond : 2 ^ 63 ≤ (i * step.toInt).natAbs := by
    rw [fitsInt_iff] at hwide
    omega
  calc 2 ^ 63 ≤ i * step.toInt.natAbs := hsize ▸ hbeyond
    _ ≤ (maxItems - 1) * step.toInt.natAbs := Nat.mul_le_mul_right _ hi

/-- Whether an operation comes to an outcome, unless the product of a range aborts it. -/
def PlainBarProducts (x : Strict α) (outcome : Outcome α) : Prop :=
  x = plain outcome ∨ ∃ o, IsRangeProduct o ∧ x = abort (.overflow o)

theorem term_eq {start stop step : Int64} {i : Nat}
    (hbefore : BeforeEnd start.toInt stop.toInt step.toInt i) (hi : i < memoryBytes)
    (hproduct : fitsInt (i * step.toInt) = true) :
    term start step i = plain (.ok (start + Int64.ofNat i * step)) := by
  have hword : fitsInt ((Int64.ofNat i).toInt * step.toInt) = true := by
    rwa [toInt_ofNat_of_lt hi]
  have hrise : (Int64.ofNat i * step).toInt = i * step.toInt := by
    rw [toInt_mul_of_fits hword, toInt_ofNat_of_lt hi]
  rw [term, mulWords, if_pos hword, pure_eq, plain_ok_bind, addWords_eq]
  rw [hrise]
  exact fitsInt_term hbefore

theorem term_overflows {start step : Int64} {i : Nat} (hi : i < memoryBytes)
    (hproduct : ¬fitsInt (i * step.toInt) = true) :
    term start step i = abort (.overflow (.product i step.toInt)) := by
  rw [← toInt_ofNat_of_lt hi] at hproduct ⊢
  rw [term, mulWords, if_neg hproduct]
  rfl

/-- The first product that does not fit aborts the terms, and without one they are those of the
progression. -/
theorem terms_cases {start stop step : Int64} {numbers : List Nat}
    (hbefore : ∀ i ∈ numbers, BeforeEnd start.toInt stop.toInt step.toInt i)
    (hsmall : ∀ i ∈ numbers, i < memoryBytes) :
    terms start step numbers =
        plain (.ok (numbers.map fun i => .int (start + Int64.ofNat i * step))) ∨
      ∃ i ∈ numbers, ¬fitsInt (i * step.toInt) = true ∧
        terms start step numbers = abort (.overflow (.product i step.toInt)) := by
  induction numbers with
  | nil => exact .inl rfl
  | cons i rest ih =>
      rw [List.forall_mem_cons] at hbefore hsmall
      rw [terms]
      by_cases hproduct : fitsInt (i * step.toInt) = true
      · rw [term_eq hbefore.1 hsmall.1 hproduct, plain_ok_bind]
        rcases ih hbefore.2 hsmall.2 with hterms | ⟨j, hj, hwide, hterms⟩
        · rw [hterms]
          exact .inl rfl
        · rw [hterms]
          exact .inr ⟨j, List.mem_cons_of_mem _ hj, hwide, rfl⟩
      · rw [term_overflows hsmall.1 hproduct]
        exact .inr ⟨i, List.mem_cons_self, hproduct, rfl⟩

theorem progression_plain (start stop step : Int64) :
    PlainBarProducts (progression start stop step)
      (Script.progression start.toInt stop.toInt step.toInt) := by
  unfold progression
  by_cases hstep : step = 0
  · rw [if_pos hstep, hstep]
    exact .inl rfl
  have hne : step.toInt ≠ 0 := fun h => hstep (Int64.toInt_inj.1 h)
  rw [if_neg hstep, progression_eq start stop hstep, ← termCount_eq_toNat_termSpan hne]
  by_cases hmany : termCount start.toInt stop.toInt step.toInt ≤ maxItems
  · have hcheck : checkItems (termCount start.toInt stop.toInt step.toInt) = .ok () :=
      if_neg (Nat.not_lt.2 hmany)
    have hsmall (i : Nat) (hi : i ∈ List.range (termCount start.toInt stop.toInt step.toInt)) :
        i < memoryBytes :=
      Nat.lt_of_lt_of_le (List.mem_range.1 hi) (Nat.le_trans hmany (by decide))
    have hbefore (i : Nat) (hi : i ∈ List.range (termCount start.toInt stop.toInt step.toInt)) :
        BeforeEnd start.toInt stop.toInt step.toInt i :=
      (lt_termCount_iff hne i).1 (List.mem_range.1 hi)
    rw [if_pos hmany]
    dsimp only
    rw [hcheck, plain_ok_bind]
    rcases terms_cases hbefore hsmall with hterms | ⟨i, hi, hwide, hterms⟩
    · rw [hterms]
      exact .inl rfl
    · rw [hterms]
      exact .inr ⟨_, ⟨start, stop, step, i, rfl, hbefore i hi, hmany, hwide⟩, rfl⟩
  · have hcheck : checkItems (termCount start.toInt stop.toInt step.toInt) =
        .error (.tooManyItems (termCount start.toInt stop.toInt step.toInt)) :=
      if_pos (Nat.not_le.1 hmany)
    rw [if_neg hmany]
    dsimp only
    rw [hcheck]
    exact .inl rfl

theorem rangeOf_plain (args : List Value) : PlainBarProducts (rangeOf args) (Script.rangeOf args) := by
  unfold rangeOf Script.rangeOf
  split
  next => exact .inl rfl
  next =>
    change PlainBarProducts (plain (args.mapM (expectInt "range")) >>= _)
      (args.mapM (expectInt "range") >>= _)
    cases hbounds : args.mapM (expectInt "range") with
    | error cause => exact .inl rfl
    | ok bounds =>
        match bounds with
        | [] => exact .inl rfl
        | [stop] => exact progression_plain 0 stop 1
        | [start, stop] => exact progression_plain start stop 1
        | start :: stop :: step :: rest => exact progression_plain start stop step

theorem call_plain (f : Function) (args : List Value) : PlainBarProducts (call f args) (f.apply args) := by
  cases f with
  | range => exact rangeOf_plain args
  | _ => exact .inl rfl

/-! ### Calls that change a list -/

/-- The place at which an item is inserted. -/
def insertionPoint (size : Nat) (index : Int64) : Strict Nat := do
  let resolved ← fromEnd size index
  return if index.toInt < 0 then resolved.toInt.toNat else min resolved.toInt.toNat size

theorem insertionPoint_eq {size : Nat} (hsize : size < memoryBytes) (index : Int64) :
    insertionPoint size index = plain (.ok (Script.insertionPoint size index.toInt)) := by
  obtain ⟨w, hw, hresolved⟩ := fromEnd_eq hsize index
  rw [insertionPoint, hw, plain_ok_bind, hresolved, Script.insertionPoint, pure_eq]
  split <;> rfl

/-- Calls a method that changes its list. -/
def mutate (m : Mutator) (items args : List Value) : Strict (Value × List Value) :=
  match m with
  | .append => do
      let item ← plain (oneArgument "append" args)
      plain (checkItems (← addCounts items.length 1))
      plain (checkBytes (addSaturating (← measureList items) (← measureList [item])))
      return (.absent, items ++ [item])
  | .extend => do
      let arg ← plain (oneArgument "extend" args)
      let more ← plain (expectItems "extend" arg)
      plain (checkItems (← addCounts items.length more.length))
      plain (checkBytes (addSaturating (← measureList items) (← measureList more)))
      return (.absent, items ++ more)
  | .insert => do
      let (index, item) ← plain (twoArguments "insert" args)
      plain (checkItems (← addCounts items.length 1))
      let index ← plain (expectInt "insert" index)
      let place ← insertionPoint items.length index
      plain (checkBytes (addSaturating (← measureList items) (← measure item)))
      return (.absent, items.insertIdx place item)
  | .pop => do
      let index ← plain (optionalArgument "pop" args)
      if items.isEmpty then fail .popFromEmpty
      let place ← match index with
        | some index => position items.length index
        | none => subCounts items.length 1
      return (items.getD place .absent, items.eraseIdx place)
  | m => plain (m.apply items args)

end Strict

namespace Value

/-- A character takes at most four bytes. -/
theorem sizeBytes_char_le (c : Char) : (Value.str c.toString).sizeBytes ≤ 36 := by
  have hc := c.utf8Size_le_four
  rw [sizeBytes, Char.toString, String.utf8ByteSize_singleton]
  omega

theorem listSizeBytes_chars_le (cs : List Char) :
    listSizeBytes (cs.map fun c => .str c.toString) ≤ 36 * cs.length := by
  induction cs with
  | nil => simp
  | cons c rest ih =>
      have hc := sizeBytes_char_le c
      rw [List.map_cons, listSizeBytes_cons, List.length_cons]
      omega

theorem Held.of_itemsOf {v : Value} {items : List Value} (h : v.Held) (hitems : itemsOf? v = some items) :
    ∀ item ∈ items, item.Held := by
  cases v with
  | list others =>
      cases hitems
      exact fun item hitem => h.of_mem hitem
  | str s =>
      cases hitems
      intro item hitem
      obtain ⟨c, _, rfl⟩ := List.mem_map.1 hitem
      exact Nat.lt_of_le_of_lt (sizeBytes_char_le c) (by decide)
  | _ => cases hitems

theorem Held.length_itemsOf_lt {v : Value} {items : List Value} (h : v.Held)
    (hitems : itemsOf? v = some items) : items.length < memoryBytes := by
  cases v with
  | list others =>
      cases hitems
      exact h.length_lt
  | str s =>
      cases hitems
      rw [List.length_map]
      exact h.length_toList_lt
  | _ => cases hitems

/-- The characters of a text take more room than the text, but few of them do not take much. -/
theorem Held.listSizeBytes_itemsOf_lt {v : Value} {items : List Value} (h : v.Held)
    (hitems : itemsOf? v = some items) (hfew : items.length ≤ maxItems) :
    listSizeBytes items < memoryBytes := by
  cases v with
  | list others =>
      cases hitems
      exact h.listSizeBytes_lt
  | str s =>
      cases hitems
      rw [List.length_map] at hfew
      have hroom := listSizeBytes_chars_le s.toList
      unfold maxItems at hfew
      unfold memoryBytes
      omega
  | _ => cases hitems

end Value

namespace Strict

variable {items args : List Value}

theorem oneArgument_eq_ok {name : String} {a : Value} (h : oneArgument name args = .ok a) :
    args = [a] := by
  unfold oneArgument at h
  split at h <;> cases h
  rfl

theorem twoArguments_eq_ok {name : String} {a b : Value} (h : twoArguments name args = .ok (a, b)) :
    args = [a, b] := by
  unfold twoArguments at h
  split at h <;> cases h
  rfl

theorem expectItems_eq_ok {name : String} {v : Value} (h : expectItems name v = .ok items) :
    itemsOf? v = some items := by
  unfold expectItems at h
  split at h
  next hitems =>
    cases h
    exact hitems
  next => cases h

/-! Lists that grow are measured with what they are to hold, before it is added. -/

theorem addCounts_one_eq (hitems : (Value.list items).Held) :
    addCounts items.length 1 = plain (.ok (items.length + 1)) :=
  addCounts_eq (add_lt_words64 hitems.length_lt (by decide))

theorem mutate_append_eq (hitems : (Value.list items).Held) (hargs : ∀ a ∈ args, a.Held) :
    mutate .append items args = plain (Mutator.append.apply items args) := by
  have hroom := hitems.listSizeBytes_lt
  refine bind_eq_plain rfl fun item hitem => ?_
  have hheld : item.Held := hargs item (oneArgument_eq_ok hitem ▸ List.mem_cons_self)
  have hsize : Value.listSizeBytes [item] = item.sizeBytes := by simp
  rw [addCounts_one_eq hitems, plain_ok_bind]
  refine bind_eq_plain rfl fun _ _ => ?_
  rw [measureList_eq hroom, plain_ok_bind, measureList_eq (hsize ▸ hheld), plain_ok_bind, hsize,
    addSaturating_eq (add_lt_words64 hroom hheld)]
  exact bind_eq_plain rfl fun _ _ => rfl

/-- The characters of a text are measured only after they are counted, and few of them take little room. -/
theorem mutate_extend_eq (hitems : (Value.list items).Held) (hargs : ∀ a ∈ args, a.Held) :
    mutate .extend items args = plain (Mutator.extend.apply items args) := by
  have hroom := hitems.listSizeBytes_lt
  refine bind_eq_plain rfl fun arg harg => bind_eq_plain rfl fun more hmore => ?_
  have hheld : arg.Held := hargs arg (oneArgument_eq_ok harg ▸ List.mem_cons_self)
  have hmore := expectItems_eq_ok hmore
  rw [addCounts_eq (add_lt_words64 hitems.length_lt (hheld.length_itemsOf_lt hmore)), plain_ok_bind]
  refine bind_eq_plain rfl fun _ hcheck => ?_
  have hfew : more.length ≤ maxItems :=
    Nat.le_trans (Nat.le_add_left ..) (gives_checkItems _ _ hcheck)
  have hsize := hheld.listSizeBytes_itemsOf_lt hmore hfew
  rw [measureList_eq hroom, plain_ok_bind, measureList_eq hsize, plain_ok_bind,
    addSaturating_eq (add_lt_words64 hroom hsize)]
  exact bind_eq_plain rfl fun _ _ => rfl

theorem mutate_insert_eq (hitems : (Value.list items).Held) (hargs : ∀ a ∈ args, a.Held) :
    mutate .insert items args = plain (Mutator.insert.apply items args) := by
  have hroom := hitems.listSizeBytes_lt
  refine bind_eq_plain rfl fun pair hpair => ?_
  obtain ⟨index, item⟩ := pair
  have hheld : item.Held :=
    hargs item (twoArguments_eq_ok hpair ▸ List.mem_cons_of_mem _ List.mem_cons_self)
  dsimp only
  rw [addCounts_one_eq hitems, plain_ok_bind]
  refine bind_eq_plain rfl fun _ _ => bind_eq_plain rfl fun index _ => ?_
  rw [insertionPoint_eq hitems.length_lt, plain_ok_bind, measureList_eq hroom, plain_ok_bind,
    measure_eq item hheld, plain_ok_bind, addSaturating_eq (add_lt_words64 hroom hheld)]
  exact bind_eq_plain rfl fun _ _ => rfl

theorem mutate_pop_eq (hitems : (Value.list items).Held) :
    mutate .pop items args = plain (Mutator.pop.apply items args) := by
  refine bind_eq_plain rfl fun index _ => ?_
  dsimp only
  by_cases hempty : items.isEmpty = true
  · rw [if_pos hempty, if_pos hempty]
    rfl
  · rw [if_neg hempty, if_neg hempty]
    cases index with
    | some index => exact bind_eq_plain (position_eq hitems.length_lt index) fun _ _ => rfl
    | none =>
        have hpos : 1 ≤ items.length :=
          List.length_pos_of_ne_nil fun hnil => hempty (List.isEmpty_iff.2 hnil)
        exact bind_eq_plain (subCounts_eq hpos) fun _ _ => rfl

theorem mutate_eq (m : Mutator) (hitems : (Value.list items).Held) (hargs : ∀ a ∈ args, a.Held) :
    mutate m items args = plain (m.apply items args) := by
  cases m with
  | append => exact mutate_append_eq hitems hargs
  | extend => exact mutate_extend_eq hitems hargs
  | insert => exact mutate_insert_eq hitems hargs
  | pop => exact mutate_pop_eq hitems
  | remove | clear | sort | reverse => rfl

/-! ### Lines of output -/

/-- Whether a number of bytes of a text ends between two characters. -/
def isBoundary (line : String) (cut : Nat) : Bool := String.Pos.Raw.isValid line ⟨cut⟩

/-- The nearest place between two characters, found by steps back. -/
def stepBack (line : String) : (cut : Nat) → Strict Nat
  | 0 => if isBoundary line 0 then pure 0 else subCounts 0 1
  | cut + 1 => if isBoundary line (cut + 1) then pure (cut + 1) else stepBack line cut

/-- The arithmetic of writing a line: the room that the line needs, and the place at which it is cut if
there is less. -/
def arrange (m : Machine) (maxOutputBytes : Nat) (line : String) : Strict Unit := do
  if m.truncated then return ()
  let needed ← addCounts line.utf8ByteSize 1
  let room := maxOutputBytes - m.output.utf8ByteSize
  if needed ≤ room then return ()
  let _ ← stepBack line (min room line.utf8ByteSize)
  return ()

theorem stepBack_plain (line : String) (cut : Nat) :
    ∃ place, stepBack line cut = plain (.ok place) := by
  induction cut with
  | zero => exact ⟨0, if_pos (String.Pos.Raw.isValid_eq_true_iff.2 String.Pos.Raw.isValid_zero)⟩
  | succ cut ih =>
      rw [stepBack]
      split
      next => exact ⟨cut + 1, rfl⟩
      next => exact ih

theorem arrange_eq (m : Machine) (maxOutputBytes : Nat) {line : String}
    (hline : line.utf8ByteSize < memoryBytes) : arrange m maxOutputBytes line = plain (.ok ()) := by
  unfold arrange
  split
  next => rfl
  next =>
    rw [addCounts_eq (add_lt_words64 hline (by decide))]
    change (if _ then _ else _) = _
    split
    next => rfl
    next =>
      obtain ⟨place, hplace⟩ := stepBack_plain line (min (maxOutputBytes - m.output.utf8ByteSize) line.utf8ByteSize)
      rw [hplace]
      rfl

end Strict
end PromptWeave.Script
