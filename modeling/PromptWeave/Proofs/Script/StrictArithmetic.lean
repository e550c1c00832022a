import PromptWeave.Proofs.Script.ExactArithmetic
import PromptWeave.Proofs.Script.Within

/-!
# Arithmetic that aborts

Some sums, differences and products of words are taken without a check, and would wrap if their results
did not fit. Here such a result aborts the operation on values that it belongs to. On values that a
memory can hold no operation is aborted, and each comes to what it comes to without aborts; the terms of
a range are the one exception, since they are computed by products that need not fit.
-/
namespace PromptWeave.Script

/-- An operation on words, with its operands. -/
inductive Overflow where
  | sum (a b : Int)
  | difference (a b : Int)
  | product (a b : Int)
  deriving Repr, DecidableEq

/-- Why something is aborted. -/
inductive Abort where
  /-- The result of an operation on words is no word. -/
  | overflow (operation : Overflow)
  /-- Something has more bytes than any memory. -/
  | memory (bytes : Nat)
  deriving Repr, DecidableEq

/-- The number of bytes that no memory holds. Offsets within a memory are words with a sign. -/
def memoryBytes : Nat := 2 ^ 63

/-- What an operation on values comes to where arithmetic aborts. -/
def Strict (α : Type) := Except Abort (Outcome α)

namespace Strict

variable {α β : Type}

/-- An operation whose arithmetic is all checked. -/
def plain (x : Outcome α) : Strict α := .ok x

/-- Fails as an operation on values does. -/
def fail (cause : Fault) : Strict α := plain (.error cause)

/-- Aborts. -/
def abort (cause : Abort) : Strict α := .error cause

/-- One thing after another. What follows a failure or an abort is left out. -/
protected def bind (x : Strict α) (f : α → Strict β) : Strict β :=
  match x with
  | .ok (.ok a) => f a
  | .ok (.error cause) => fail cause
  | .error cause => abort cause

instance : Monad Strict where
  pure a := plain (.ok a)
  bind := Strict.bind

@[simp] theorem pure_eq (a : α) : (pure a : Strict α) = plain (.ok a) := rfl

@[simp] theorem plain_ok_bind (a : α) (f : α → Strict β) : plain (.ok a) >>= f = f a := rfl

/-- What is not aborted first, nor in what follows, is what it is without aborts. -/
theorem bind_eq_plain {x : Strict α} {f : α → Strict β} {x' : Outcome α} {f' : α → Outcome β}
    (hx : x = plain x') (hf : ∀ a, x' = .ok a → f a = plain (f' a)) :
    (x >>= f) = plain (x' >>= f') := by
  subst hx
  cases x' with
  | ok a => exact hf a rfl
  | error cause => rfl

theorem map_eq_plain {x : Strict α} {x' : Outcome α} (f : α → β) (hx : x = plain x') :
    (do return f (← x)) = plain (f <$> x') := by
  subst hx
  cases x' <;> rfl

/-! ### Words and counts -/

/-- The sum of two words with a sign. -/
def addWords (a b : Int64) : Strict Int64 :=
  if fitsInt (a.toInt + b.toInt) then pure (a + b) else abort (.overflow (.sum a.toInt b.toInt))

/-- The product of two words with a sign. -/
def mulWords (a b : Int64) : Strict Int64 :=
  if fitsInt (a.toInt * b.toInt) then pure (a * b) else abort (.overflow (.product a.toInt b.toInt))

/-- The sum of two words without a sign. -/
def addCounts (a b : Nat) : Strict Nat :=
  if a + b < words64 then pure (a + b) else abort (.overflow (.sum a b))

/-- The difference of two words without a sign. -/
def subCounts (a b : Nat) : Strict Nat :=
  if b ≤ a then pure (a - b) else abort (.overflow (.difference a b))

/-- The sum of two words without a sign, or the greatest word if the sum is none. -/
def addSaturating (a b : Nat) : Nat := min (a + b) (words64 - 1)

theorem addWords_eq {a b : Int64} (h : fitsInt (a.toInt + b.toInt) = true) :
    addWords a b = plain (.ok (a + b)) := if_pos h

theorem addCounts_eq {a b : Nat} (h : a + b < words64) : addCounts a b = plain (.ok (a + b)) :=
  if_pos h

theorem subCounts_eq {a b : Nat} (h : b ≤ a) : subCounts a b = plain (.ok (a - b)) := if_pos h

/-- A count below the size of a memory is a word with a sign. -/
theorem toInt_ofNat_of_lt {size : Nat} (h : size < memoryBytes) : (Int64.ofNat size).toInt = size :=
  Int64.toInt_ofNat_of_lt h

/-- A count and a negative word add up to a word. -/
theorem fitsInt_fromEnd {size : Nat} (hsize : size < memoryBytes) {n : Int64} (hn : n.toInt < 0) :
    fitsInt ((Int64.ofNat size).toInt + n.toInt) = true := by
  obtain ⟨hlow, -⟩ := fitsInt_iff.1 (fitsInt_toInt n)
  unfold memoryBytes at hsize
  rw [toInt_ofNat_of_lt hsize, fitsInt_iff]
  omega

/-- An index with its negative values counted from the end of a sequence. -/
def fromEnd (size : Nat) (n : Int64) : Strict Int64 :=
  if n.toInt < 0 then addWords (Int64.ofNat size) n else pure n

/-- Counting from the end of a sequence that a memory holds is exact. -/
theorem fromEnd_eq {size : Nat} (hsize : size < memoryBytes) (n : Int64) :
    ∃ w : Int64, fromEnd size n = plain (.ok w) ∧
      w.toInt = if n.toInt < 0 then size + n.toInt else n.toInt := by
  unfold fromEnd
  split
  next hneg =>
    have hfits := fitsInt_fromEnd hsize hneg
    refine ⟨_, addWords_eq hfits, ?_⟩
    rw [toInt_add_of_fits hfits, toInt_ofNat_of_lt hsize]
  next => exact ⟨n, rfl, rfl⟩

/-! ### Indexes and slices -/

/-- The position that an index names in a sequence. -/
def position (size : Nat) (index : Value) : Strict Nat :=
  match index with
  | .int raw => do
      let resolved ← fromEnd size raw
      if resolved.toInt < 0 ∨ (Int64.ofNat size).toInt ≤ resolved.toInt then
        fail (.indexOutOfRange raw.toInt)
      else return resolved.toInt.toNat
  | other => fail (.badIndex other.kind)

theorem position_eq {size : Nat} (hsize : size < memoryBytes) (index : Value) :
    position size index = plain (Script.position size index) := by
  cases index with
  | int raw =>
      obtain ⟨w, hw, hresolved⟩ := fromEnd_eq hsize raw
      rw [position, hw, plain_ok_bind, Script.position, hresolved, toInt_ofNat_of_lt hsize]
      exact (apply_ite plain ..).symm
  | _ => rfl

/-- The item of a list, or the character of a text, that an index names. -/
def itemAt (target index : Value) : Strict Value :=
  match target with
  | .list items => do return items.getD (← position items.length index) .absent
  | .str s => do
      let cs := s.toList
      return .str (cs.getD (← position cs.length index) ' ').toString
  | other => fail (.notSubscriptable other.kind)

/-- A list with another item at the position that an index names. -/
def withItem (target index item : Value) : Strict Value :=
  match target with
  | .list items => do return .list (items.set (← position items.length index) item)
  | other => fail (.notAssignable other.kind)

/-- The position at which a bound cuts a sequence. -/
def cutPoint (size : Nat) (bound : Option Value) (fallback : Nat) : Strict Nat :=
  match bound with
  | none => pure fallback
  | some .absent => pure fallback
  | some (.int n) => do
      let resolved ← fromEnd size n
      return min resolved.toInt.toNat size
  | some other => fail (.badSliceBound other.kind)

theorem cutPoint_eq {size : Nat} (hsize : size < memoryBytes) (bound : Option Value)
    (fallback : Nat) : cutPoint size bound fallback = plain (Script.cutPoint size bound fallback) := by
  match bound with
  | some (.int n) =>
      obtain ⟨w, hw, hresolved⟩ := fromEnd_eq hsize n
      rw [cutPoint, hw, plain_ok_bind, Script.cutPoint, hresolved]
      rfl
  | none => rfl
  | some .absent => rfl
  | some (.bool _) => rfl
  | some (.float _) => rfl
  | some (.str _) => rfl
  | some (.list _) => rfl
  | some (.library _) => rfl

/-- The part of a sequence between two bounds. -/
def between (items : List α) (start stop : Option Value) : Strict (List α) := do
  let size := items.length
  let start ← cutPoint size start 0
  let stop ← cutPoint size stop size
  return (items.drop start).take (stop - start)

theorem between_eq {items : List α} (hsize : items.length < memoryBytes) (start stop : Option Value) :
    between items start stop = plain (Script.between items start stop) :=
  bind_eq_plain (cutPoint_eq hsize start 0) fun _ _ =>
    bind_eq_plain (cutPoint_eq hsize stop _) fun _ _ => rfl

/-- The part of a list or a text between two bounds. -/
def slice (target : Value) (start stop : Option Value) : Strict Value :=
  match target with
  | .list items => do return .list (← between items start stop)
  | .str s => do return .str (String.ofList (← between s.toList start stop))
  | other => fail (.notSliceable other.kind)

/-! ### Values that a memory holds -/

end Strict

/-- Whether a memory can hold a value. -/
def Value.Held (v : Value) : Prop := v.sizeBytes < memoryBytes

namespace Value

theorem sizeBytes_ge (v : Value) : 32 ≤ v.sizeBytes := by
  cases v with
  | str s => rw [sizeBytes]; omega
  | list items => rw [sizeBytes_list]; omega
  | _ => exact Nat.le_refl 32

theorem length_le_listSizeBytes (items : List Value) : items.length ≤ listSizeBytes items := by
  induction items with
  | nil => simp
  | cons v rest ih =>
      have hv := sizeBytes_ge v
      rw [listSizeBytes_cons, List.length_cons]
      omega

theorem sizeBytes_le_of_mem {v : Value} {items : List Value} (h : v ∈ items) :
    v.sizeBytes ≤ listSizeBytes items := by
  have hone : [v].Sublist items := List.singleton_sublist.2 h
  simpa using listSizeBytes_sublist hone

variable {items : List Value}

theorem Held.listSizeBytes_lt (h : (Value.list items).Held) : listSizeBytes items < memoryBytes := by
  unfold Held at h
  rw [sizeBytes_list] at h
  omega

theorem Held.length_lt (h : (Value.list items).Held) : items.length < memoryBytes :=
  Nat.lt_of_le_of_lt (length_le_listSizeBytes items) h.listSizeBytes_lt

theorem Held.of_mem (h : (Value.list items).Held) {v : Value} (hv : v ∈ items) : v.Held :=
  Nat.lt_of_le_of_lt (sizeBytes_le_of_mem hv) h.listSizeBytes_lt

theorem Held.utf8ByteSize_lt {s : String} (h : (Value.str s).Held) : s.utf8ByteSize < memoryBytes := by
  unfold Held at h
  rw [sizeBytes] at h
  omega

/-- Each character takes a byte. -/
theorem length_le_utf8Len (cs : List Char) : cs.length ≤ String.utf8Len cs := by
  induction cs with
  | nil => exact Nat.zero_le _
  | cons c rest ih =>
      have hc : 0 < c.utf8Size := c.utf8Size_pos
      rw [String.utf8Len_cons, List.length_cons]
      omega

theorem Held.length_toList_lt {s : String} (h : (Value.str s).Held) :
    s.toList.length < memoryBytes := by
  refine Nat.lt_of_le_of_lt (length_le_utf8Len s.toList) ?_
  rw [String.utf8Len_toList]
  exact h.utf8ByteSize_lt

end Value

namespace Strict
open Value

variable {α β : Type}

theorem itemAt_eq {target : Value} (htarget : target.Held) (index : Value) :
    itemAt target index = plain (Script.itemAt target index) := by
  cases target with
  | list items => exact bind_eq_plain (position_eq htarget.length_lt index) fun _ _ => rfl
  | str s => exact bind_eq_plain (position_eq htarget.length_toList_lt index) fun _ _ => rfl
  | _ => rfl

theorem withItem_eq {target : Value} (htarget : target.Held) (index item : Value) :
    withItem target index item = plain (Script.withItem target index item) := by
  cases target with
  | list items => exact bind_eq_plain (position_eq htarget.length_lt index) fun _ _ => rfl
  | _ => rfl

theorem slice_eq {target : Value} (htarget : target.Held) (start stop : Option Value) :
    slice target start stop = plain (Script.slice target start stop) := by
  cases target with
  | list items => exact map_eq_plain _ (between_eq htarget.length_lt start stop)
  | str s => exact map_eq_plain _ (between_eq htarget.length_toList_lt start stop)
  | _ => rfl

/-! ### Room -/

mutual

/-- The room that a value takes. -/
def measure : Value → Strict Nat
  | .str s => addCounts 32 s.utf8ByteSize
  | .list items => do addCounts 32 (← measureAll items 0)
  | _ => addCounts 32 0

/-- Adds the room of the items to `total`, as far as a word goes. -/
def measureAll : List Value → (total : Nat) → Strict Nat
  | [], total => pure total
  | v :: rest, total => do
      let size ← measure v
      measureAll rest (addSaturating total size)

end

theorem addSaturating_eq {a b : Nat} (h : a + b < words64) : addSaturating a b = a + b := by
  unfold addSaturating
  omega

theorem add_lt_words64 {a b : Nat} (ha : a < memoryBytes) (hb : b < memoryBytes) :
    a + b < words64 := by
  unfold memoryBytes at ha hb
  unfold words64
  omega

mutual

theorem measure_eq : (v : Value) → v.Held → measure v = plain (.ok v.sizeBytes)
  | .str s, h => by
      rw [measure, addCounts_eq (add_lt_words64 (by decide) h.utf8ByteSize_lt), sizeBytes]
  | .list items, h => by
      have hsize := h.listSizeBytes_lt
      rw [measure, measureAll_eq items 0 hsize (add_lt_words64 (by decide) hsize), plain_ok_bind,
        addCounts_eq (add_lt_words64 (by decide) (by rwa [Nat.zero_add])), sizeBytes_list, Nat.zero_add]
  | .absent, _ => rfl
  | .bool _, _ => rfl
  | .int _, _ => rfl
  | .float _, _ => rfl
  | .library _, _ => rfl

theorem measureAll_eq : (items : List Value) → (total : Nat) → listSizeBytes items < memoryBytes →
    total + listSizeBytes items < words64 →
    measureAll items total = plain (.ok (total + listSizeBytes items))
  | [], total, _, _ => by rw [measureAll, listSizeBytes_nil]; rfl
  | v :: rest, total, hsize, htotal => by
      rw [listSizeBytes_cons] at hsize htotal
      have hv : v.Held := by unfold Held; omega
      rw [measureAll, measure_eq v hv, plain_ok_bind, addSaturating_eq (by omega),
        measureAll_eq rest _ (by omega) (by omega), listSizeBytes_cons, Nat.add_assoc]

end

/-- The room that the items of a list take together. -/
def measureList (items : List Value) : Strict Nat := measureAll items 0

theorem measureList_eq {items : List Value} (h : listSizeBytes items < memoryBytes) :
    measureList items = plain (.ok (listSizeBytes items)) := by
  rw [measureList, measureAll_eq items 0 h (add_lt_words64 (by decide) h), Nat.zero_add]

/-! ### Operators -/

/-- The remainder of a division that rounds down. -/
def remainder (a b : Int64) : Strict Int64 :=
  if a % b ≠ 0 ∧ ¬(a % b < 0 ↔ b < 0) then addWords (a % b) b else pure (a % b)

theorem remainder_eq (a : Int64) {b : Int64} (hb : b.toInt ≠ 0) :
    remainder a b = plain (.ok (wordRemainder a b)) := by
  unfold remainder wordRemainder
  split
  next hsigns =>
    exact addWords_eq (fitsInt_corrected hb hsigns)
  next => rfl

/-- The remainder of two numbers. -/
def modulo (left right : Value) : Strict Value :=
  match left, right with
  | .int a, .int b => if b = 0 then fail .moduloByZero else do return .int (← remainder a b)
  | left, right => plain (Script.modulo left right)

theorem modulo_eq (left right : Value) : modulo left right = plain (Script.modulo left right) := by
  unfold modulo
  split
  next a b =>
    split
    next hzero => rw [hzero]; rfl
    next hne =>
      have hb : b.toInt ≠ 0 := fun hzero => hne (Int64.toInt_inj.1 hzero)
      rw [remainder_eq a hb, modulo_eq_wordRemainder a hb]
      rfl
  next => rfl

/-- The sum of numbers, and the concatenation of texts or lists. -/
def add (left right : Value) : Strict Value :=
  match left, right with
  | .list a, .list b => do
      plain (checkItems (← addCounts a.length b.length))
      plain (checkBytes (addSaturating (← measureList a) (← measureList b)))
      return .list (a ++ b)
  | left, right => plain (Script.add left right)

theorem add_eq {left right : Value} (hleft : left.Held) (hright : right.Held) :
    add left right = plain (Script.add left right) := by
  unfold add
  split
  next a b =>
    have hroom := add_lt_words64 hleft.listSizeBytes_lt hright.listSizeBytes_lt
    rw [addCounts_eq (add_lt_words64 hleft.length_lt hright.length_lt), plain_ok_bind]
    refine bind_eq_plain rfl fun _ _ => ?_
    rw [measureList_eq hleft.listSizeBytes_lt, plain_ok_bind, measureList_eq hright.listSizeBytes_lt,
      plain_ok_bind, addSaturating_eq hroom]
    exact bind_eq_plain rfl fun _ _ => rfl
  next => rfl

/-- A list repeated. -/
def repeatList (items : List Value) (count : Nat) : Strict Value := do
  plain (checkItems (min (items.length * count) (words64 - 1)))
  let _ ← measureList items
  plain (Script.repeatList items count)

theorem repeatList_eq {items : List Value} (h : (Value.list items).Held) (count : Nat) :
    repeatList items count = plain (Script.repeatList items count) := by
  unfold repeatList Script.repeatList
  rw [measureList_eq h.listSizeBytes_lt]
  cases hcheck : checkItems (min (items.length * count) (words64 - 1)) with
  | error cause => rfl
  | ok _ => rfl

/-- The product of numbers, and a text or a list repeated. -/
def multiply (left right : Value) : Strict Value :=
  match left, right with
  | .list items, .int n => repeatList items n.toInt.toNat
  | .int n, .list items => repeatList items n.toInt.toNat
  | left, right => plain (Script.multiply left right)

theorem multiply_eq {left right : Value} (hleft : left.Held) (hright : right.Held) :
    multiply left right = plain (Script.multiply left right) := by
  unfold multiply
  split
  next items n => exact repeatList_eq hleft _
  next n items => exact repeatList_eq hright _
  next => rfl

/-- What an operator makes of its operands. -/
def operate (op : BinaryOp) (left right : Value) : Strict Value :=
  match op with
  | .add => add left right
  | .mul => multiply left right
  | .mod => modulo left right
  | op => plain (op.apply left right)

theorem operate_eq (op : BinaryOp) {left right : Value} (hleft : left.Held) (hright : right.Held) :
    operate op left right = plain (op.apply left right) := by
  cases op with
  | add => exact add_eq hleft hright
  | mul => exact multiply_eq hleft hright
  | mod => exact modulo_eq left right
  | _ => rfl

end Strict
end PromptWeave.Script
