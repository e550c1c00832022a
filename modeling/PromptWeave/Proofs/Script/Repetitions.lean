import Mathlib
import PromptWeave.Proofs.Script.Checked
import PromptWeave.Proofs.Script.Operands
import PromptWeave.Script.Parser

/-!
# How often an operand is copied

A product takes one step, however many copies of a text or a list are put together for it. Here the
copies are counted along with the product. The limits on what comes out bound their number, unless there
is nothing to copy: a list without items is gone over as often as the other operand says.
-/
namespace PromptWeave.Script

open PromptWeave (bind_eq_ok)
open PromptWeave.Script.Action

/-! ### Products that count their copies -/

/-- Puts `times` copies of items in front of others, and counts them; `gone` are counted already. -/
def copiesCounted {α : Type} (items : List α) :
    (times gone : Nat) → (behind : List α) → List α × Nat
  | 0, gone, behind => (behind, gone)
  | times + 1, gone, behind => copiesCounted items times (gone + 1) (items ++ behind)

/-- A text repeated, with the number of copies that were gone over. -/
def repeatTextCounted (s : String) (times : Nat) : Outcome (Value × Nat) :=
  if maxTextBytes < s.utf8ByteSize * times then .error .textTooLarge
  else if s.isEmpty then .ok (.str "", 0)
  else
    let (chars, count) := copiesCounted s.toList times 0 []
    .ok (.str (String.ofList chars), count)

/-- A list repeated, with the number of copies that were gone over. -/
def repeatListCounted (items : List Value) (times : Nat) : Outcome (Value × Nat) := do
  checkItems (min (items.length * times) (words64 - 1))
  checkBytes (Value.listSizeBytes items * times)
  let (repeated, count) := copiesCounted items times 0 []
  return (.list repeated, count)

/-- The product of two values, with the number of copies that were gone over for it. -/
def multiplyCounted (left right : Value) : Outcome (Value × Nat) :=
  match left, right with
  | .str s, .int n => repeatTextCounted s n.toInt.toNat
  | .int n, .str s => repeatTextCounted s n.toInt.toNat
  | .list items, .int n => repeatListCounted items n.toInt.toNat
  | .int n, .list items => repeatListCounted items n.toInt.toNat
  | left, right => (·, 0) <$> multiply left right

/-- Whether one of two values is repeated as often as the other says. -/
inductive Repeats (operand : Value) (n : Int64) : Value → Value → Prop where
  | behind : Repeats operand n operand (.int n)
  | before : Repeats operand n (.int n) operand

variable {s : String} {items : List Value} {n : Int64} {left right v : Value} {times count : Nat}

theorem copiesCounted_eq {α : Type} (items : List α) (times gone : Nat) (behind : List α) :
    copiesCounted items times gone behind = (copies items times behind, gone + times) := by
  induction times generalizing gone behind with
  | zero => rfl
  | succ times ih => rw [copiesCounted, ih, copies, Nat.add_assoc, Nat.add_comm 1]

theorem repeatTextCounted_eq (s : String) (times : Nat) :
    repeatTextCounted s times = (·, if s.isEmpty then 0 else times) <$> repeatText s times := by
  unfold repeatTextCounted repeatText
  split
  · rfl
  · split
    · rfl
    · rw [copiesCounted_eq, Nat.zero_add]
      rfl

theorem repeatListCounted_eq (items : List Value) (times : Nat) :
    repeatListCounted items times = (·, times) <$> repeatList items times := by
  unfold repeatListCounted repeatList
  rw [copiesCounted_eq, Nat.zero_add]
  cases checkItems (min (items.length * times) (words64 - 1)) with
  | error cause => rfl
  | ok _ => cases checkBytes (Value.listSizeBytes items * times) <;> rfl

theorem fst_map_pair (x : Outcome Value) (count : Nat) : Prod.fst <$> (·, count) <$> x = x := by
  cases x <;> rfl

/-- The count is taken beside the product and changes nothing about it. -/
theorem fst_multiplyCounted (left right : Value) :
    Prod.fst <$> multiplyCounted left right = multiply left right := by
  unfold multiplyCounted
  split
  · rw [repeatTextCounted_eq, fst_map_pair, multiply]
  · rw [repeatTextCounted_eq, fst_map_pair, multiply]
  · rw [repeatListCounted_eq, fst_map_pair, multiply]
  · rw [repeatListCounted_eq, fst_map_pair, multiply]
  · rw [fst_map_pair]

theorem multiplyCounted_text (h : Repeats (.str s) n left right) :
    multiplyCounted left right = repeatTextCounted s n.toInt.toNat := by
  cases h <;> rfl

theorem multiplyCounted_list (h : Repeats (.list items) n left right) :
    multiplyCounted left right = repeatListCounted items n.toInt.toNat := by
  cases h <;> rfl

/-! ### Bounds -/

theorem map_pair_eq_ok {x : Outcome Value} (h : (·, times) <$> x = .ok (v, count)) :
    x = .ok v ∧ times = count := by
  cases x <;> cases h
  exact ⟨rfl, rfl⟩

/-- A text that is there has a byte at least, so it is copied no more often than there may be bytes. -/
theorem count_le_of_repeatText (h : repeatTextCounted s times = .ok (v, count)) :
    count ≤ maxTextBytes := by
  rw [repeatTextCounted_eq] at h
  obtain ⟨hrepeated, rfl⟩ := map_pair_eq_ok h
  split
  · exact Nat.zero_le _
  · rename_i hempty
    have hbytes : 0 < s.utf8ByteSize := by
      refine Nat.pos_of_ne_zero fun hzero => hempty ?_
      rw [String.isEmpty_iff, ← String.utf8ByteSize_eq_zero_iff, hzero]
    unfold repeatText at hrepeated
    split at hrepeated
    · cases hrepeated
    · rename_i hfits
      exact (Nat.le_mul_of_pos_left times hbytes).trans (Nat.le_of_not_lt hfits)

/-- A list with an item is copied no more often than there may be items. -/
theorem times_le_of_repeatList (hitems : items ≠ []) (h : repeatList items times = .ok v) :
    times ≤ maxItems := by
  obtain ⟨_, hcheck, -⟩ := bind_eq_ok.1 h
  have hfew := gives_checkItems _ _ hcheck
  have hlength : times ≤ items.length * times :=
    Nat.le_mul_of_pos_left times (List.length_pos_of_ne_nil hitems)
  unfold maxItems words64 at *
  omega

/-- There is nothing to copy in a list without items, so nothing is refused. -/
theorem repeatList_nil (times : Nat) : repeatList [] times = .ok (.list []) := by
  have hcopies : copies ([] : List Value) times [] = [] := by
    induction times with
    | zero => rfl
    | succ times ih => exact ih
  have hitems : min (([] : List Value).length * times) (words64 - 1) = 0 := by simp
  have hbytes : Value.listSizeBytes [] * times = 0 := Nat.zero_mul times
  rw [repeatList, hitems, hbytes, hcopies]
  rfl

theorem multiplyCounted_empty (h : Repeats (.list []) n left right) :
    multiplyCounted left right = .ok (.list [], n.toInt.toNat) := by
  rw [multiplyCounted_list h, repeatListCounted_eq, repeatList_nil]
  rfl

/-- The copies that a product goes over are bounded unless a list without items is repeated. Counting them
changes no product, and the steps of a product are those of its operands and one more, so nothing is
charged for them. A text is copied at most as often as texts may have bytes. A list is copied as often as
the number says: with an item in it that is at most as often as lists may have items, and without one any
number of times is accepted. -/
theorem copies_bounded_unless_list_is_empty (left right : Value) :
    Prod.fst <$> multiplyCounted left right = multiply left right ∧
    (∀ limits m e e' m', Operands limits m [e, e'] [left, right] m' →
      HasOutcome limits m (.binary .mul e e') (Prod.fst <$> multiplyCounted left right) m') ∧
    (∀ s n v count, Repeats (.str s) n left right →
      multiplyCounted left right = .ok (v, count) → count ≤ maxTextBytes) ∧
    (∀ items n v count, Repeats (.list items) n left right →
      multiplyCounted left right = .ok (v, count) →
      count = n.toInt.toNat ∧ (count ≤ maxItems ↔ items ≠ [] ∨ n.toInt ≤ maxItems)) ∧
    ∀ n, Repeats (.list []) n left right →
      multiplyCounted left right = .ok (.list [], n.toInt.toNat) := by
  refine ⟨fst_multiplyCounted left right, fun limits m e e' m' h => ?_,
    fun s n v count hrepeats h => ?_, fun items n v count hrepeats h => ?_,
    fun n => multiplyCounted_empty⟩
  · rw [fst_multiplyCounted]
    exact hasOutcome_binary .mul h
  · rw [multiplyCounted_text hrepeats] at h
    exact count_le_of_repeatText h
  · rw [multiplyCounted_list hrepeats, repeatListCounted_eq] at h
    obtain ⟨hrepeated, rfl⟩ := map_pair_eq_ok h
    refine ⟨rfl, fun hle => .inr (by omega), fun hwhy => ?_⟩
    obtain hitems | hsmall := hwhy
    · exact times_le_of_repeatList hitems hrepeated
    · omega

/-- A list without items is repeated a million times in an evaluation of three steps, and gone over as
often, which is more often than any list may have items. -/
theorem empty_list_is_copied_a_million_times :
    let product : Expr := .binary .mul (.list []) (.int 1000000)
    let m : Machine := .start (.ofSeed 0)
    parse "x = [] * 1000000" = .ok [.mk 1 (.assign (.var "x") product)] ∧
      HasOutcome ⟨100, 100⟩ m product (.ok (.list [])) { m with steps := 3 } ∧
      multiplyCounted (.list []) (.int 1000000) = .ok (.list [], 1000000) ∧ maxItems < 1000000 := by
  intro product m
  have hoperands : Operands ⟨100, 100⟩ m [.list [], .int 1000000] [.list [], .int 1000000]
      { m with steps := 3 } :=
    { steps := by decide
      evaluated := rfl }
  have hproduct := hasOutcome_binary .mul hoperands
  change HasOutcome _ m product (multiply (.list []) (.int 1000000)) _ at hproduct
  rw [← fst_multiplyCounted, multiplyCounted_empty .behind] at hproduct
  exact ⟨by cbv, hproduct, multiplyCounted_empty .behind, by decide⟩

end PromptWeave.Script
