import Mathlib.Algebra.Order.Ring.Int
import PromptWeave.Script.Operators

/-!
# Integers of 64 bits

Which integers fit into 64 bits with a sign, and what words of 64 bits make of sums and products. Words
add and multiply modulo `2 ^ 64`, which is exact wherever the exact result fits.
-/
namespace PromptWeave.Script

theorem fitsInt_iff {n : Int} : fitsInt n = true ↔ -2 ^ 63 ≤ n ∧ n ≤ 2 ^ 63 - 1 := by
  rw [fitsInt, Bool.and_eq_true, decide_eq_true_iff, decide_eq_true_iff]
  rfl

theorem fitsInt_toInt (w : Int64) : fitsInt w.toInt = true :=
  fitsInt_iff.2 ⟨w.le_toInt, Int.le_sub_one_of_lt w.toInt_lt⟩

/-- The word of an integer that fits is that integer. -/
theorem toInt_ofInt_of_fits {n : Int} (h : fitsInt n = true) : (Int64.ofInt n).toInt = n := by
  obtain ⟨hlow, hhigh⟩ := fitsInt_iff.1 h
  exact Int64.toInt_ofInt_of_le hlow (Int.lt_of_le_sub_one hhigh)

theorem exactInt_of_fits {n : Int} (h : fitsInt n = true) :
    exactInt n = .ok (.int (Int64.ofInt n)) := if_pos h

theorem exactInt_of_not_fits {n : Int} (h : ¬fitsInt n = true) :
    exactInt n = .error .integerOverflow := if_neg h

@[simp] theorem exactInt_toInt (w : Int64) : exactInt w.toInt = .ok (.int w) := by
  rw [exactInt_of_fits (fitsInt_toInt w), Int64.ofInt_toInt]

theorem ofInt_add_toInt (a b : Int64) : Int64.ofInt (a.toInt + b.toInt) = a + b := by
  rw [Int64.ofInt_add, Int64.ofInt_toInt, Int64.ofInt_toInt]

theorem toInt_add_of_fits {a b : Int64} (h : fitsInt (a.toInt + b.toInt) = true) :
    (a + b).toInt = a.toInt + b.toInt := by
  rw [← ofInt_add_toInt, toInt_ofInt_of_fits h]

theorem toInt_mul_of_fits {a b : Int64} (h : fitsInt (a.toInt * b.toInt) = true) :
    (a * b).toInt = a.toInt * b.toInt := by
  rw [← toInt_ofInt_of_fits h, Int64.ofInt_mul, Int64.ofInt_toInt, Int64.ofInt_toInt]

end PromptWeave.Script
