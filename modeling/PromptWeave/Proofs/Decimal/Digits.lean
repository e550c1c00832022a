import PromptWeave.Decimal.Text

/-!
# The digits of numbers

A number is written by at least one digit, the digits say which number it is, and only zero itself
begins with a zero.
-/
namespace PromptWeave.Decimal

theorem exists_digits (n : Nat) : ∃ d ds, Nat.toDigits 10 n = d :: ds ∧ d.isDigit = true ∧
    ∀ c ∈ ds, c.isDigit = true := by
  have hdigits : ∀ c ∈ Nat.toDigits 10 n, c.isDigit = true :=
    fun c => Nat.isDigit_of_mem_toDigits (by decide) (by decide)
  cases hcs : Nat.toDigits 10 n with
  | nil => exact absurd hcs Nat.toDigits_ne_nil
  | cons d ds =>
      rw [hcs] at hdigits
      exact ⟨d, ds, rfl, List.forall_mem_cons.1 hdigits⟩

theorem digitsValue_toDigits (n : Nat) : digitsValue (Nat.toDigits 10 n) = n := by
  have hvalue := Nat.ofDigitChars_ten_toDigits (n := n)
  simpa [Nat.ofDigitChars_eq_foldl, digitsValue, Nat.mul_comm] using hvalue

/-- No number of several digits begins with a zero. -/
theorem toDigits_ne_zero_cons (n : Nat) (d : Char) (ds : List Char) :
    Nat.toDigits 10 n ≠ '0' :: d :: ds := by
  induction n using Nat.strongRecOn generalizing d ds with
  | _ n ih =>
      intro hdigits
      by_cases hone : n < 10
      · rw [Nat.toDigits_of_lt_base hone] at hdigits
        exact absurd (congrArg List.length hdigits) (by simp)
      · have hfront := Nat.toDigits_of_base_le (by decide : 1 < 10) (Nat.not_lt.1 hone)
        rw [hdigits] at hfront
        cases hfirst : Nat.toDigits 10 (n / 10) with
        | nil => exact Nat.toDigits_ne_nil hfirst
        | cons e es =>
            rw [hfirst, List.cons_append] at hfront
            obtain ⟨rfl, hrest⟩ := List.cons.inj hfront
            cases es with
            | nil =>
                have hvalue := digitsValue_toDigits (n / 10)
                rw [hfirst] at hvalue
                have hzero : n / 10 = 0 := hvalue.symm
                omega
            | cons e' es' => exact ih (n / 10) (by omega) e' es' hfirst

end PromptWeave.Decimal
