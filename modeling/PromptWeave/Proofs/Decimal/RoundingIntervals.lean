import PromptWeave.Decimal.Shortest
import PromptWeave.Proofs.Decimal.Readings

/-!
# Rounding intervals

The numbers that round to a double lie around it, half a unit to each side, but a quarter below a power of
two. The intervals of two doubles do not meet, and a whole number lies in the interval of whole doubles
only.
-/
namespace PromptWeave.Decimal

/-- The absolute value of a double with this mantissa and this exponent. -/
def magnitudeOf (m : Nat) (e : Int) : ℚ := m * 2 ^ e

/-- How many quarters of a unit the interval reaches down. -/
def quartersBelow (m : Nat) (e : Int) : Nat := if m = unitCount ∧ -1074 < e then 1 else 2

/-- Whether a number rounds to the double with this mantissa and this exponent. -/
def RoundsTo (q : ℚ) (m : Nat) (e : Int) : Prop :=
  if m % 2 = 0 then (4 * m - quartersBelow m e) * 2 ^ e ≤ 4 * q ∧ 4 * q ≤ (4 * m + 2) * 2 ^ e
  else (4 * m - quartersBelow m e) * 2 ^ e < 4 * q ∧ 4 * q < (4 * m + 2) * 2 ^ e

variable {m m' : Nat} {e e' : Int} {q : ℚ}

theorem fraction_den_pos (m : Nat) (e : Int) : 0 < (fraction m e).2 := by
  rw [fraction]
  split
  · exact Nat.one_pos
  · exact Nat.two_pow_pos _

/-- A fraction of natural numbers for the absolute value of a double. -/
theorem fraction_num (m : Nat) (e : Int) :
    ((fraction m e).1 : ℚ) = magnitudeOf m e * (fraction m e).2 := by
  rw [fraction, magnitudeOf]
  split
  · rename_i he
    obtain ⟨k, rfl⟩ := Int.eq_ofNat_of_zero_le he
    simp
  · rename_i he
    obtain ⟨k, rfl⟩ : ∃ k : Nat, e = -k := ⟨(-e).toNat, by omega⟩
    simp [zpow_neg]

/-- Whether a double is whole can be told from its fraction. -/
theorem whole_iff : (fraction m e).1 % (fraction m e).2 = 0 ↔ ∃ n : Nat, magnitudeOf m e = n := by
  have hden : ((fraction m e).2 : ℚ) ≠ 0 := by exact_mod_cast (fraction_den_pos m e).ne'
  have hnum := fraction_num m e
  constructor
  · intro h
    obtain ⟨n, hn⟩ := Nat.dvd_of_mod_eq_zero h
    refine ⟨n, mul_right_cancel₀ hden ?_⟩
    rw [← hnum, hn]
    push_cast
    ring
  · rintro ⟨n, hn⟩
    rw [hn] at hnum
    have hnum : (fraction m e).1 = n * (fraction m e).2 := by exact_mod_cast hnum
    rw [hnum, Nat.mul_mod_left]

theorem quartersBelow_le : 1 ≤ quartersBelow m e ∧ quartersBelow m e ≤ 2 := by
  rw [quartersBelow]
  split <;> omega

theorem roundsTo_magnitudeOf : RoundsTo (magnitudeOf m e) m e := by
  have hunit : (0 : ℚ) < 2 ^ e := by positivity
  have hbelow : (1 : ℚ) ≤ quartersBelow m e := by exact_mod_cast quartersBelow_le.1
  rw [RoundsTo, magnitudeOf]
  split
  · constructor <;> nlinarith
  · constructor <;> nlinarith

/-- What lies below a double and does not round to it lies below its interval. -/
theorem le_of_not_roundsTo (hq : q ≤ magnitudeOf m e) (h : ¬RoundsTo q m e) :
    4 * q ≤ (4 * m - quartersBelow m e) * 2 ^ e := by
  have hunit : (0 : ℚ) < 2 ^ e := by positivity
  have hhigh : 4 * q < (4 * m + 2) * 2 ^ e := by
    rw [magnitudeOf] at hq
    linarith
  by_contra hlow
  rw [not_le] at hlow
  refine h ?_
  rw [RoundsTo]
  split
  · exact ⟨hlow.le, hhigh.le⟩
  · exact ⟨hlow, hhigh⟩

/-- What lies above a double and does not round to it lies above its interval. -/
theorem ge_of_not_roundsTo (hq : magnitudeOf m e ≤ q) (h : ¬RoundsTo q m e) :
    (4 * m + 2) * 2 ^ e ≤ 4 * q := by
  have hunit : (0 : ℚ) < 2 ^ e := by positivity
  have hbelow : (1 : ℚ) ≤ quartersBelow m e := by exact_mod_cast quartersBelow_le.1
  have hlow : (4 * m - quartersBelow m e) * 2 ^ e < 4 * q := by
    rw [magnitudeOf] at hq
    nlinarith
  by_contra hhigh
  rw [not_le] at hhigh
  refine h ?_
  rw [RoundsTo]
  split
  · exact ⟨hlow.le, hhigh.le⟩
  · exact ⟨hlow, hhigh⟩

theorem RoundsTo.bounds (h : RoundsTo q m e) :
    (4 * m - quartersBelow m e) * 2 ^ e ≤ 4 * q ∧ 4 * q ≤ (4 * m + 2) * 2 ^ e := by
  rw [RoundsTo] at h
  split at h
  · exact h
  · exact ⟨h.1.le, h.2.le⟩

theorem RoundsTo.strict (h : RoundsTo q m e) (hodd : m % 2 = 1) :
    (4 * m - quartersBelow m e) * 2 ^ e < 4 * q ∧ 4 * q < (4 * m + 2) * 2 ^ e := by
  rwa [RoundsTo, if_neg (by omega)] at h

/-- No number is in an interval and in one behind it. Where they meet, one of them is without its ends. -/
theorem RoundsTo.not_behind {d : Nat} (h : RoundsTo q m e) (h' : RoundsTo q m' (e + d))
    (hends : 4 * m + 2 ≤ (4 * m' - quartersBelow m' (e + d) : ℤ) * 2 ^ d)
    (hmeet : 4 * m + 2 = (4 * m' - quartersBelow m' (e + d) : ℤ) * 2 ^ d → m % 2 = 1 ∨ m' % 2 = 1) :
    False := by
  have hunit : (0 : ℚ) < 2 ^ e := by positivity
  have hshift : (2 : ℚ) ^ (e + d) = 2 ^ d * 2 ^ e := by
    rw [add_comm, zpow_add₀ two_ne_zero, zpow_natCast]
  obtain ⟨-, hhigh⟩ := h.bounds
  obtain ⟨hlow, -⟩ := h'.bounds
  have hlow' : (4 * m' - quartersBelow m' (e + d) : ℚ) * 2 ^ d * 2 ^ e ≤ 4 * q := by
    rwa [hshift, ← mul_assoc] at hlow
  rcases hends.lt_or_eq with hlt | heq
  · have hlt : (4 * m + 2 : ℚ) < (4 * m' - quartersBelow m' (e + d)) * 2 ^ d := by exact_mod_cast hlt
    exact absurd (mul_lt_mul_of_pos_right hlt hunit) (hlow'.trans hhigh).not_gt
  · have heq' : (4 * m + 2 : ℚ) = (4 * m' - quartersBelow m' (e + d)) * 2 ^ d := by exact_mod_cast heq
    rcases hmeet heq with hodd | hodd
    · have hstrict := (h.strict hodd).2
      rw [heq'] at hstrict
      exact hlow'.not_gt hstrict
    · have hstrict := (h'.strict hodd).1
      rw [hshift, ← mul_assoc, ← heq'] at hstrict
      exact hhigh.not_gt hstrict

/-- A number does not round to two doubles with different exponents. -/
theorem RoundsTo.not_lt_exponent (hm : Canonical m e) (hm' : Canonical m' e') (h : RoundsTo q m e)
    (h' : RoundsTo q m' e') : ¬e < e' := by
  intro hlt
  obtain ⟨d, rfl⟩ : ∃ d : Nat, e' = e + (d + 1 : Nat) := ⟨(e' - e - 1).toNat, by omega⟩
  have hleast := hm.least_le
  have hunits := hm'.units_le.resolve_left (by omega)
  have hlt := hm.lt_units
  have hfirst : (4 * unitCount - 1 : ℤ) ≤ 4 * m' - quartersBelow m' (e + (d + 1 : Nat)) := by
    rw [quartersBelow]
    split <;> omega
  have hpow : (2 : ℤ) ≤ 2 ^ (d + 1) := by
    rw [pow_succ]
    exact le_mul_of_one_le_left (by decide) (one_le_pow₀ (by decide))
  have hlow : (8 * unitCount - 2 : ℤ) ≤ (4 * m' - quartersBelow m' (e + (d + 1 : Nat))) * 2 ^ (d + 1) :=
    calc (8 * unitCount - 2 : ℤ) = (4 * unitCount - 1) * 2 := by ring
      _ ≤ _ := mul_le_mul hfirst hpow (by decide) (by simp only [unitCount] at hfirst; omega)
  exact h.not_behind h' (by omega) fun hmeet => .inl (by omega)

/-- A number does not round to two doubles with one exponent. -/
theorem RoundsTo.not_lt_mantissa (h : RoundsTo q m e) (h' : RoundsTo q m' e) : ¬m < m' := by
  intro hlt
  have hshift : e + (0 : Nat) = e := add_zero e
  have hbelow : quartersBelow m' e ≤ 2 := quartersBelow_le.2
  refine RoundsTo.not_behind (d := 0) h (hshift.symm ▸ h') ?_ ?_ <;> rw [hshift, pow_zero, mul_one] <;> omega

/-- A number rounds to one double only. -/
theorem RoundsTo.unique (hm : Canonical m e) (hm' : Canonical m' e') (h : RoundsTo q m e)
    (h' : RoundsTo q m' e') : m = m' ∧ e = e' := by
  obtain rfl : e = e' :=
    le_antisymm (not_lt.1 (h'.not_lt_exponent hm' hm h)) (not_lt.1 (h.not_lt_exponent hm hm' h'))
  exact ⟨le_antisymm (not_lt.1 (h'.not_lt_mantissa h)) (not_lt.1 (h.not_lt_mantissa h')), rfl⟩

/-- A whole number rounds to a double that is no multiple of one only if it is that double. -/
theorem RoundsTo.eq_of_whole {n : Nat} (h : RoundsTo n m e) (he : e < 0) : magnitudeOf m e = n := by
  obtain ⟨k, rfl⟩ : ∃ k : Nat, e = -k := ⟨(-e).toNat, by omega⟩
  have hunit : (0 : ℚ) < 2 ^ (-k : ℤ) := by positivity
  have hn : (n : ℚ) = (n * 2 ^ k : Nat) * 2 ^ (-k : ℤ) := by
    rw [zpow_neg, zpow_natCast]
    push_cast
    field_simp
  obtain ⟨hlow, hhigh⟩ := h.bounds
  rw [hn, ← mul_assoc] at hlow hhigh
  have hlow : (4 * m - quartersBelow m (-k) : ℤ) ≤ 4 * (n * 2 ^ k : Nat) := by
    exact_mod_cast le_of_mul_le_mul_right hlow hunit
  have hhigh : 4 * (n * 2 ^ k) ≤ 4 * m + 2 := by
    exact_mod_cast le_of_mul_le_mul_right hhigh hunit
  have hbelow : quartersBelow m (-k) ≤ 2 := quartersBelow_le.2
  have hm : m = n * 2 ^ k := by omega
  rw [magnitudeOf, hn, ← hm]

end PromptWeave.Decimal
