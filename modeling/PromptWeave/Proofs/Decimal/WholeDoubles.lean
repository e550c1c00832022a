import PromptWeave.Proofs.Decimal.Integers
import PromptWeave.Proofs.Decimal.RoundingIntervals

/-!
# Whole doubles

A whole double has an integer for its value, and two of them are equal if they have the same. The double
nearest to an integer is whole, and it has that integer for its value unless this is too great.
-/
namespace PromptWeave.Decimal

/-- Whether the value of a double is an integer. -/
def HasValue (x : Float) (z : Int) : Prop :=
  ∃ negative m e n, read x = .finite negative m e ∧ magnitudeOf m e = (n : Nat) ∧
    z = if negative then -(n : Int) else n

variable {x y : Float} {z w : Int} {negative : Bool} {m m' : Nat} {e e' : Int}

/-- A double with a mantissa of zero has the least exponent. -/
theorem Canonical.eq_of_zero (h : Canonical 0 e) : e = -1074 :=
  h.units_le.resolve_right (by decide)

theorem magnitudeOf_eq_zero : magnitudeOf m e = 0 ↔ m = 0 := by
  rw [magnitudeOf, mul_eq_zero, Nat.cast_eq_zero, or_iff_left]
  positivity

/-- Doubles with the same absolute value have the same mantissa and the same exponent. -/
theorem magnitudeOf_inj (h : Canonical m e) (h' : Canonical m' e')
    (heq : magnitudeOf m e = magnitudeOf m' e') : m = m' ∧ e = e' :=
  roundsTo_magnitudeOf.unique h h' (heq ▸ roundsTo_magnitudeOf)

/-- Whole doubles are equal if their values are. -/
theorem HasValue.beq_iff (hx : HasValue x z) (hy : HasValue y w) : (x == y) = true ↔ z = w := by
  obtain ⟨s, m, e, n, hx, hn, rfl⟩ := hx
  obtain ⟨t, m', e', n', hy, hn', rfl⟩ := hy
  have hcanonical := canonical_of_read hx
  have hcanonical' := canonical_of_read hy
  rw [beq_iff_read, hx, hy]
  constructor
  · rintro ⟨-, heq | ⟨s', t', heq, heq'⟩⟩
    · cases heq
      obtain rfl : n = n' := by exact_mod_cast hn.symm.trans hn'
      rfl
    · cases heq
      cases heq'
      have hzero : n = 0 := by exact_mod_cast hn.symm.trans (magnitudeOf_eq_zero.2 rfl)
      have hzero' : n' = 0 := by exact_mod_cast hn'.symm.trans (magnitudeOf_eq_zero.2 rfl)
      simp [hzero, hzero']
  · intro heq
    refine ⟨by simp, ?_⟩
    obtain rfl : n = n' := by
      cases s <;> cases t <;> simp at heq <;> omega
    obtain ⟨rfl, rfl⟩ := magnitudeOf_inj hcanonical hcanonical' (hn.trans hn'.symm)
    by_cases hzero : n = 0
    · subst hzero
      obtain rfl := magnitudeOf_eq_zero.1 (hn.trans Nat.cast_zero)
      obtain rfl := hcanonical.eq_of_zero
      exact .inr ⟨s, t, rfl, rfl⟩
    · refine .inl ?_
      cases s <;> cases t <;> simp at heq ⊢ <;> omega

/-- What is equal to a whole double has its value. -/
theorem HasValue.of_beq (hx : HasValue x z) (h : (x == y) = true) : HasValue y z := by
  obtain ⟨s, m, e, n, hx, hn, rfl⟩ := hx
  obtain ⟨-, heq | ⟨s', t, hs, ht⟩⟩ := beq_iff_read.1 h
  · exact ⟨s, m, e, n, heq ▸ hx, hn, rfl⟩
  · cases hx.symm.trans hs
    obtain rfl : n = 0 := by exact_mod_cast hn.symm.trans (magnitudeOf_eq_zero.2 rfl)
    exact ⟨t, 0, -1074, 0, ht, hn, by cases s <;> cases t <;> rfl⟩

theorem HasValue.abs_lt_iff (h : HasValue x z) : x.abs < 9.0e15 ↔ z.natAbs < 9000000000000000 := by
  obtain ⟨s, m, e, n, hx, hn, rfl⟩ := h
  have hcanonical := canonical_of_read hx
  have habs : (if s then -(n : Int) else n).natAbs = n := by cases s <;> simp
  rw [Decimal.abs_lt_iff hx, habs]
  have hlt := hcanonical.lt_units
  simp only [unitCount] at hlt
  rw [magnitudeOf] at hn
  rcases lt_trichotomy e 0 with he | rfl | he
  · -- Below the units a whole number is at most half of the mantissa.
    obtain ⟨k, rfl⟩ : ∃ k : Nat, e = -(k + 1 : Nat) := ⟨(-e - 1).toNat, by omega⟩
    have hm : m = n * 2 ^ (k + 1) := by
      rw [zpow_neg, zpow_natCast, ← div_eq_mul_inv, div_eq_iff (by positivity)] at hn
      exact_mod_cast hn
    have hhalf : n * 2 ≤ m := hm ▸ Nat.mul_le_mul_left n (Nat.le_self_pow (by omega) 2)
    exact iff_of_true (.inl he) (by omega)
  · obtain rfl : m = n := by simpa using hn
    simp
  · obtain ⟨k, rfl⟩ : ∃ k : Nat, e = (k + 1 : Nat) := ⟨(e - 1).toNat, by omega⟩
    have hm : n = m * 2 ^ (k + 1) := by
      rw [zpow_natCast] at hn
      exact_mod_cast hn.symm
    have hunits := hcanonical.units_le.resolve_left (by omega)
    simp only [unitCount] at hunits
    have htwice : m * 2 ≤ n := hm ▸ Nat.mul_le_mul_left m (Nat.le_self_pow (by omega) 2)
    exact iff_of_false (by omega) (by omega)

theorem isWhole_iff : isWhole x = true ↔ ∃ z, HasValue x z := by
  constructor
  · intro h
    rw [isWhole] at h
    cases hx : read x with
    | infinite => simp [hx] at h
    | notANumber => simp [hx] at h
    | finite s m e =>
        obtain ⟨n, hn⟩ := whole_iff.1 (by simpa [hx] using h)
        exact ⟨_, s, m, e, n, hx, hn, rfl⟩
  · rintro ⟨z, s, m, e, n, hx, hn, -⟩
    rw [isWhole, hx]
    simpa using whole_iff.2 ⟨n, hn⟩

/-- A whole double is rounded to its value. -/
theorem HasValue.round? (h : HasValue x z) : round? .truncate x = some z := by
  obtain ⟨s, m, e, n, hx, hn, rfl⟩ := h
  have hden := fraction_den_pos m e
  have hnum : (fraction m e).1 = n * (fraction m e).2 := by
    have hnum := fraction_num m e
    rw [hn] at hnum
    exact_mod_cast hnum
  rw [Decimal.round?, hx]
  simp only [Rounding.apply, hnum]
  have hdiv : Int.tdiv (n * (fraction m e).2 : Nat) (fraction m e).2 = n := by
    push_cast
    exact Int.mul_tdiv_cancel _ (by omega)
  cases s
  · exact congrArg some hdiv
  · exact congrArg some ((Int.neg_tdiv ..).trans (congrArg Neg.neg hdiv))

/-- The value of the double nearest to an integer. -/
theorem exists_hasValue_nearestFloat (n : Int64) : ∃ z, HasValue (nearestFloat n) z ∧
    (z = n.toInt ∨ 2 ^ 53 ≤ z.natAbs ∧ 2 ^ 53 ≤ n.toInt.natAbs) := by
  obtain ⟨m, e, hread, ⟨-, he, hm⟩ | ⟨hn, he, hm⟩⟩ := read_nearestFloat n
  · refine ⟨n.toInt, ⟨_, m, e, n.toInt.natAbs, hread, ?_, ?_⟩, .inl rfl⟩
    · obtain ⟨k, rfl⟩ : ∃ k : Nat, e = -k := ⟨(-e).toNat, by omega⟩
      rw [magnitudeOf, hm, zpow_neg, zpow_natCast]
      simp
    · by_cases hneg : n.toInt < 0
      · simp only [hneg, decide_true, if_true]
        omega
      · simp only [hneg, decide_false, Bool.false_eq_true, if_false]
        omega
  · obtain ⟨k, rfl⟩ : ∃ k : Nat, e = (k + 1 : Nat) := ⟨(e - 1).toNat, by omega⟩
    refine ⟨_, ⟨_, m, (k + 1 : Nat), m * 2 ^ (k + 1), hread, ?_, rfl⟩, .inr ⟨?_, hn⟩⟩
    · rw [magnitudeOf, zpow_natCast]
      push_cast
      rfl
    · have htwice : m * 2 ≤ m * 2 ^ (k + 1) := Nat.mul_le_mul_left m (Nat.le_self_pow (by omega) 2)
      simp only [unitCount] at hm
      by_cases hneg : n.toInt < 0
      · simp only [hneg, decide_true, if_true, Int.natAbs_neg, Int.natAbs_natCast]
        omega
      · simp only [hneg, decide_false, Bool.false_eq_true, if_false, Int.natAbs_natCast]
        omega

end PromptWeave.Decimal
