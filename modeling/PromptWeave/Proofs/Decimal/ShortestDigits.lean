import PromptWeave.Proofs.Decimal.RoundingIntervals

/-!
# The shortest digits

The digits that are found for a double write a number that rounds to it. Seventeen digits are always
enough: then the grid of the decimals is finer than the doubles are apart.
-/
namespace PromptWeave.Decimal

/-- The number that digits write. -/
def Digits.value (d : Digits) : ℚ := d.digits * 10 ^ d.exponent

variable {m n : Nat} {e k : Int}

/-- What is compared with the ends of an interval, as a fraction. -/
theorem exists_scaled (n den : Nat) (k : Int) :
    ∃ a b : Nat, (if 0 ≤ k then (n * Nat.pow 10 k.toNat * den, 1) else (n * den, Nat.pow 10 (-k).toNat)) =
      (a, b) ∧ (0 : ℚ) < b ∧ (a : ℚ) = (Digits.mk n k).value * den * b := by
  rw [Digits.value]
  split
  · rename_i hk
    obtain ⟨j, rfl⟩ := Int.eq_ofNat_of_zero_le hk
    exact ⟨_, _, rfl, by simp, by simp⟩
  · rename_i hk
    obtain ⟨j, rfl⟩ : ∃ j : Nat, k = -j := ⟨(-k).toNat, by omega⟩
    refine ⟨_, _, rfl, by simp, ?_⟩
    simp only [neg_neg, Int.toNat_natCast, zpow_neg, zpow_natCast, Nat.pow_eq, Nat.cast_pow, Nat.cast_mul,
      Nat.cast_ofNat]
    field_simp

theorem holds_iff (i : Interval) (n : Nat) (k : Int) : i.holds n k = true ↔
    if i.closed then (i.low : ℚ) ≤ (Digits.mk n k).value * i.den ∧ (Digits.mk n k).value * i.den ≤ i.high
    else (i.low : ℚ) < (Digits.mk n k).value * i.den ∧ (Digits.mk n k).value * i.den < i.high := by
  obtain ⟨a, b, hab, hb, ha⟩ := exists_scaled n i.den k
  have hle (x : Nat) : x * b ≤ a ↔ (x : ℚ) ≤ (Digits.mk n k).value * i.den := by
    rw [← Nat.cast_le (α := ℚ), Nat.cast_mul, ha, mul_le_mul_iff_of_pos_right hb]
  have hge (x : Nat) : a ≤ x * b ↔ (Digits.mk n k).value * i.den ≤ x := by
    rw [← Nat.cast_le (α := ℚ), Nat.cast_mul, ha, mul_le_mul_iff_of_pos_right hb]
  have hlt (x : Nat) : x * b < a ↔ (x : ℚ) < (Digits.mk n k).value * i.den := by
    rw [← not_le, ← not_le, hge]
  have hgt (x : Nat) : a < x * b ↔ (Digits.mk n k).value * i.den < x := by
    rw [← not_le, ← not_le, hle]
  rw [Interval.holds, hab]
  dsimp only
  cases i.closed
  · simp only [Bool.false_eq_true, if_false, Bool.and_eq_true, decide_eq_true_eq, hlt, hgt]
  · simp only [if_true, Bool.and_eq_true, decide_eq_true_eq, hle, hge]

theorem holds_ofBinary_iff (hm : 0 < m) :
    (Interval.ofBinary m e).holds n k = true ↔ RoundsTo (Digits.mk n k).value m e := by
  have hbelow : (if (m == unitCount && decide (-1074 < e)) = true then 1 else 2) = quartersBelow m e := by
    simp [quartersBelow]
  have hle : quartersBelow m e ≤ 4 * m := by
    have := (quartersBelow_le (m := m) (e := e)).2
    omega
  have hden := fraction_den_pos 1 e
  have hnum := fraction_num 1 e
  have hdenq : (0 : ℚ) < (fraction 1 e).2 := by exact_mod_cast hden
  rw [magnitudeOf, Nat.cast_one, one_mul] at hnum
  rw [holds_iff, Interval.ofBinary]
  simp only [hbelow, beq_iff_eq]
  rw [RoundsTo]
  push_cast [hle]
  have hvalue : (Digits.mk n k).value * (4 * (fraction 1 e).2) = 4 * (Digits.mk n k).value * (fraction 1 e).2 := by
    ring
  simp only [hnum, hvalue, ← mul_assoc, mul_le_mul_iff_of_pos_right hdenq, mul_lt_mul_iff_of_pos_right hdenq]

/-! ### The grid that is fine enough -/

theorem ltPowTen_iff (a b : Nat) (k : Int) :
    ltPowTen a b k = true ↔ (a : ℚ) < 10 ^ k * b := by
  rw [ltPowTen]
  split
  · rename_i hk
    obtain ⟨j, rfl⟩ := Int.eq_ofNat_of_zero_le hk
    rw [decide_eq_true_eq, ← Nat.cast_lt (α := ℚ)]
    simp [mul_comm]
  · rename_i hk
    obtain ⟨j, rfl⟩ : ∃ j : Nat, k = -j := ⟨(-k).toNat, by omega⟩
    rw [decide_eq_true_eq, ← Nat.cast_lt (α := ℚ)]
    have hpow : (0 : ℚ) < 10 ^ j := by positivity
    simp [zpow_neg, ← div_eq_inv_mul, lt_div_iff₀ hpow]

/-- Powers of two bases are compared by one comparison of such powers. -/
theorem pow_le_pow_of_mul_le {a b i j p q : Nat} (hi : i ≠ 0) (hb : 0 < b) (h : a ^ i ≤ b ^ j)
    (hpq : j * p ≤ i * q) : a ^ p ≤ b ^ q := by
  rw [← Nat.pow_le_pow_iff_left hi, ← pow_mul, ← pow_mul, mul_comm p, mul_comm q, pow_mul]
  calc (a ^ i) ^ p ≤ (b ^ j) ^ p := Nat.pow_le_pow_left h p
    _ = b ^ (j * p) := (pow_mul ..).symm
    _ ≤ b ^ (i * q) := Nat.pow_le_pow_right hb hpq

/-- The estimate that the binary length gives is at most two too great. -/
theorem pow_ten_le_of_estimate {L : Int} (hlow : -1200 ≤ L) (hhigh : L ≤ 1200) :
    (10 : ℚ) ^ (Int.fdiv (L * 30103) 100000 - 2) ≤ 2 ^ (L - 1) := by
  rw [Int.fdiv_eq_ediv_of_nonneg _ (by decide)]
  rcases le_or_gt 0 (L * 30103 / 100000 - 2) with hten | hten
  · obtain ⟨p, hp⟩ := Int.eq_ofNat_of_zero_le hten
    obtain ⟨q, hq⟩ := Int.eq_ofNat_of_zero_le (by omega : 0 ≤ L - 1)
    have hpow : 10 ^ p ≤ 2 ^ q :=
      pow_le_pow_of_mul_le (i := 3) (j := 10) (by decide) (by decide) (by decide) (by omega)
    rw [hp, hq]
    exact_mod_cast hpow
  · rcases le_or_gt 0 (L - 1) with htwo | htwo
    · exact (zpow_le_one_of_nonpos₀ (by norm_num) hten.le).trans (one_le_zpow₀ (by norm_num) htwo)
    · obtain ⟨p, hp⟩ := Int.eq_ofNat_of_zero_le (by omega : 0 ≤ -(L * 30103 / 100000 - 2))
      obtain ⟨q, hq⟩ := Int.eq_ofNat_of_zero_le (by omega : 0 ≤ -(L - 1))
      have hpow : 2 ^ q ≤ 10 ^ p :=
        pow_le_pow_of_mul_le (i := 93) (j := 28) (by decide) (by decide) (by decide) (by omega)
      rw [← neg_neg (L * 30103 / 100000 - 2), ← neg_neg (L - 1), hp, hq, zpow_neg, zpow_neg]
      refine inv_anti₀ (by positivity) ?_
      exact_mod_cast hpow

/-- Of powers that are looked through from one that is not too great on, the one before the first that is
too great is taken. -/
theorem pow_le_of_find {a b : Nat} {d : Int} (n : Nat) {k : Int} (hfirst : (10 : ℚ) ^ (k - 1) * b ≤ a)
    (hd : d ≤ k + n) :
    (10 : ℚ) ^ ((((List.range n).map fun (i : Nat) => k + (i : Int)).find? (ltPowTen a b)).getD d - 1) * b ≤
      a := by
  induction n generalizing k with
  | zero =>
      refine le_trans ?_ hfirst
      have hpow : (10 : ℚ) ^ (d - 1) ≤ 10 ^ (k - 1) := zpow_le_zpow_right₀ (by norm_num) (by omega)
      exact mul_le_mul_of_nonneg_right hpow b.cast_nonneg
  | succ n ih =>
      have hrange : (List.range (n + 1)).map (fun (i : Nat) => k + (i : Int)) =
          k :: (List.range n).map fun (i : Nat) => k + 1 + (i : Int) := by
        rw [List.range_succ_eq_map, List.map_cons, List.map_map]
        congr 1
        · simp
        · refine List.map_congr_left fun i _ => ?_
          simp only [Function.comp_apply, Nat.succ_eq_add_one]
          omega
      rw [hrange]
      cases hk : ltPowTen a b k with
      | true => rwa [List.find?_cons_of_pos hk]
      | false =>
          have hge : ¬ltPowTen a b k = true := by simp [hk]
          rw [List.find?_cons_of_neg hge]
          rw [ltPowTen_iff, not_lt] at hge
          exact ih (by rwa [add_sub_cancel_right]) (by omega)

/-- The magnitude is not too great. -/
theorem pow_ten_le_of_magnitude {a b : Nat} (ha : 0 < a) (hlow : -1200 ≤ (a.log2 : Int) - b.log2)
    (hhigh : (a.log2 : Int) - b.log2 ≤ 1200) : (10 : ℚ) ^ (magnitude a b - 1) * b ≤ a := by
  refine pow_le_of_find 5 ?_ (by omega)
  rw [sub_sub]
  calc (10 : ℚ) ^ (Int.fdiv (((a.log2 : Int) - b.log2) * 30103) 100000 - 2) * b
      ≤ 2 ^ ((a.log2 : Int) - b.log2 - 1) * b :=
        mul_le_mul_of_nonneg_right (pow_ten_le_of_estimate hlow hhigh) b.cast_nonneg
    _ ≤ 2 ^ ((a.log2 : Int) - b.log2 - 1) * 2 ^ ((b.log2 : Int) + 1) := by
        refine mul_le_mul_of_nonneg_left ?_ (by positivity)
        exact_mod_cast (Nat.lt_log2_self (n := b)).le
    _ = 2 ^ (a.log2 : Int) := by
        rw [← zpow_add₀ two_ne_zero]
        congr 1
        omega
    _ ≤ a := by exact_mod_cast Nat.log2_self_le ha.ne'

/-! ### The digits that are found -/

/-- The value of an interval as a fraction of the step of a grid. -/
theorem exists_steps (i : Interval) (k : Int) (hden : 0 < i.den) : ∃ num den : Nat,
    (if 0 ≤ k then (i.value, i.den * Nat.pow 10 k.toNat) else (i.value * Nat.pow 10 (-k).toNat, i.den)) =
      (num, den) ∧ 0 < den ∧ (num : ℚ) * (10 ^ k * i.den) = i.value * den := by
  split
  · rename_i hk
    obtain ⟨j, rfl⟩ := Int.eq_ofNat_of_zero_le hk
    refine ⟨_, _, rfl, Nat.mul_pos hden (Nat.pow_pos (by decide)), ?_⟩
    simp only [Int.toNat_natCast, Nat.pow_eq, Nat.cast_mul, Nat.cast_pow, Nat.cast_ofNat, zpow_natCast]
    ring
  · rename_i hk
    obtain ⟨j, rfl⟩ : ∃ j : Nat, k = -j := ⟨(-k).toNat, by omega⟩
    refine ⟨_, _, rfl, hden, ?_⟩
    simp only [neg_neg, Int.toNat_natCast, Nat.pow_eq, Nat.cast_mul, Nat.cast_pow, Nat.cast_ofNat, zpow_neg,
      zpow_natCast]
    field_simp

/-- The two neighbours of the value on a grid, and which of them is taken. -/
theorem exists_neighbours (i : Interval) (k : Int) (hden : 0 < i.den) : ∃ down : Nat,
    (Digits.mk down k).value * i.den ≤ i.value ∧ i.value ≤ (Digits.mk (down + 1) k).value * i.den ∧
      (i.nearest? k = none ∧ i.holds down k = false ∧ i.holds (down + 1) k = false ∨
        i.nearest? k = some down ∧ i.holds down k = true ∨
        i.nearest? k = some (down + 1) ∧ i.holds (down + 1) k = true) := by
  obtain ⟨num, den, hpair, hpos, hnum⟩ := exists_steps i k hden
  have hposq : (0 : ℚ) < den := by exact_mod_cast hpos
  have hstep : (0 : ℚ) < 10 ^ k * i.den := by
    have hdenq : (0 : ℚ) < i.den := by exact_mod_cast hden
    positivity
  refine ⟨num / den, ?_, ?_, ?_⟩
  · have hdown : ((num / den : Nat) : ℚ) * den ≤ num := by exact_mod_cast Nat.div_mul_le_self num den
    refine le_of_mul_le_mul_right ?_ hposq
    rw [← hnum, Digits.value, mul_assoc ((num / den : Nat) : ℚ), mul_right_comm]
    exact mul_le_mul_of_nonneg_right hdown hstep.le
  · have hup : (num : ℚ) ≤ ((num / den + 1 : Nat) : ℚ) * den := by
      exact_mod_cast (Nat.lt_div_mul_add hpos).le.trans_eq (by ring)
    refine le_of_mul_le_mul_right ?_ hposq
    rw [← hnum, Digits.value, mul_assoc ((num / den + 1 : Nat) : ℚ), mul_right_comm]
    exact mul_le_mul_of_nonneg_right hup hstep.le
  · rw [Interval.nearest?, hpair]
    dsimp only
    -- Where both neighbours hold, the nearer is taken, and either is allowed.
    cases i.holds (num / den) k <;> cases i.holds (num / den + 1) k
    · exact .inl ⟨rfl, rfl, rfl⟩
    · exact .inr (.inr ⟨rfl, rfl⟩)
    · exact .inr (.inl ⟨rfl, rfl⟩)
    · dsimp only
      split
      · exact .inr (.inl ⟨rfl, rfl⟩)
      · exact .inr (.inr ⟨rfl, rfl⟩)

theorem holds_of_nearest? {i : Interval} (hden : 0 < i.den) (h : i.nearest? k = some n) :
    i.holds n k = true := by
  obtain ⟨down, -, -, ⟨hnone, -⟩ | ⟨hsome, hholds⟩ | ⟨hsome, hholds⟩⟩ := exists_neighbours i k hden
  · cases hnone.symm.trans h
  · cases hsome.symm.trans h
    exact hholds
  · cases hsome.symm.trans h
    exact hholds

section OfBinary

theorem den_ofBinary_pos (m : Nat) (e : Int) : 0 < (Interval.ofBinary m e).den :=
  Nat.mul_pos (by decide) (fraction_den_pos 1 e)

theorem value_ofBinary (m : Nat) (e : Int) :
    ((Interval.ofBinary m e).value : ℚ) = magnitudeOf m e * (Interval.ofBinary m e).den := by
  have hnum := fraction_num 1 e
  simp only [Interval.ofBinary, Nat.cast_mul, hnum, magnitudeOf]
  push_cast
  ring

/-- The binary lengths of a double's fraction are not far apart. -/
theorem log2_ofBinary (hm : 0 < m) (h : Canonical m e) :
    0 < (Interval.ofBinary m e).value ∧ (Interval.ofBinary m e).value.log2 ≤ 1026 ∧
      (Interval.ofBinary m e).den.log2 ≤ 1076 := by
  have hleast := h.least_le
  have hgreatest := h.le_greatest
  have hlt : 4 * m < 2 ^ 55 := by
    have := h.lt_units
    simp only [unitCount] at this
    omega
  obtain ⟨p, q, hpair, hp, hq⟩ : ∃ p q : Nat, fraction 1 e = (2 ^ p, 2 ^ q) ∧ p ≤ 971 ∧ q ≤ 1074 := by
    rw [fraction]
    split
    · exact ⟨e.toNat, 0, by simp, by omega, by omega⟩
    · exact ⟨0, (-e).toNat, by simp, by omega, by omega⟩
  simp only [Interval.ofBinary, hpair]
  have hne : 4 * m * 2 ^ p ≠ 0 := by positivity
  have hvalue : 4 * m * 2 ^ p < 2 ^ (55 + p) := by
    rw [Nat.pow_add]
    exact Nat.mul_lt_mul_of_pos_right hlt (Nat.two_pow_pos p)
  have hden : 4 * 2 ^ q = 2 ^ (2 + q) := (Nat.pow_add 2 2 q).symm
  have hlog := (Nat.log2_lt hne).2 hvalue
  rw [hden, Nat.log2_two_pow]
  exact ⟨Nat.pos_of_ne_zero hne, by omega, by omega⟩

end OfBinary

/-- A grid that is finer than the interval of a double is wide has a number in it. -/
theorem le_of_nearest?_eq_none (hm : 0 < m) (h : (Interval.ofBinary m e).nearest? k = none) :
    (quartersBelow m e + 2) * (2 : ℚ) ^ e ≤ 4 * 10 ^ k := by
  have hden : (0 : ℚ) < (Interval.ofBinary m e).den := by exact_mod_cast den_ofBinary_pos m e
  obtain ⟨down, hdown, hup, ⟨-, hbelow, habove⟩ | ⟨hsome, -⟩ | ⟨hsome, -⟩⟩ :=
    exists_neighbours (Interval.ofBinary m e) k (den_ofBinary_pos m e)
  · rw [value_ofBinary] at hdown hup
    have hlow := le_of_not_roundsTo (le_of_mul_le_mul_right hdown hden)
      (mt (holds_ofBinary_iff hm).2 (by simp [hbelow]))
    have hhigh := ge_of_not_roundsTo (le_of_mul_le_mul_right hup hden)
      (mt (holds_ofBinary_iff hm).2 (by simp [habove]))
    simp only [Digits.value, Nat.cast_add, Nat.cast_one] at hlow hhigh
    linarith
  · cases h.symm.trans hsome
  · cases h.symm.trans hsome

/-- Seventeen digits are enough. -/
theorem exists_nearest? (hm : 0 < m) (h : Canonical m e) :
    ∃ n, (Interval.ofBinary m e).nearest?
      (magnitude (Interval.ofBinary m e).value (Interval.ofBinary m e).den - 1 - 16) = some n := by
  obtain ⟨hpos, hlog, hlog'⟩ := log2_ofBinary hm h
  have hden : (0 : ℚ) < (Interval.ofBinary m e).den := by exact_mod_cast den_ofBinary_pos m e
  have hmagnitude := pow_ten_le_of_magnitude (b := (Interval.ofBinary m e).den) hpos (by omega) (by omega)
  rw [value_ofBinary, mul_le_mul_iff_of_pos_right hden, magnitudeOf] at hmagnitude
  generalize magnitude (Interval.ofBinary m e).value (Interval.ofBinary m e).den - 1 = top at hmagnitude
  refine Option.ne_none_iff_exists'.1 fun hnone => ?_
  have hgap := le_of_nearest?_eq_none hm hnone
  have hunit : (0 : ℚ) < 2 ^ e := by positivity
  have hsteps : (10 : ℚ) ^ top = 10 ^ (top - 16) * 10 ^ 16 := by
    rw [← zpow_natCast, ← zpow_add₀ (by norm_num)]
    norm_num
  have hwide : ((quartersBelow m e + 2) * 10 ^ 16 : ℚ) * 2 ^ e ≤ (4 * m : ℚ) * 2 ^ e := by
    rw [hsteps] at hmagnitude
    linarith
  have hwide : (quartersBelow m e + 2) * 10 ^ 16 ≤ 4 * m := by
    exact_mod_cast le_of_mul_le_mul_right hwide hunit
  have hlt := h.lt_units
  simp only [unitCount] at hlt
  rw [quartersBelow] at hwide
  split at hwide
  · rename_i hpower
    simp only [unitCount] at hpower
    omega
  · omega

/-- Zeros at the end are moved without a change of the number. -/
theorem Digits.value_trimZeros (fuel : Nat) (d : Digits) : (d.trimZeros fuel).value = d.value := by
  induction fuel generalizing d with
  | zero => rfl
  | succ fuel ih =>
      rw [Digits.trimZeros]
      split
      · rename_i hzero
        have hdigits : d.digits % 10 = 0 := by simpa using (Bool.and_eq_true_iff.1 hzero).2
        obtain ⟨n, hn⟩ := Nat.dvd_of_mod_eq_zero hdigits
        rw [ih, Digits.value, Digits.value, hn, Nat.mul_div_cancel_left n (by decide),
          zpow_add_one₀ (by norm_num)]
        push_cast
        ring
      · rfl

/-- The shortest digits of a double write a number that rounds to it. -/
theorem roundsTo_shortest (hm : 0 < m) (h : Canonical m e) : RoundsTo (shortest m e).value m e := by
  have hne : (m == 0) = false := by simpa using hm.ne'
  rw [shortest, hne]
  simp only [Bool.false_eq_true, if_false]
  rw [Digits.value_trimZeros]
  generalize htop : magnitude (Interval.ofBinary m e).value (Interval.ofBinary m e).den - 1 = top
  obtain ⟨n, hn⟩ := exists_nearest? hm h
  rw [htop] at hn
  cases hhit : (List.range 17).findSome? fun (i : Nat) =>
      ((Interval.ofBinary m e).nearest? (top - i)).map fun n => Digits.mk n (top - i) with
  | none =>
      have hall := List.findSome?_eq_none_iff.1 hhit 16 (by decide)
      simp [hn] at hall
  | some d =>
      obtain ⟨i, -, hi⟩ := List.exists_of_findSome?_eq_some hhit
      obtain ⟨n, hnear, rfl⟩ := Option.map_eq_some_iff.1 hi
      exact (holds_ofBinary_iff hm).1 (holds_of_nearest? (den_ofBinary_pos m e) hnear)

end PromptWeave.Decimal
