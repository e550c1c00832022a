import PromptWeave.Proofs.Decimal.Readings

/-!
# Integers as doubles

An integer below `2 ^ 53` is itself a double. Any other is rounded to one that is no smaller than that.
-/
namespace PromptWeave.Decimal

open Float.Model Float.Model.UnpackedFloat

variable {m : Nat} {e : Int}

theorem targetExponent_eq (m : Nat) (e : Int) :
    Format.binary64.targetExponent (totalExponent m e) = max (m.log2 + 1 + e - 53) (-1074) := by
  rw [Format.targetExponent, totalExponent]
  rfl

/-- What fits is not shifted. -/
theorem shift_of_lt (hm : m < 2 ^ 53) (he : -1074 ≤ e) :
    shiftToTargetExponent .binary64 m e .exact = (⟨m, false, false⟩, e) := by
  have hlog : m.log2 < 53 := by
    by_cases hzero : m = 0
    · simp [hzero]
    · exact (Nat.log2_lt hzero).2 hm
  have hshift : (max ((m.log2 : Int) + 1 + e - 53) (-1074) - e).toNat = 0 := by omega
  rw [shiftToTargetExponent, targetExponent_eq, shiftToExponent, hshift]
  simp only [Int.ofNat_zero, Int.add_zero]
  rfl

theorem mantissa_shiftRight (em : ExtendedMantissa) (k : Nat) :
    (em >>> k).mantissa = em.mantissa / 2 ^ k := by
  induction k with
  | zero => exact (Nat.div_one _).symm
  | succ k ih =>
      have hstep : em >>> (k + 1) = (em >>> k).shiftRightOne := rfl
      rw [hstep, ExtendedMantissa.shiftRightOne, ih, Nat.div_div_eq_div_mul, Nat.pow_succ]

theorem le_roundedMantissa (em : ExtendedMantissa) :
    em.mantissa ≤ em.roundedMantissa ∧ em.roundedMantissa ≤ em.mantissa + 1 := by
  obtain ⟨m, round, sticky⟩ := em
  rw [ExtendedMantissa.roundedMantissa]
  cases round <;> cases sticky <;>
    simp only [ExtendedMantissa.accuracy, Accuracy.roundToNearestEven] <;> omega

/-- What fits is not rounded. -/
theorem roundWithAccuracy_of_lt (s : Sign) (hm : 0 < m) (hlt : m < 2 ^ 53) (he : -1074 ≤ e) :
    roundWithAccuracy .binary64 s m e .exact = .finite s m e hm := by
  have hshift := shift_of_lt hlt he
  have hrounded : (⟨m, false, false⟩ : ExtendedMantissa).roundedMantissa = m := rfl
  rw [roundWithAccuracy]
  simp only [hshift, hrounded]
  rw [dif_neg hm.ne']

/-- What does not fit loses as many bits as it has too many. -/
theorem shift_of_log2 {t : Nat} (ht : m.log2 = 52 + t) :
    shiftToTargetExponent .binary64 m 0 .exact = (ExtendedMantissa.mk m false false >>> t, (t : Int)) := by
  have hamount : (max ((m.log2 : Int) + 1 + 0 - 53) (-1074) - 0).toNat = t := by omega
  rw [shiftToTargetExponent, targetExponent_eq, shiftToExponent, hamount]
  simp only [Int.zero_add]
  rfl

/-- A carry is one bit too many. -/
theorem shift_of_carry (t : Nat) : shiftToTargetExponent .binary64 (2 ^ 53) t .exact =
    (ExtendedMantissa.mk (2 ^ 53) false false >>> 1, (t + 1 : Int)) := by
  have hamount : (max (((2 ^ 53).log2 : Int) + 1 + t - 53) (-1074) - t).toNat = 1 := by
    rw [Nat.log2_two_pow]
    omega
  rw [shiftToTargetExponent, targetExponent_eq, shiftToExponent, hamount]
  rfl

/-- What does not fit loses its last bits, and carries where all others are set. -/
theorem exists_roundWithAccuracy_of_le (s : Sign) (hm : 2 ^ 53 ≤ m) :
    ∃ m' e' hm', roundWithAccuracy .binary64 s m 0 .exact = .finite s m' e' hm' ∧ unitCount ≤ m' ∧
      m' < 2 ^ 53 ∧ 1 ≤ e' ∧ e' ≤ m.log2 - 51 := by
  have hne : m ≠ 0 := by omega
  have hlog : 53 ≤ m.log2 := (Nat.le_log2 hne).2 hm
  obtain ⟨t, ht⟩ : ∃ t, m.log2 = 52 + t := ⟨m.log2 - 52, by omega⟩
  have hq : 2 ^ 52 ≤ m / 2 ^ t ∧ m / 2 ^ t < 2 ^ 53 := by
    have hlow := Nat.log2_self_le hne
    have hhigh := Nat.lt_log2_self (n := m)
    rw [ht, Nat.pow_add] at hlow
    rw [ht, Nat.add_right_comm, Nat.pow_add] at hhigh
    exact ⟨(Nat.le_div_iff_mul_le (Nat.two_pow_pos t)).2 hlow,
      (Nat.div_lt_iff_lt_mul (Nat.two_pow_pos t)).2 hhigh⟩
  obtain ⟨hle, hle'⟩ := le_roundedMantissa (ExtendedMantissa.mk m false false >>> t)
  rw [mantissa_shiftRight] at hle hle'
  dsimp only at hle hle'
  generalize hr : (ExtendedMantissa.mk m false false >>> t).roundedMantissa = r at hle hle'
  -- Rounding up may carry out of the mantissa, and then there is one more bit to lose.
  by_cases hcarry : r < 2 ^ 53
  · have hsecond := shift_of_lt hcarry (by omega : -1074 ≤ (t : Int))
    have hpos : 0 < r := by omega
    refine ⟨r, t, hpos, ?_, by simp only [unitCount]; omega, hcarry, by omega, by omega⟩
    rw [roundWithAccuracy]
    simp only [shift_of_log2 ht, hr, hsecond]
    rw [dif_neg hpos.ne']
  · obtain rfl : r = 2 ^ 53 := by omega
    refine ⟨2 ^ 52, t + 1, by decide, ?_, le_rfl, by decide, by omega, by omega⟩
    rw [roundWithAccuracy]
    simp only [shift_of_log2 ht, hr, shift_of_carry]
    rfl

/-- A natural number is shifted up to its target, if that is below, and then rounded. -/
theorem normalize_eq {k : Nat} (hpos : 0 < k) : UnpackedFloat.normalize .binary64 k 0 .positive =
    roundWithAccuracy .binary64 .positive
      (k <<< (0 - max ((k.log2 : Int) + 1 + 0 - 53) (-1074)).toNat)
      (0 - ((0 - max ((k.log2 : Int) + 1 + 0 - 53) (-1074)).toNat : Int)) .exact := by
  rw [UnpackedFloat.normalize, compare_gt_iff_gt.2 (by omega : (0 : Int) < k)]
  change UnpackedFloat.round .binary64 .positive k 0 = _
  rw [UnpackedFloat.round, targetExponent_eq, decreaseExponent]

/-- A natural number that fits fills up the mantissa. -/
theorem normalize_of_lt {k : Nat} (hpos : 0 < k) (hlt : k < 2 ^ 53) :
    ∃ (d : Nat) (hm : 0 < k * 2 ^ d), UnpackedFloat.normalize .binary64 k 0 .positive = .finite .positive (k * 2 ^ d) (-d) hm ∧
      Canonical (k * 2 ^ d) (-d) := by
  have hlog : k.log2 < 53 := (Nat.log2_lt hpos.ne').2 hlt
  obtain ⟨d, hd⟩ : ∃ d, 52 = k.log2 + d := ⟨52 - k.log2, by omega⟩
  have hamount : (0 - max ((k.log2 : Int) + 1 + 0 - 53) (-1074)).toNat = d := by omega
  have hlow : 2 ^ 52 ≤ k * 2 ^ d := by
    rw [hd, Nat.pow_add]
    exact Nat.mul_le_mul_right _ (Nat.log2_self_le hpos.ne')
  have hhigh : k * 2 ^ d < 2 ^ 53 := by
    rw [show 53 = k.log2 + 1 + d by omega, Nat.pow_add]
    exact Nat.mul_lt_mul_of_pos_right Nat.lt_log2_self (Nat.two_pow_pos d)
  refine ⟨d, by omega, ?_, ⟨hhigh, by omega, by omega, .inr hlow⟩⟩
  rw [normalize_eq hpos, hamount, Nat.shiftLeft_eq, Int.zero_sub,
    roundWithAccuracy_of_lt .positive (by omega) hhigh (by omega)]

/-- Any other is rounded. -/
theorem normalize_of_le {k : Nat} (hle : 2 ^ 53 ≤ k) (hlt : k < 2 ^ 64) :
    ∃ m e hm, UnpackedFloat.normalize .binary64 k 0 .positive = .finite .positive m e hm ∧
      Canonical m e ∧ 1 ≤ e ∧ unitCount ≤ m := by
  have hpos : 0 < k := by omega
  have hlog : 53 ≤ k.log2 := (Nat.le_log2 hpos.ne').2 hle
  have hlog' : k.log2 < 64 := (Nat.log2_lt hpos.ne').2 hlt
  have hamount : (0 - max ((k.log2 : Int) + 1 + 0 - 53) (-1074)).toNat = 0 := by omega
  obtain ⟨m, e, hm, hrounded, hlow, hhigh, hone, htop⟩ := exists_roundWithAccuracy_of_le .positive hle
  refine ⟨m, e, hm, ?_, ⟨hhigh, by omega, by omega, .inr hlow⟩, hone, hlow⟩
  rw [normalize_eq hpos, hamount, Nat.shiftLeft_zero, Int.ofNat_zero, Int.sub_zero, hrounded]

/-- What the double nearest to a natural number stands for: the number itself if it fits. -/
theorem read_toFloat (k : UInt64) : ∃ m e, read k.toFloat = .finite false m e ∧
    (k.toNat < 2 ^ 53 ∧ e ≤ 0 ∧ m = k.toNat * 2 ^ (-e).toNat ∨
      2 ^ 53 ≤ k.toNat ∧ 1 ≤ e ∧ unitCount ≤ m) := by
  have hmodel : k.toFloat.toModel = .pack (UnpackedFloat.normalize .binary64 k.toNat 0 .positive) := rfl
  rw [read_eq, hmodel]
  rcases Nat.eq_zero_or_pos k.toNat with hzero | hpos
  · rw [hzero]
    exact ⟨0, -1074, rfl, .inl ⟨by decide, by decide, (Nat.zero_mul _).symm⟩⟩
  · rcases Nat.lt_or_ge k.toNat (2 ^ 53) with hlt | hle
    · obtain ⟨d, hm, heq, hcanonical⟩ := normalize_of_lt hpos hlt
      rw [heq, unpack_pack]
      · exact ⟨_, _, rfl, .inl ⟨hlt, by omega, by rw [Int.neg_neg, Int.toNat_natCast]⟩⟩
      · rintro _ _ _ _ ⟨⟩
        exact hcanonical
    · obtain ⟨m, e, hm, heq, hcanonical, hone, hlow⟩ := normalize_of_le hle k.toNat_lt
      rw [heq, unpack_pack]
      · exact ⟨m, e, rfl, .inr ⟨hle, hone, hlow⟩⟩
      · rintro _ _ _ _ ⟨⟩
        exact hcanonical

/-- What the double nearest to an integer stands for: the integer itself if it fits. -/
theorem read_nearestFloat (n : Int64) : ∃ m e, read (nearestFloat n) = .finite (n.toInt < 0) m e ∧
    (n.toInt.natAbs < 2 ^ 53 ∧ e ≤ 0 ∧ m = n.toInt.natAbs * 2 ^ (-e).toNat ∨
      2 ^ 53 ≤ n.toInt.natAbs ∧ 1 ≤ e ∧ unitCount ≤ m) := by
  have hlt := n.toBitVec.isLt
  have hint : n.toInt = if 2 * n.toBitVec.toNat < 2 ^ 64 then (n.toBitVec.toNat : Int)
      else n.toBitVec.toNat - 2 ^ 64 := BitVec.toInt_eq_toNat_cond _
  have hneg : n < 0 ↔ n.toInt < 0 := Int64.lt_iff_toInt_lt
  rw [nearestFloat]
  by_cases hn : n.toInt < 0
  · have habs : (-n).toUInt64.toNat = n.toInt.natAbs := by
      have htoNat : (-n).toUInt64.toNat = (2 ^ 64 - n.toBitVec.toNat) % 2 ^ 64 := BitVec.toNat_neg _
      rw [htoNat]
      omega
    obtain ⟨m, e, hread, h⟩ := read_toFloat (-n).toUInt64
    rw [habs] at h
    refine ⟨m, e, ?_, h⟩
    rw [if_pos (hneg.2 hn), read_neg hread]
    simp [hn]
  · have habs : n.toUInt64.toNat = n.toInt.natAbs := by
      have htoNat : n.toUInt64.toNat = n.toBitVec.toNat := rfl
      omega
    obtain ⟨m, e, hread, h⟩ := read_toFloat n.toUInt64
    rw [habs] at h
    refine ⟨m, e, ?_, h⟩
    rw [if_neg (mt hneg.1 hn), hread]
    simp [hn]

end PromptWeave.Decimal
