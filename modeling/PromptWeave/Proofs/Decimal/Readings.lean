import Mathlib
import PromptWeave.Decimal.Double

/-!
# What doubles stand for

The bits of a double unpack to a sign, a mantissa and an exponent, which is what is read of it. Two doubles
with one reading are the same, and equality, order, the negative and the distance from zero can be told
from the readings.
-/
namespace PromptWeave.Decimal

open Float.Model Float.Model.UnpackedFloat

/-! ### Bits -/

section Bits

variable (b : BitVec Format.binary64.numBits)

theorem toNat_unpackExponent : (unpackExponent b).toNat = b.toNat / unitCount % 2048 := by
  rw [unpackExponent_def, BitVec.extractLsb'_toNat, Nat.shiftRight_eq_div_pow]
  rfl

theorem toNat_unpackMantissa : (unpackMantissa b).toNat = b.toNat % unitCount := by
  rw [unpackMantissa_def, BitVec.extractLsb'_toNat, Nat.shiftRight_zero]
  rfl

theorem ofBitVec_unpackSign :
    Sign.ofBitVec (unpackSign b) = if b.toNat / unitCount / 2048 = 1 then .negative else .positive := by
  have hsign : (unpackSign b).toNat = b.toNat / unitCount / 2048 := by
    have hlt : b.toNat < 2 ^ 64 := b.isLt
    have htop : (unpackSign b).toNat = b.toNat / 2 ^ 63 % 2 := by
      rw [unpackSign_def, BitVec.extractLsb'_toNat, Nat.shiftRight_eq_div_pow]
      rfl
    simp only [unitCount]
    omega
  have hzero : unpackSign b = 0#1 ↔ b.toNat / unitCount / 2048 = 0 := by
    rw [← hsign, BitVec.toNat_eq]
    rfl
  have hlt : b.toNat / unitCount / 2048 < 2 := hsign ▸ (unpackSign b).isLt
  by_cases h : b.toNat / unitCount / 2048 = 1
  · rw [Sign.ofBitVec, if_neg (mt hzero.1 (by omega)), if_pos h]
  · rw [Sign.ofBitVec, if_pos (hzero.2 (by omega)), if_neg h]

end Bits

/-- The sign of a reading as that of an unpacked double. -/
def isNegative : Sign → Bool
  | .negative => true
  | .positive => false

/-- What an unpacked double stands for. -/
def Reading.ofUnpacked : UnpackedFloat → Reading
  | .infinity s => .infinite (isNegative s)
  | .notANumber => .notANumber
  | .zero s => .finite (isNegative s) 0 (-1074)
  | .finite s m e _ => .finite (isNegative s) m e

/-- What is read of a double, by its three fields. -/
theorem read_eq_fields (x : Float) {b : BitVec Format.binary64.numBits} (hb : b = x.toModel.toBits.toBitVec) :
    read x =
      if (unpackExponent b).toNat = 2047 then
        if (unpackMantissa b).toNat = 0 then .infinite (isNegative (.ofBitVec (unpackSign b)))
        else .notANumber
      else if (unpackExponent b).toNat = 0 then
        .finite (isNegative (.ofBitVec (unpackSign b))) (unpackMantissa b).toNat (-1074)
      else .finite (isNegative (.ofBitVec (unpackSign b))) ((unpackMantissa b).toNat + unitCount)
        ((unpackExponent b).toNat - 1075) := by
  have hnegative : isNegative (.ofBitVec (unpackSign b)) = (b.toNat / unitCount / 2048 == 1) := by
    rw [ofBitVec_unpackSign]
    by_cases h : b.toNat / unitCount / 2048 = 1 <;> simp [h, isNegative]
  have hbits : x.toBits.toNat = b.toNat := by
    subst hb
    rfl
  simp only [toNat_unpackExponent, toNat_unpackMantissa, hnegative, read, hbits, beq_iff_eq]

/-- The first bit of a mantissa that has one is not stored. -/
theorem toNat_one_append (m : BitVec 52) : (1#1 ++ m).toNat = m.toNat + unitCount := by
  rw [BitVec.toNat_append, ← Nat.shiftLeft_add_eq_or_of_lt m.isLt, Nat.add_comm]
  rfl

/-- What is read of a double is what it unpacks to. -/
theorem read_eq (x : Float) : read x = .ofUnpacked x.toModel.unpack := by
  obtain ⟨b, hb⟩ : ∃ b : BitVec Format.binary64.numBits, b = x.toModel.toBits.toBitVec := ⟨_, rfl⟩
  have hunpack : x.toModel.unpack = UnpackedFloat.unpack .binary64 b := by
    subst hb
    rfl
  have hE : unpackExponent b = -1#11 ↔ (unpackExponent b).toNat = 2047 := BitVec.toNat_eq
  have hE' : unpackExponent b = 0#11 ↔ (unpackExponent b).toNat = 0 := BitVec.toNat_eq
  have hM : unpackMantissa b = 0#52 ↔ (unpackMantissa b).toNat = 0 := BitVec.toNat_eq
  rw [read_eq_fields x hb, hunpack, UnpackedFloat.unpack]
  dsimp only
  by_cases hinf : (unpackExponent b).toNat = 2047
  · rw [if_pos hinf, if_pos (hE.2 hinf)]
    by_cases hzero : (unpackMantissa b).toNat = 0
    · rw [if_pos hzero, if_pos (hM.2 hzero)]
      rfl
    · rw [if_neg hzero, if_neg (mt hM.1 hzero)]
      rfl
  · rw [if_neg hinf, if_neg (mt hE.1 hinf)]
    by_cases hleast : (unpackExponent b).toNat = 0
    · rw [if_pos hleast, if_pos (hE'.2 hleast)]
      by_cases hzero : (unpackMantissa b).toNat = 0
      · rw [dif_pos (hM.2 hzero), hzero]
        rfl
      · rw [dif_neg (mt hM.1 hzero), Reading.ofUnpacked, hleast]
        rfl
    · have hm : (1#1 ++ unpackMantissa b).toNat = (unpackMantissa b).toNat + unitCount :=
        toNat_one_append _
      rw [if_neg hleast, if_neg (mt hE'.1 hleast), Reading.ofUnpacked, hm]
      rfl

theorem isNegative_inj {s t : Sign} : isNegative s = isNegative t ↔ s = t := by
  cases s <;> cases t <;> simp [isNegative]

theorem ofUnpacked_injective : Function.Injective Reading.ofUnpacked := by
  intro u v h
  cases u <;> cases v <;>
    simp only [Reading.ofUnpacked, Reading.finite.injEq, Reading.infinite.injEq, reduceCtorEq,
      isNegative_inj] at h
  case infinity.infinity => rw [h]
  case notANumber.notANumber => rfl
  case zero.zero => rw [h.1]
  case zero.finite hpos => exact absurd h.2.1 hpos.ne
  case finite.zero hpos _ => exact absurd h.2.1 hpos.ne'
  case finite.finite =>
    obtain ⟨rfl, rfl, rfl⟩ := h
    rfl

/-- Doubles of which the same is read are the same. -/
theorem read_injective : Function.Injective read := by
  intro x y h
  rw [read_eq, read_eq] at h
  have hunpack := ofUnpacked_injective h
  have hbits := (unpack_inj_of_valid x.toModel.valid y.toModel.valid).1 hunpack
  exact Float.toBits_inj.1 (UInt64.toBitVec_inj.1 hbits)

/-! ### Finite doubles -/

/-- Whether a double has this mantissa and this exponent: all bits are used but at the least exponent. -/
structure Canonical (m : Nat) (e : Int) : Prop where
  lt_units : m < 2 * unitCount
  least_le : -1074 ≤ e
  le_greatest : e ≤ 971
  units_le : e = -1074 ∨ unitCount ≤ m

variable {x y : Float} {negative : Bool} {m : Nat} {e : Int}

theorem canonical_of_read (h : read x = .finite negative m e) : Canonical m e := by
  have hfraction := Nat.mod_lt x.toBits.toNat (by decide : 0 < unitCount)
  have hbiased := Nat.mod_lt (x.toBits.toNat / unitCount) (by decide : 0 < 2048)
  simp only [read, beq_iff_eq] at h
  split at h
  · split at h <;> cases h
  · split at h
    · cases h
      exact ⟨by omega, by decide, by decide, .inl rfl⟩
    · cases h
      exact ⟨by omega, by omega, by omega, .inr (Nat.le_add_left ..)⟩

theorem log2_eq_iff (hm : 0 < m) (h : Canonical m e) : m.log2 + 1 = Format.binary64.mantissaBits ↔ unitCount ≤ m := by
  have hlt : m < 2 ^ 53 := h.lt_units
  have hlog := (Nat.log2_lt hm.ne').2 hlt
  have hle : 52 ≤ m.log2 ↔ 2 ^ 52 ≤ m := Nat.le_log2 hm.ne'
  have hunits : unitCount = 2 ^ 52 := rfl
  have hbits : Format.binary64.mantissaBits = 53 := rfl
  rw [hunits, ← hle, hbits]
  omega

theorem ofBitVec_toBitVec (s : Sign) : Sign.ofBitVec s.toBitVec = s := by cases s <;> rfl

/-- A double that uses all bits is packed without the first of them. -/
theorem unpack_normal (s : Sign) (hm : 0 < m) (h : Canonical m e) (hunits : unitCount ≤ m) :
    UnpackedFloat.unpack .binary64 (packComponents .binary64 s (.ofNat 11 (e + 1075).toNat) (.ofNat 52 m)) =
      .finite s m e hm := by
  have hlt := h.lt_units
  have hleast := h.least_le
  have hgreatest := h.le_greatest
  have hE : (BitVec.ofNat 11 (e + 1075).toNat).toNat = (e + 1075).toNat := by
    rw [BitVec.toNat_ofNat]
    omega
  have hinf : BitVec.ofNat 11 (e + 1075).toNat ≠ -1#11 := by
    rw [ne_eq, BitVec.toNat_eq, hE]
    change ¬_ = 2047
    omega
  have hzero : BitVec.ofNat 11 (e + 1075).toNat ≠ 0#11 := by
    rw [ne_eq, BitVec.toNat_eq, hE]
    change ¬_ = 0
    omega
  have hM : (1#1 ++ BitVec.ofNat 52 m).toNat = m := by
    rw [toNat_one_append, BitVec.toNat_ofNat]
    simp only [unitCount] at hlt hunits ⊢
    omega
  rw [UnpackedFloat.unpack]
  simp only [unpackExponent_packComponents, unpackMantissa_packComponents, unpackSign_packComponents]
  rw [if_neg hinf, if_neg hzero]
  simp only [hM, hE, ofBitVec_toBitVec]
  congr 1
  change ((e + 1075).toNat : Int) - 1075 = e
  omega

/-- The others are packed as they are. -/
theorem unpack_small (s : Sign) (hm : 0 < m) (hlt : m < unitCount) :
    UnpackedFloat.unpack .binary64 (packComponents .binary64 s 0#11 (.ofNat 52 m)) =
      .finite s m (-1074) hm := by
  have hM : (BitVec.ofNat 52 m).toNat = m := by
    rw [BitVec.toNat_ofNat]
    exact Nat.mod_eq_of_lt hlt
  have hzero : BitVec.ofNat 52 m ≠ 0#52 := by
    rw [ne_eq, BitVec.toNat_eq, hM]
    exact hm.ne'
  have hinf : 0#11 ≠ -1#11 := by decide
  rw [UnpackedFloat.unpack]
  simp only [unpackExponent_packComponents, unpackMantissa_packComponents, unpackSign_packComponents]
  rw [if_neg hinf, if_pos trivial, dif_neg hzero]
  simp only [hM, ofBitVec_toBitVec]
  rfl

/-- What is packed is unpacked again. -/
theorem unpack_pack_finite (s : Sign) (hm : 0 < m) (h : Canonical m e) :
    UnpackedFloat.unpack .binary64 (UnpackedFloat.pack .binary64 (.finite s m e hm)) =
      .finite s m e hm := by
  have hleast := h.least_le
  have hgreatest := h.le_greatest
  have hbias : e + Format.binary64.exponentBias + Format.binary64.mantissaBitsWithoutImplicit =
      e + 1075 := by
    change e + 1023 + 52 = e + 1075
    omega
  rw [UnpackedFloat.pack, hbias]
  dsimp only
  have hroom : ¬2 ^ 11 ≤ (e + 1075).toNat + 1 := by omega
  rw [if_neg hroom]
  by_cases hunits : unitCount ≤ m
  · rw [if_pos ((log2_eq_iff hm h).2 hunits)]
    exact unpack_normal s hm h hunits
  · rw [if_neg (mt (log2_eq_iff hm h).1 hunits)]
    obtain rfl := h.units_le.resolve_right hunits
    exact unpack_small s hm (Nat.not_le.1 hunits)

theorem unpack_pack {u : UnpackedFloat} (h : ∀ s m e hm, u = .finite s m e hm → Canonical m e) :
    (Float.Model.pack u).unpack = u := by
  change UnpackedFloat.unpack .binary64 (UnpackedFloat.pack .binary64 u) = u
  cases u with
  | infinity s => cases s <;> rfl
  | notANumber => exact unpack_packedNaN
  | zero s => exact unpack_packedZero
  | finite s m e hm => exact unpack_pack_finite s hm (h s m e hm rfl)

theorem canonical_of_unpack {s : Sign} {hm : 0 < m} (h : x.toModel.unpack = .finite s m e hm) :
    Canonical m e := by
  have hread := read_eq x
  rw [h] at hread
  exact canonical_of_read hread

/-! ### Operations and comparisons -/

/-- What a finite double unpacks to. -/
theorem unpack_of_read (h : read x = .finite negative m e) :
    ∃ s, negative = isNegative s ∧ (m = 0 ∧ e = -1074 ∧ x.toModel.unpack = .zero s ∨
      ∃ hm, x.toModel.unpack = .finite s m e hm) := by
  rw [read_eq] at h
  cases hu : x.toModel.unpack with
  | infinity s => simp [hu, Reading.ofUnpacked] at h
  | notANumber => simp [hu, Reading.ofUnpacked] at h
  | zero s =>
      rw [hu] at h
      cases h
      exact ⟨s, rfl, .inl ⟨rfl, rfl, rfl⟩⟩
  | finite s m e hm =>
      rw [hu] at h
      cases h
      exact ⟨s, rfl, .inr ⟨hm, rfl⟩⟩

theorem read_neg (h : read x = .finite negative m e) : read (-x) = .finite (!negative) m e := by
  have hneg : (-x).toModel = .pack x.toModel.unpack.neg := rfl
  rw [read_eq, hneg]
  obtain ⟨s, rfl, ⟨rfl, rfl, hu⟩ | ⟨hm, hu⟩⟩ := unpack_of_read h
  · rw [hu, unpack_pack (by rintro _ _ _ _ ⟨⟩)]
    cases s <;> rfl
  · rw [hu, unpack_pack]
    · cases s <;> rfl
    · rintro _ _ _ _ ⟨⟩
      exact canonical_of_unpack hu

theorem read_abs (h : read x = .finite negative m e) : read x.abs = .finite false m e := by
  have habs : x.abs.toModel = .pack x.toModel.unpack.abs := rfl
  rw [read_eq, habs]
  obtain ⟨s, rfl, ⟨rfl, rfl, hu⟩ | ⟨hm, hu⟩⟩ := unpack_of_read h
  · rw [hu, unpack_pack (by rintro _ _ _ _ ⟨⟩)]
    rfl
  · rw [hu, unpack_pack]
    · rfl
    · rintro _ _ _ _ ⟨⟩
      exact canonical_of_unpack hu

/-- The order of what is not negative goes by the exponent first. -/
theorem abs_lt_iff (h : read x = .finite negative m e) :
    x.abs < 9.0e15 ↔ e < 0 ∨ e = 0 ∧ m < 9000000000000000 := by
  have hbound : (9.0e15 : Float).toModel.unpack = .finite .positive 9000000000000000 0 (by decide) := rfl
  have hlt : x.abs < 9.0e15 ↔ x.abs.toModel.unpack.lt (9.0e15 : Float).toModel.unpack = true := by
    change Float.lt _ _ = true ↔ _
    rw [Float.lt, decide_eq_true_eq]
    rfl
  rw [hlt, hbound]
  obtain ⟨s, hs, ⟨rfl, rfl, hu⟩ | ⟨hm, hu⟩⟩ := unpack_of_read (read_abs h)
  · rw [hu]
    simp [UnpackedFloat.lt, UnpackedFloat.compare]
  · obtain rfl : s = .positive := isNegative_inj.1 hs.symm
    rw [hu]
    simp [UnpackedFloat.lt, UnpackedFloat.compare, Ordering.then_eq_lt, compare_lt_iff_lt]

theorem eq_nan_iff : x = .nan ↔ read x = .notANumber :=
  ⟨fun h => h ▸ rfl, fun h => read_injective (h.trans rfl)⟩

/-- Two doubles are equal if the same is read of them or both are zero, whatever the signs. -/
theorem beq_iff_read : (x == y) = true ↔ read x ≠ .notANumber ∧
    (read x = read y ∨ ∃ s t, read x = .finite s 0 (-1074) ∧ read y = .finite t 0 (-1074)) := by
  have hzero {z : Float} : z = 0 ↔ read z = .finite false 0 (-1074) :=
    ⟨fun h => h ▸ rfl, fun h => read_injective (h.trans rfl)⟩
  have hminus {z : Float} : z = -0 ↔ read z = .finite true 0 (-1074) :=
    ⟨fun h => h ▸ rfl, fun h => read_injective (h.trans rfl)⟩
  rw [Float.beq_iff_ne_nan_and_eq, ne_eq, ne_eq, eq_nan_iff, eq_nan_iff, hzero, hzero, hminus, hminus,
    ← read_injective.eq_iff (a := x) (b := y)]
  constructor
  · rintro ⟨hx, -, heq | ⟨hx', hy'⟩ | ⟨hx', hy'⟩⟩
    · exact ⟨hx, .inl heq⟩
    · exact ⟨hx, .inr ⟨_, _, hx', hy'⟩⟩
    · exact ⟨hx, .inr ⟨_, _, hx', hy'⟩⟩
  · rintro ⟨hx, heq | ⟨s, t, hs, ht⟩⟩
    · exact ⟨hx, heq ▸ hx, .inl heq⟩
    · refine ⟨hx, by simp [ht], ?_⟩
      cases s <;> cases t <;> simp [hs, ht]

theorem beq_symm (h : (x == y) = true) : (y == x) = true := by
  rw [beq_iff_read] at h ⊢
  obtain ⟨hx, heq | ⟨s, t, hs, ht⟩⟩ := h
  · exact ⟨heq ▸ hx, .inl heq.symm⟩
  · exact ⟨by simp [ht], .inr ⟨t, s, ht, hs⟩⟩

theorem isNaN_eq_false_iff : x.isNaN = false ↔ read x ≠ .notANumber := by
  rw [Float.isNaN_eq_decide_eq_nan, decide_eq_false_iff_not, eq_nan_iff]

end PromptWeave.Decimal
