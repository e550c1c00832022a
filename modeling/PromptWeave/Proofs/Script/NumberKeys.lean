import PromptWeave.Proofs.Decimal.Displays
import PromptWeave.Proofs.Decimal.WholeDoubles
import PromptWeave.Script.Value

/-!
# Keys of numbers

An integer and a whole double below `9e15` have the digits of their value for a key, so that they share it
if they are equal. A greater double has its text for a key, which is that of no integer.
-/
namespace PromptWeave.Script

open PromptWeave.Decimal

variable {x y : Float} {z w : Int}

/-! ### Integers as text -/

/-- The characters by which an integer is written. -/
def integerChars (z : Int) : List Char := (if z < 0 then ['-'] else []) ++ Nat.toDigits 10 z.natAbs

theorem toList_repr_eq (z : Int) : z.repr.toList = integerChars z := by
  rw [Int.repr_eq_if, integerChars]
  by_cases hz : z < 0
  · rw [if_pos hz, if_neg (by omega), String.toList_append, Nat.toList_repr, ← Int.toNat_natCast z.natAbs]
    congr 3
    omega
  · rw [if_neg hz, if_pos (by omega), Nat.toList_repr, ← Int.toNat_natCast z.natAbs]
    congr 2
    omega

theorem head?_toDigits_ne (n : Nat) : (Nat.toDigits 10 n).head? ≠ some '-' := by
  obtain ⟨d, ds, hdigits, hd, -⟩ := exists_digits n
  rw [hdigits]
  rintro ⟨⟩
  cases hd

theorem integerChars_injective : Function.Injective integerChars := by
  intro z w h
  obtain ⟨hsign, hdigits⟩ :=
    sign_append_inj (s := decide (z < 0)) (t := decide (w < 0)) (head?_toDigits_ne _) (head?_toDigits_ne _)
      (by simpa [integerChars] using h)
  have habs : z.natAbs = w.natAbs := by
    rw [← digitsValue_toDigits z.natAbs, hdigits, digitsValue_toDigits]
  have hsign : z < 0 ↔ w < 0 := decide_eq_decide.1 hsign
  omega

/-- The text of a double is not that of an integer. -/
theorem display_ne_integer (x : Float) (z : Int) : (display x).toList ≠ integerChars z := by
  intro h
  obtain ⟨s, cs, hcs, hwritten⟩ := exists_writtenAs x
  obtain ⟨-, rfl⟩ := sign_append_inj (s := s) (t := decide (z < 0)) hwritten.head_ne (head?_toDigits_ne _)
    (by simpa [integerChars] using hcs.symm.trans h)
  have hdigits {c : Char} (hc : c ∈ Nat.toDigits 10 z.natAbs) : c.isDigit = true := isDigit_of_mem_toDigits hc
  generalize Nat.toDigits 10 z.natAbs = cs at hwritten hdigits
  generalize read x = r at hwritten
  cases hwritten with
  | notANumber => cases hdigits (c := 'N') (by decide)
  | infinite => cases hdigits (c := 'i') (by decide)
  | finite _ hwrites _ =>
      obtain ⟨whole, places, rfl, -⟩ := hwrites
      cases hdigits (c := '.') (by simp)

/-! ### Doubles that share the key of an integer -/

/-- Whether a double shares the key of an integer. -/
def SharesKey (x : Float) (z : Int) : Prop := HasValue x z ∧ z.natAbs < 9000000000000000

theorem isPlainWhole_iff : isPlainWhole x = true ↔ ∃ z, SharesKey x z := by
  rw [isPlainWhole, Bool.and_eq_true, isWhole_iff, decide_eq_true_eq]
  constructor
  · rintro ⟨⟨z, hz⟩, habs⟩
    exact ⟨z, hz, hz.abs_lt_iff.1 habs⟩
  · rintro ⟨z, hz, hlt⟩
    exact ⟨⟨z, hz⟩, hz.abs_lt_iff.2 hlt⟩

namespace Value

theorem toList_dedupKey_int (n : Int64) : (int n).dedupKey.toList = integerChars n.toInt := by
  have hkey : (int n).dedupKey = n.toInt.repr := by
    rw [dedupKey, repr]
    · rfl
    · simp
    · simp
  rw [hkey, toList_repr_eq]

theorem toList_dedupKey_of_sharesKey {d : Double} (h : SharesKey d.value z) :
    (float d).dedupKey.toList = integerChars z := by
  have hkey : (float d).dedupKey = z.repr := by
    rw [dedupKey, if_pos (isPlainWhole_iff.2 ⟨z, h⟩), h.1.round?]
    rfl
  rw [hkey, toList_repr_eq]

theorem dedupKey_of_not_sharesKey {d : Double} (h : ¬∃ z, SharesKey d.value z) :
    (float d).dedupKey = display d.value := by
  rw [dedupKey, if_neg (mt isPlainWhole_iff.1 h), repr]

/-- Two integers have one key if they are the same. -/
theorem dedupKey_int_int (m n : Int64) : (int m).dedupKey = (int n).dedupKey ↔ m = n := by
  rw [← String.toList_inj, toList_dedupKey_int, toList_dedupKey_int, integerChars_injective.eq_iff,
    Int64.toInt_inj]

/-- An integer and a double have one key if they are equal and the double is not too great. -/
theorem dedupKey_int_float (n : Int64) (d : Double) : (int n).dedupKey = (float d).dedupKey ↔
    (nearestFloat n == d.value) = true ∧ d.value.abs < 9.0e15 := by
  obtain ⟨z, hz, hvalue⟩ := exists_hasValue_nearestFloat n
  rw [← String.toList_inj, toList_dedupKey_int]
  by_cases hshares : ∃ w, SharesKey d.value w
  · obtain ⟨w, hw⟩ := hshares
    rw [toList_dedupKey_of_sharesKey hw, integerChars_injective.eq_iff, hz.beq_iff hw.1,
      and_iff_left (hw.1.abs_lt_iff.2 hw.2)]
    rcases hvalue with rfl | ⟨hz, hn⟩
    · rfl
    · have hlt := hw.2
      exact iff_of_false (by rintro rfl; omega) (by rintro rfl; omega)
  · rw [dedupKey_of_not_sharesKey hshares]
    refine iff_of_false (display_ne_integer _ _).symm ?_
    rintro ⟨hbeq, habs⟩
    have hd := hz.of_beq hbeq
    exact hshares ⟨z, hd, hd.abs_lt_iff.1 habs⟩

/-- Two doubles have one key if they are equal. -/
theorem dedupKey_float_float {c d : Double} (hc : c.value.isNaN = false) :
    (float c).dedupKey = (float d).dedupKey ↔ (c.value == d.value) = true := by
  rw [← String.toList_inj]
  by_cases hshares : ∃ z, SharesKey c.value z
  · obtain ⟨z, hz⟩ := hshares
    rw [toList_dedupKey_of_sharesKey hz]
    by_cases hshares' : ∃ w, SharesKey d.value w
    · obtain ⟨w, hw⟩ := hshares'
      rw [toList_dedupKey_of_sharesKey hw, integerChars_injective.eq_iff, hz.1.beq_iff hw.1]
    · rw [dedupKey_of_not_sharesKey hshares']
      exact iff_of_false (display_ne_integer _ _).symm fun hbeq => hshares' ⟨z, hz.1.of_beq hbeq, hz.2⟩
  · rw [dedupKey_of_not_sharesKey hshares]
    by_cases hshares' : ∃ w, SharesKey d.value w
    · obtain ⟨w, hw⟩ := hshares'
      rw [toList_dedupKey_of_sharesKey hw]
      exact iff_of_false (display_ne_integer _ _) fun hbeq =>
        hshares ⟨w, hw.1.of_beq (beq_symm hbeq), hw.2⟩
    · rw [dedupKey_of_not_sharesKey hshares', String.toList_inj, display_injective.eq_iff]
      refine ⟨fun heq => ?_, fun hbeq => ?_⟩
      · exact beq_iff_read.2 ⟨isNaN_eq_false_iff.1 hc, .inl (congrArg read heq)⟩
      · obtain ⟨-, heq | ⟨s, t, hs, -⟩⟩ := beq_iff_read.1 hbeq
        · exact read_injective heq
        · exact absurd ⟨_, ⟨s, 0, -1074, 0, hs, magnitudeOf_eq_zero.2 rfl, rfl⟩, by cases s <;> decide⟩ hshares

end Value
end PromptWeave.Script
