import Mathlib.Data.Set.Card
import PromptWeave.Proofs.Script.Integers
import PromptWeave.Proofs.Script.Operands

/-!
# Arithmetic progressions

The number of terms of a range is a ceiling, found with a division. It is the number of terms before the
end, for steps of either sign. A term is computed with words, by a product that may be too large for
them; the term itself lies between the two ends, so the word is the term.
-/
namespace PromptWeave.Script

open PromptWeave.Script.Action

/-- Whether a term of a progression lies before its end. -/
def BeforeEnd (start stop step : Int) (i : Nat) : Prop :=
  if 0 < step then start + i * step < stop else stop < start + i * step

/-- The arguments of a range, with the start, the end and the step that they stand for. -/
inductive RangeArguments : List Value → Int64 → Int64 → Int64 → Prop where
  | one (stop : Int64) : RangeArguments [.int stop] 0 stop 1
  | two (start stop : Int64) : RangeArguments [.int start, .int stop] start stop 1
  | three (start stop step : Int64) :
      RangeArguments [.int start, .int stop, .int step] start stop step

/-! ### The number of terms -/

section

variable {distance size start stop step : Int}

/-- A quotient that is rounded up counts the multiples below the dividend. -/
theorem lt_toNat_ceiling_iff (hsize : 0 < size) (i : Nat) :
    i < ((distance + size - 1) / size).toNat ↔ i * size < distance := by
  rw [Int.lt_toNat, ← Int.add_one_le_iff, Int.le_ediv_iff_mul_le hsize, Int.add_mul, Int.one_mul]
  omega

/-- A negative dividend is rounded to nothing, whichever way it is rounded. -/
theorem toNat_tdiv (hsize : 0 < size) (n : Int) : (n.tdiv size).toNat = (n / size).toNat := by
  rcases Int.lt_or_le n 0 with hneg | hnonneg
  · have hopposite : 0 ≤ (-n).tdiv size := Int.tdiv_nonneg (by omega) (by omega)
    rw [Int.neg_tdiv] at hopposite
    have hfloor : n / size < 0 := Int.ediv_neg_of_neg_of_pos hneg hsize
    omega
  · rw [Int.tdiv_eq_ediv_of_nonneg hnonneg]

theorem lt_termCount_iff (hstep : step ≠ 0) (i : Nat) :
    i < termCount start stop step ↔ BeforeEnd start stop step i := by
  unfold termCount BeforeEnd
  by_cases hpos : 0 < step
  · rw [if_pos hpos, if_pos hpos, lt_toNat_ceiling_iff hpos]
    omega
  · have hneg : 0 < -step := by omega
    rw [if_neg hpos, if_neg hpos, show start - stop - step - 1 = start - stop + -step - 1 by omega,
      lt_toNat_ceiling_iff hneg, Int.mul_neg]
    omega

theorem ncard_beforeEnd (hstep : step ≠ 0) :
    {i | BeforeEnd start stop step i}.ncard = termCount start stop step := by
  have hset : {i | BeforeEnd start stop step i} = Finset.range (termCount start stop step) := by
    ext i
    rw [Set.mem_ofPred_eq, ← lt_termCount_iff hstep, Finset.mem_coe, Finset.mem_range]
  rw [hset, Set.ncard_coe_finset, Finset.card_range]

/-- The quotient by which a machine of 128 bits counts the terms. It divides towards zero. -/
def termSpan (start stop step : Int) : Int :=
  if 0 < step then (stop - start + step - 1).tdiv step
  else (start - stop - step - 1).tdiv (-step)

theorem termCount_eq_toNat_termSpan (hstep : step ≠ 0) :
    termCount start stop step = (termSpan start stop step).toNat := by
  unfold termCount termSpan
  by_cases hpos : 0 < step
  · rw [if_pos hpos, if_pos hpos, toNat_tdiv hpos]
  · rw [if_neg hpos, if_neg hpos, toNat_tdiv (by omega)]

end

/-! ### The terms -/

/-- A term before the end lies between the start and the end. -/
theorem fitsInt_term {start stop : Int64} {step : Int} {i : Nat}
    (h : BeforeEnd start.toInt stop.toInt step i) : fitsInt (start.toInt + i * step) = true := by
  obtain ⟨hstartLow, hstartHigh⟩ := fitsInt_iff.1 (fitsInt_toInt start)
  obtain ⟨hstopLow, hstopHigh⟩ := fitsInt_iff.1 (fitsInt_toInt stop)
  rw [fitsInt_iff]
  unfold BeforeEnd at h
  split at h
  · have hrise : 0 ≤ i * step := Int.mul_nonneg (Int.natCast_nonneg i) (by omega)
    omega
  · have hfall : i * step ≤ 0 := Int.mul_nonpos_of_nonneg_of_nonpos (Int.natCast_nonneg i) (by omega)
    omega

/-- Words compute a term modulo `2 ^ 64`. -/
theorem ofInt_term (start step : Int64) (i : Nat) :
    Int64.ofInt (start.toInt + i * step.toInt) = start + Int64.ofNat i * step := by
  rw [Int64.ofInt_add, Int64.ofInt_mul, Int64.ofInt_toInt, Int64.ofInt_toInt, Int64.ofInt_eq_ofNat]

theorem toInt_term {start stop step : Int64} {i : Nat}
    (h : BeforeEnd start.toInt stop.toInt step.toInt i) :
    (start + Int64.ofNat i * step).toInt = start.toInt + i * step.toInt := by
  rw [← ofInt_term, toInt_ofInt_of_fits (fitsInt_term h)]

/-- The number of terms between two words is a word. -/
theorem termCount_lt_words64 (start stop : Int64) {step : Int} (hstep : step ≠ 0) :
    termCount start.toInt stop.toInt step < words64 := by
  obtain ⟨hstartLow, hstartHigh⟩ := fitsInt_iff.1 (fitsInt_toInt start)
  obtain ⟨hstopLow, hstopHigh⟩ := fitsInt_iff.1 (fitsInt_toInt stop)
  by_contra hmany
  have hlast : BeforeEnd start.toInt stop.toInt step (words64 - 1) :=
    (lt_termCount_iff hstep _).1 (by unfold words64 at hmany ⊢; omega)
  unfold BeforeEnd words64 at hlast
  split at hlast <;> omega

/-- The terms of a progression, as words compute them. -/
def termsOf (start step : Int64) (count : Nat) : Value :=
  .list ((List.range count).map fun i => .int (start + Int64.ofNat i * step))

theorem progression_eq (start stop : Int64) {step : Int64} (hstep : step ≠ 0) :
    progression start.toInt stop.toInt step.toInt =
      if termCount start.toInt stop.toInt step.toInt ≤ maxItems
      then .ok (termsOf start step (termCount start.toInt stop.toInt step.toInt))
      else .error (.tooManyItems (termCount start.toInt stop.toInt step.toInt)) := by
  have hne : step.toInt ≠ 0 := fun h => hstep (Int64.toInt_inj.1 h)
  simp only [progression, if_neg hne, checkItems, ofInt_term, termsOf]
  by_cases hmany : maxItems < termCount start.toInt stop.toInt step.toInt
  · rw [if_pos hmany, if_neg (Nat.not_le.2 hmany)]
    rfl
  · rw [if_neg hmany, if_pos (Nat.not_lt.1 hmany)]
    rfl

/-- One, two or three bounds stand for a progression. -/
theorem rangeOf_eq {values : List Value} {start stop step : Int64}
    (h : RangeArguments values start stop step) :
    rangeOf values = progression start.toInt stop.toInt step.toInt := by
  cases h <;> rfl

/-! ### Calls of `range` -/

theorem message_tooManyItems (count : Nat) : (Fault.tooManyItems count).message =
    "collection too large (" ++ toString count ++ " items, limit 100000)" := by
  have hlimit : toString maxItems = "100000" := by cbv
  change "collection too large (" ++ toString count ++ " items, limit " ++ toString maxItems ++ ")" = _
  rw [hlimit, String.append_assoc, String.append_assoc]
  congr 1

/-- A range is its progression. The number `n` of the terms before the end is counted exactly, for steps
of either sign; if a list may have that many items, the call gives the terms, each exact although words
compute it, and otherwise it fails and names the number. -/
theorem range_gives_terms_before_end {limits : Limits} {m m' : Machine} {args : List Expr}
    {values : List Value} {start stop step : Int64} (hargs : RangeArguments values start stop step)
    (hstep : step ≠ 0) (hcall : Called limits m "range" args values m') :
    let n := {i | BeforeEnd start.toInt stop.toInt step.toInt i}.ncard
    (∀ i, i < n ↔ BeforeEnd start.toInt stop.toInt step.toInt i) ∧
    (n ≤ 100000 → HasOutcome limits m (.call (.var "range") args) (.ok (.list
      ((List.range n).map fun i => .int (start + Int64.ofNat i * step)))) m') ∧
    (∀ i < n, (start + Int64.ofNat i * step).toInt = start.toInt + i * step.toInt) ∧
    (100000 < n → Raises limits m (.call (.var "range") args)
      ("collection too large (" ++ toString n ++ " items, limit 100000)") m') := by
  intro n
  have hne : step.toInt ≠ 0 := fun h => hstep (Int64.toInt_inj.1 h)
  have hn : n = termCount start.toInt stop.toInt step.toInt := ncard_beforeEnd hne
  have hbefore (i : Nat) : i < n ↔ BeforeEnd start.toInt stop.toInt step.toInt i := by
    rw [hn, lt_termCount_iff hne]
  have hcomes : HasOutcome limits m (.call (.var "range") args) (rangeOf values) m' :=
    hasOutcome_call (f := .range) rfl hcall
  rw [rangeOf_eq hargs, progression_eq start stop hstep, ← hn] at hcomes
  refine ⟨hbefore, fun hfew => ?_, fun i hi => toInt_term ((hbefore i).1 hi), fun hmany => ?_⟩
  · rwa [if_pos (show n ≤ maxItems from hfew)] at hcomes
  · rw [if_neg (show ¬n ≤ maxItems from Nat.not_le.2 hmany)] at hcomes
    exact ⟨.tooManyItems n, hcomes, message_tooManyItems n⟩

/-- From the least integer to the greatest in steps of `2 ^ 62` there are four terms. For the last of
them the product is `3 * 2 ^ 62`, which is no word. -/
theorem range_gives_terms_before_end_widest :
    let args : List Expr := [.int Int64.minValue, .int Int64.maxValue, .int 4611686018427387904]
    ∃ m', Called ⟨100, 100⟩ (.start (.ofSeed 0)) "range" args
        [.int Int64.minValue, .int Int64.maxValue, .int 4611686018427387904] m' ∧
      HasOutcome ⟨100, 100⟩ (.start (.ofSeed 0)) (.call (.var "range") args)
        (.ok (.list [.int Int64.minValue, .int (-4611686018427387904), .int 0,
          .int 4611686018427387904])) m' := by
  intro args
  have hcall : Called ⟨100, 100⟩ (.start (.ofSeed 0)) "range" args _ _ :=
    ⟨⟨by decide, succeeds_of_fst (evalAll args) rfl⟩, rfl⟩
  obtain ⟨-, hgives, -, -⟩ := range_gives_terms_before_end (.three ..) (by decide) hcall
  have hcount : {i | BeforeEnd Int64.minValue.toInt Int64.maxValue.toInt
      (4611686018427387904 : Int64).toInt i}.ncard = 4 :=
    (ncard_beforeEnd (by decide)).trans (by decide)
  rw [hcount] at hgives
  exact ⟨_, hcall, hgives (by decide)⟩

end PromptWeave.Script
